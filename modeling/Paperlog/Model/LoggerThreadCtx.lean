import Paperlog.Model.FileIo
import Paperlog.Model.Split

/-!
# The data behind the lock (`src/logger/logger_thread_ctx.rs`, `file_logger.rs`)

`LoggerThreadCtx` is what the `RwLock` protects: the configuration, the files and the sinks.  The
queue and the two semaphores are shared beside the lock and live in the system state.  The
operations here are the bodies of the critical sections, run under the write guard; a failed one
leaves the context and the world in the state it had reached, as `?` does.

The context map is an association list.  `FxHashMap` visits its values in no specified order; the
list visits them in the order of registration.
-/

namespace Paperlog

/-- `LoggerConfig`; the two sizes are `usize`. -/
structure LoggerConfig where
  maxStringLen : ℕ
  logMaxBufferCount : ℕ
  lineEnd : Char
  contextLogPath : PathBuf
  deriving DecidableEq

/-- `LoggerConfig::default`. -/
def LoggerConfig.default : LoggerConfig :=
  { maxStringLen := 1024
    logMaxBufferCount := 100
    lineEnd := '\n'
    contextLogPath := "./logs".toList }

/-- `LoggerError`. -/
inductive LoggerError
  | logError (message : Str)
  | flushError (source : IoError)
  | ioError (source : IoError)
  | ioSpecificError (source : IoError) (context : Option Str) (path : PathBuf)
  | alreadyInitialized
  deriving DecidableEq

/-- `Debug` of the optional context of an `IoSpecificError`.  The contexts of the source hold no
character that `Debug` escapes. -/
def debugContext : Option Str → Str
  | none => "None".toList
  | some context => "Some(\"".toList ++ context ++ "\")".toList

/-- `Display` of `LoggerError`. -/
def LoggerError.display : LoggerError → Str
  | .logError message => "Unknown Error occurred in logging thread: ".toList ++ message
  | .flushError source => "Error occurred during flush in logging thread: ".toList ++ source
  | .ioError source => "IO Error occurred in logging thread: ".toList ++ source
  | .ioSpecificError source context path =>
      "IO Error at ".toList ++ path ++ " occurred in logging thread: Context ".toList ++
        debugContext context ++ " ".toList ++ source
  | .alreadyInitialized => "Logger already initialized".toList

/-- A registered `LogCallback`, as the rest of the program sees it: the records it has been called
with, and how many records had been dispatched when it was registered. -/
structure Sink where
  received : List LogData
  since : ℕ
  deriving DecidableEq

structure LoggerThreadCtx (ω : Type) where
  config : LoggerConfig
  inited : Bool
  globalFile : ω
  contextMap : List (Str × ω)
  sinks : List Sink

namespace LoggerThreadCtx

variable {W ω : Type}

/-- The context `LoggerThreadCtx::new` builds around the global file it has created. -/
def ofGlobalFile (config : LoggerConfig) (globalFile : ω) : LoggerThreadCtx ω :=
  { config, inited := false, globalFile, contextMap := [], sinks := [] }

/-- `map_err` into an `IoSpecificError`. -/
def orIoSpecific {α : Type} (op : EStateM IoError W α) (context : Str) (path : PathBuf) :
    EStateM LoggerError W α := fun w =>
  match op w with
  | .ok a w => .ok a w
  | .error e w => .error (.ioSpecificError e (some context) path) w

/-- `LoggerThreadCtx::init`, as far as the context is concerned. -/
def init (ctx : LoggerThreadCtx ω) : Except LoggerError (LoggerThreadCtx ω) :=
  if ctx.inited then .error .alreadyInitialized else .ok { ctx with inited := true }

/-- Runs a writer operation on the global file. -/
def onGlobalFile (op : EStateM IoError (W × ω) Unit) :
    EStateM IoError (W × LoggerThreadCtx ω) Unit := fun (w, ctx) =>
  match op (w, ctx.globalFile) with
  | .ok _ (w, file) => .ok () (w, { ctx with globalFile := file })
  | .error e (w, file) => .error e (w, { ctx with globalFile := file })

/-- `context_map` with the file of `tag` replaced. -/
def setContextFile (contextMap : List (Str × ω)) (tag : Str) (file : ω) : List (Str × ω) :=
  contextMap.map fun entry => if entry.1 = tag then (entry.1, file) else entry

/-- Runs a writer operation on the file of `tag`, if one is registered. -/
def onContextFile (tag : Str) (op : EStateM IoError (W × ω) Unit) :
    EStateM IoError (W × LoggerThreadCtx ω) Unit := fun (w, ctx) =>
  match ctx.contextMap.lookup tag with
  | none => .ok () (w, ctx)
  | some file =>
      match op (w, file) with
      | .ok _ (w, file) => .ok () (w, { ctx with contextMap := setContextFile ctx.contextMap tag file })
      | .error e (w, file) =>
          .error e (w, { ctx with contextMap := setContextFile ctx.contextMap tag file })

variable [FileIo W ω]

variable (ω) in
/-- The folder of the global file, if its path names one. -/
def createParent (logPath : PathBuf) : EStateM LoggerError W Unit :=
  match logPath.parent with
  | none => pure ()
  | some parent =>
      orIoSpecific (FileIo.createDirAll ω parent)
        "Unable to make logging directory for global".toList parent

/-- `LoggerThreadCtx::new`, as far as the context is concerned; the vector of the queue is allocated in
`GlobalLogger.create`. -/
def new (config : LoggerConfig) (logPath : PathBuf) : EStateM LoggerError W (LoggerThreadCtx ω) := do
  orIoSpecific (FileIo.createDirAll ω config.contextLogPath)
    "Unable to make logging directory for contexts".toList config.contextLogPath
  createParent ω logPath
  let globalFile ← orIoSpecific (FileIo.create logPath) "Unable to create global file".toList logPath
  pure (ofGlobalFile config globalFile)

/-- `file_logger::do_log`, under its write guard. -/
def fileDoLog (log : LogData) : EStateM IoError (W × LoggerThreadCtx ω) Unit := do
  onGlobalFile log.writeToIo
  match log.tag with
  | none => pure ()
  | some tag => onContextFile tag log.writeCompactToIo

/-- `file_logger::do_log_batch`, under its one write guard. -/
def doLogBatch : List LogData → EStateM IoError (W × LoggerThreadCtx ω) Unit
  | [] => pure ()
  | log :: logs => do
      onGlobalFile log.writeToIo
      match log.tag with
      | some tag => onContextFile tag log.writeCompactToIo
      | none => pure ()
      doLogBatch logs

/-- A batch is its records, one `do_log` after another. -/
theorem doLogBatch_cons (log : LogData) (logs : List LogData) :
    (doLogBatch (log :: logs) : EStateM IoError (W × LoggerThreadCtx ω) Unit) = (do
      fileDoLog log
      doLogBatch logs) := by
  simp only [doLogBatch, fileDoLog, bind_assoc]
  cases log.tag <;> rfl

/-- `values_mut().try_for_each(|file| file.flush())`. -/
def flushValues (w : W) : List (Str × ω) → EStateM.Result IoError (W × List (Str × ω)) Unit
  | [] => .ok () (w, [])
  | (tag, file) :: rest =>
      match (FileIo.flush : EStateM IoError (W × ω) Unit) (w, file) with
      | .error e (w, file) => .error e (w, (tag, file) :: rest)
      | .ok _ (w, file) =>
          match flushValues w rest with
          | .error e (w, rest) => .error e (w, (tag, file) :: rest)
          | .ok _ (w, rest) => .ok () (w, (tag, file) :: rest)

/-- The files part of `LoggerThreadCtx::flush`, under its write guard. -/
def flushFiles : EStateM IoError (W × LoggerThreadCtx ω) Unit := do
  onGlobalFile FileIo.flush
  fun (w, ctx) =>
    match flushValues w ctx.contextMap with
    | .ok _ (w, contextMap) => .ok () (w, { ctx with contextMap })
    | .error e (w, contextMap) => .error e (w, { ctx with contextMap })

/-- The path of a context's file. -/
def contextPath (config : LoggerConfig) (tag : Str) : PathBuf :=
  (config.contextLogPath.join tag).withExtension "log".toList

/-- Takes `tag` out of the map; the writer it had, if any, is dropped. -/
def dropContext (tag : Str) (w : W) (ctx : LoggerThreadCtx ω) : W × LoggerThreadCtx ω :=
  let w := match ctx.contextMap.lookup tag with
    | none => w
    | some file => FileIo.drop w file
  (w, { ctx with contextMap := ctx.contextMap.filter fun entry => entry.1 ≠ tag })

/-- `LoggerThreadCtx::add_context`: the file is created first, and only then does the map insert
drop the writer registered before. -/
def addContext (tag : Str) : EStateM LoggerError (W × LoggerThreadCtx ω) Unit := fun (w, ctx) =>
  let logPath := contextPath ctx.config tag
  match orIoSpecific (FileIo.create logPath) "Unable to create context file".toList logPath w with
  | .error e w => .error e (w, ctx)
  | .ok file w =>
      let (w, ctx) := dropContext tag w ctx
      .ok () (w, { ctx with contextMap := (tag, file) :: ctx.contextMap })

/-- `LoggerThreadCtx::remove_context`. -/
def removeContext (tag : Str) (w : W) (ctx : LoggerThreadCtx ω) : W × LoggerThreadCtx ω :=
  dropContext tag w ctx

omit [FileIo W ω] in
/-- `LoggerThreadCtx::add_sink`, after `dispatched` records have gone out. -/
def addSink (dispatched : ℕ) (ctx : LoggerThreadCtx ω) : LoggerThreadCtx ω :=
  { ctx with sinks := ctx.sinks ++ [{ received := [], since := dispatched }] }

end LoggerThreadCtx

end Paperlog
