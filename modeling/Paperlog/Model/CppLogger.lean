import Paperlog.Model.GlobalLogger

/-!
# The C++ wrapper (`shared/logger.hpp`)

A C++ caller hands over `std::string_view`s, and the wrapper passes on their `data()`.  A pointer is
given here by the bytes from there to the end of its buffer, so that both ways of reading it can be
stated: a view is so many of these bytes, a C string is what comes before the first NUL.  Where
there is no NUL in the buffer, reading the C string is undefined (`none`).
-/

namespace Paperlog

/-! ## Pointers and views -/

/-- A `char const*`: null, or the bytes from there to the end of the buffer. -/
abbrev CharPtr := Option Bytes

namespace CharPtr

/-- Pointer arithmetic. -/
def add (ptr : CharPtr) (n : ℕ) : CharPtr := ptr.map (·.drop n)

end CharPtr

namespace CStr

/-- `CStr::from_ptr`. -/
def fromPtr (memory : Bytes) : Option Bytes :=
  if 0 ∈ memory then some (memory.takeWhile (· ≠ 0)) else none

/-- A pointer that may be null, read as a C string. -/
def ofCharPtr : CharPtr → Option CStrPtr
  | none => some none
  | some memory => (fromPtr memory).map some

end CStr

/-- `std::string_view`: a pointer and a length within its buffer. -/
structure StringView where
  data : CharPtr
  size : ℕ
  size_le : size ≤ (data.getD []).length

namespace StringView

/-- The viewed bytes. -/
def viewed (view : StringView) : Bytes := (view.data.getD []).take view.size

/-- The view `{}`. -/
def empty : StringView := ⟨none, 0, Nat.zero_le _⟩

/-- A view of a whole C string. -/
def ofCString (bytes : Bytes) : StringView := ⟨some (bytes ++ [0]), bytes.length, by simp⟩

end StringView

/-- `std::string::c_str()`. -/
def cStr (s : Bytes) : CharPtr := some (s ++ [0])

/-- `nostd::source_location`, of a file in the folder that `SOURCE_OFFSET` cuts off.  The two names
are string literals. -/
structure SourceLocation (sourceOffset : ℕ) where
  fileName : Bytes
  functionName : Bytes
  line : UInt32
  column : UInt32
  offset_le : sourceOffset ≤ fileName.length

/-! ## The Rust functions, called with pointers -/

section

variable {W ω Tid : Type} (logger : Option (Sys W ω Tid))

/-- `paper2_queue_log_ffi`: the pointers are read once the logger is known to be there. -/
def paper2QueueLogPtr (level : LogLevel) (tag message file : CharPtr) (line column : Int32)
    (functionName : CharPtr) (now : DateTime) : Option (Option Call × Bool) :=
  if message.isNone ∨ file.isNone ∨ logger.isNone then some (none, false)
  else do
    let tag ← CStr.ofCharPtr tag
    let message ← CStr.ofCharPtr message
    let file ← CStr.ofCharPtr file
    let functionName ← CStr.ofCharPtr functionName
    pure (paper2QueueLogFfi logger { level, tag, message, file, line, column, functionName } now)

/-- `paper2_register_context_id`. -/
def paper2RegisterContextId (tag : CharPtr) (now : DateTime) : Option (Option Call) :=
  match tag, logger with
  | some tag, some _ => do
      let tag ← CStr.fromPtr tag
      pure (some (.write (.registerContext (CStr.toStringLossy tag) now)))
  | _, _ => some none

/-- `paper2_unregister_context_id`. -/
def paper2UnregisterContextId (tag : CharPtr) : Option (Option Call) :=
  match tag, logger with
  | some tag, some _ => do
      let tag ← CStr.fromPtr tag
      pure (some (.write (.unregisterContext (CStr.toStringLossy tag))))
  | _, _ => some none

/-! ## The wrapper -/

variable {sourceOffset : ℕ}

/-- `Logger::vfmtLog`, once `fmt::vformat` has returned `message`. -/
def vfmtLog (message : Bytes) (level : LogLevel) (sourceLoc : SourceLocation sourceOffset)
    (tag : StringView) (now : DateTime) : Option (Option Call × Bool) :=
  paper2QueueLogPtr logger level tag.data (cStr message)
    ((StringView.ofCString sourceLoc.fileName).data.add sourceOffset)
    sourceLoc.line.toInt32 sourceLoc.column.toInt32
    (StringView.ofCString sourceLoc.functionName).data now

/-- `Logger::fmtLogTag`. -/
def fmtLogTag (level : LogLevel) (message : Bytes) (sourceLoc : SourceLocation sourceOffset)
    (tag : StringView) (now : DateTime) : Option (Option Call × Bool) :=
  vfmtLog logger message level sourceLoc tag now

/-- `Logger::fmtLog`. -/
def fmtLog (level : LogLevel) (message : Bytes) (sourceLoc : SourceLocation sourceOffset)
    (now : DateTime) : Option (Option Call × Bool) :=
  fmtLogTag logger level message sourceLoc .empty now

/-- `Logger::RegisterFileContextId`. -/
def registerFileContextId (contextId : StringView) (now : DateTime) : Option (Option Call) :=
  paper2RegisterContextId logger contextId.data now

/-- `Logger::UnregisterFileContextId`. -/
def unregisterFileContextId (contextId : StringView) : Option (Option Call) :=
  paper2UnregisterContextId logger contextId.data

end

/-! ## Initialisation -/

namespace Paper

/-- `Paper::LoggerConfig`. -/
structure LoggerConfig where
  lineEnd : UInt8
  logMaxBufferCount : UInt16
  maxStringLen : UInt32
  maximumFileLengthInLogcat : UInt32

/-- `LoggerConfig::LoggerConfig`. -/
def LoggerConfig.default : LoggerConfig :=
  { lineEnd := 10
    logMaxBufferCount := 512
    maxStringLen := 1024
    maximumFileLengthInLogcat := 50 }

/-- `configFfi` of `Logger::Init`. -/
def LoggerConfig.configFfi (config : LoggerConfig) : LoggerConfigFfi :=
  { maxStringLen := config.maxStringLen.toUInt64
    logMaxBufferCount := config.logMaxBufferCount.toUInt64
    lineEnd := config.lineEnd
    contextLogPath := none }

variable {W ω Tid : Type} [FileIo W ω]

/-- `Logger::Init`; `none` where a pointer is read that must not be. -/
def init (target : GlobalLogger.Target) (cell : Option (Sys W ω Tid)) (logPath : StringView)
    (config : LoggerConfig) (world : W) (todo : Tid → List Call) :
    Option (Except GlobalLogger.Panic Bool × Option (Sys W ω Tid)) := do
  let path ← CStr.ofCharPtr logPath.data
  GlobalLogger.paper2InitLoggerFfi target cell (some config.configFfi) path world todo

end Paper

end Paperlog
