import Paperlog.Model.Ffi

/-!
# The global logger and its initialisation (`src/lib.rs`, `src/ffi.rs`)

`LOGGER` is a `OnceLock`: `get_or_init` runs its argument only while the cell is unset, and leaves
it unset if the argument panics.  There are three panics in that argument: `Vec::with_capacity`
refuses a queue of more than `isize::MAX` bytes, and `expect` is called on the results of
`LoggerThreadCtx::new` and `init`.  A panic is the outer error here, so that it can be told from the
`Result` that `init_logger` returns.  It goes up through the callers in Rust; at the `extern "C"`
boundary of `paper2_init_logger_ffi` it aborts the process.

A first call that answers `true` has booted the system with the configuration it was given, as far as
the conversion keeps it (`boot_of_paper2InitLoggerFfi`).
-/

namespace Paperlog

namespace GlobalLogger

/-- What the target fixes: the bits of a `usize`, and `size_of::<LogData>()`. -/
structure Target where
  bits : ℕ
  sizeOfLogData : ℕ

inductive Panic
  /-- "capacity overflow" -/
  | capacityOverflow
  /-- "Unable to create logger" -/
  | unableToCreate (e : LoggerError)
  /-- "Unable to init logger" -/
  | unableToInit (e : LoggerError)

/-- `Vec::<LogData>::with_capacity(config.log_max_buffer_count)` panics. -/
def CapacityOverflows (target : Target) (config : LoggerConfig) : Prop :=
  2 ^ (target.bits - 1) ≤ config.logMaxBufferCount * target.sizeOfLogData

instance (target : Target) (config : LoggerConfig) : Decidable (CapacityOverflows target config) :=
  inferInstanceAs (Decidable (_ ≤ _))

/-- `OnceLock::get_or_init`, and the cell it leaves. -/
def getOrInit {σ : Type} (cell : Option σ) (f : Unit → Except Panic σ) :
    Except Panic σ × Option σ :=
  match cell with
  | some value => (.ok value, some value)
  | none =>
      match f () with
      | .ok value => (.ok value, some value)
      | .error p => (.error p, none)

variable {W ω Tid : Type} [FileIo W ω]

/-- The argument of `get_or_init`. -/
def create (target : Target) (config : LoggerConfig) (path : PathBuf) (world : W)
    (todo : Tid → List Call) : Except Panic (Sys W ω Tid) :=
  if CapacityOverflows target config then .error .capacityOverflow
  else
    match LoggerThreadCtx.new config path world with
    | .error e _ => .error (.unableToCreate e)
    | .ok logger world =>
        match logger.init with
        | .error e => .error (.unableToInit e)
        | .ok ctx => .ok (.start world ctx todo)

/-- `init_logger`: its result, unless it panics, and `LOGGER` afterwards. -/
def initLogger (target : Target) (cell : Option (Sys W ω Tid)) (config : LoggerConfig)
    (path : PathBuf) (world : W) (todo : Tid → List Call) :
    Except Panic (Except LoggerError (Sys W ω Tid)) × Option (Sys W ω Tid) :=
  let (res, cell) := getOrInit cell fun _ => create target config path world todo
  (res.map .ok, cell)

/-- The configuration `paper2_init_logger_ffi` goes on with. -/
def convertedConfig (target : Target) : Option LoggerConfigFfi → Option LoggerConfig
  | none => some .default
  | some ffi => ffi.toLoggerConfig target.bits

/-- `paper2_init_logger_ffi`; `none` where a null pointer is dereferenced. -/
def paper2InitLoggerFfi (target : Target) (cell : Option (Sys W ω Tid))
    (config : Option LoggerConfigFfi) (path : CStrPtr) (world : W) (todo : Tid → List Call) :
    Option (Except Panic Bool × Option (Sys W ω Tid)) :=
  match path with
  | none => some (.ok false, cell)
  | some path =>
      match CStr.toStr path with
      | none => some (.ok false, cell)
      | some path => do
          let config ← convertedConfig target config
          let (res, cell) := initLogger target cell config path world todo
          pure (res.map Except.isOk, cell)

/-- The argument of `get_or_init` by itself: what it makes, and the world it leaves. -/
def createLogger (target : Target) (arg : LoggerConfig × PathBuf) (world : W) :
    Except Panic (LoggerThreadCtx ω) × W :=
  if CapacityOverflows target arg.1 then (.error .capacityOverflow, world)
  else
    match LoggerThreadCtx.new arg.1 arg.2 world with
    | .error e world => (.error (.unableToCreate e), world)
    | .ok logger world =>
        match logger.init with
        | .error e => (.error (.unableToInit e), world)
        | .ok ctx => (.ok ctx, world)

section

variable {target : Target} {config : LoggerConfig} {path : PathBuf} {world : W}
  {todo : Tid → List Call} {s : Sys W ω Tid}

/-- The running system is made of that. -/
theorem create_eq : create target config path world todo =
    ((createLogger target (config, path) world).1.map fun ctx =>
      Sys.start (createLogger (ω := ω) target (config, path) world).2 ctx todo :
        Except Panic (Sys W ω Tid)) := by
  unfold create createLogger
  split
  · rfl
  · dsimp only
    cases (LoggerThreadCtx.new config path : EStateM LoggerError W (LoggerThreadCtx ω)) world with
    | error e w => rfl
    | ok logger w =>
        dsimp only
        cases logger.init <;> rfl

/-- Where the queue can be allocated, this is the boot of the system. -/
theorem create_ok_iff (hcapacity : ¬ CapacityOverflows target config) :
    create target config path world todo = .ok s ↔ Sys.boot world config path todo = .ok s := by
  rw [create, if_neg hcapacity, Sys.boot]
  cases (LoggerThreadCtx.new config path : EStateM LoggerError W (LoggerThreadCtx ω)) world with
  | error e w => simp
  | ok logger w =>
      simp only
      cases logger.init with
      | error e => simp [Except.map]
      | ok ctx => simp [Except.map]

/-- The two `expect`s panic with other messages. -/
theorem create_eq_capacityOverflow_iff :
    (create target config path world todo : Except Panic (Sys W ω Tid)) =
      .error .capacityOverflow ↔ CapacityOverflows target config := by
  refine ⟨fun h => ?_, fun h => by rw [create, if_pos h]⟩
  by_contra hcapacity
  rw [create, if_neg hcapacity] at h
  cases hnew : (LoggerThreadCtx.new config path : EStateM LoggerError W (LoggerThreadCtx ω)) world with
  | error e w => simp [hnew] at h
  | ok logger w =>
      cases hinit : logger.init with
      | error e => simp [hnew, hinit] at h
      | ok ctx => simp [hnew, hinit] at h

/-- With an unset cell, `init_logger` returns what it creates. -/
theorem initLogger_none :
    initLogger target none config path world todo =
      match (create target config path world todo : Except Panic (Sys W ω Tid)) with
      | .ok s => (.ok (.ok s), some s)
      | .error p => (.error p, none) := by
  rw [initLogger, getOrInit]
  cases (create target config path world todo : Except Panic (Sys W ω Tid)) with
  | ok s => rfl
  | error p => rfl

/-- A first call that answers `true` has booted the logger with the converted configuration. -/
theorem boot_of_paper2InitLoggerFfi {ffi : Option LoggerConfigFfi} {cPath : CStrPtr}
    (h : paper2InitLoggerFfi target none ffi cPath world todo = some (.ok true, some s)) :
    ∃ bytes path config, cPath = some bytes ∧ CStr.toStr bytes = some path ∧
      convertedConfig target ffi = some config ∧ ¬ CapacityOverflows target config ∧
      Sys.boot world config path todo = .ok s := by
  unfold paper2InitLoggerFfi at h
  split at h
  · cases h
  · rename_i bytes
    split at h
    · cases h
    · rename_i path hpath
      obtain ⟨config, hconfig, h⟩ := Option.bind_eq_some_iff.1 h
      rw [initLogger_none] at h
      cases hcreate : (create target config path world todo : Except Panic (Sys W ω Tid)) with
      | error p =>
          rw [hcreate] at h
          cases h
      | ok s' =>
          rw [hcreate] at h
          cases h
          have hcapacity : ¬ CapacityOverflows target config := by
            intro hoverflow
            rw [create_eq_capacityOverflow_iff.2 hoverflow] at hcreate
            cases hcreate
          exact ⟨bytes, path, config, rfl, hpath, hconfig, hcapacity,
            (create_ok_iff hcapacity).1 hcreate⟩

/-- On a disk that never fails, every configuration whose queue can be allocated is admitted. -/
theorem paper2InitLoggerFfi_disk {resolve : PathBuf → Place} {ffi : Option LoggerConfigFfi}
    (hconfig : convertedConfig target ffi = some config)
    (hcapacity : ¬ CapacityOverflows target config) (path : Str) (disk : Disk resolve)
    (todo : Tid → List Call) :
    paper2InitLoggerFfi target none ffi (some path.utf8) disk todo = some (.ok true,
      some (Sys.start (disk.create path).1
        { config, inited := true, globalFile := (disk.create path).2, contextMap := [], sinks := [] }
        todo)) := by
  have hcreate := (create_ok_iff hcapacity).2 (Sys.boot_disk disk config path todo)
  simp only [paper2InitLoggerFfi, CStr.toStr_utf8, hconfig, Option.bind_eq_bind, Option.bind_some]
  rw [initLogger_none, hcreate]
  rfl

end

end GlobalLogger

end Paperlog
