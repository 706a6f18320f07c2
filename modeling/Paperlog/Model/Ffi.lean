import Paperlog.Model.CString
import Paperlog.Model.Frames

/-!
# The C interface (`src/ffi.rs`)

The functions here convert their arguments and then make one of the `Call`s of the system.  The
global `LOGGER` is unset, or set for good to a running logger (`Model/GlobalLogger.lean` has the
function that sets it).  An FFI function that finds it unset answers `false` at once.

Numbers cross as fixed-width integers.  `usize` has `bits` bits, 32 or 64, and `as usize` keeps the
low ones.
-/

namespace Paperlog

/-! ## Logging -/

/-- `paper2_queue_log_ffi`, once its arguments are converted. -/
def Call.paper2QueueLogFfi (log : LogData) : Call := .read [.queueLog log]

/-- `paper2_wait_for_flush`. -/
def Call.paper2WaitForFlush : Call := .read [.waitForFlush]

/-- The arguments of `paper2_queue_log_ffi`. -/
structure QueueLogArgs where
  level : LogLevel
  tag : CStrPtr
  message : CStrPtr
  file : CStrPtr
  line : Int32
  column : Int32
  functionName : CStrPtr

section

variable {W ω Tid : Type}

/-- `paper2_queue_log_ffi`: the call it makes, if any, and its answer. -/
def paper2QueueLogFfi (logger : Option (Sys W ω Tid)) (args : QueueLogArgs) (now : DateTime) :
    Option Call × Bool :=
  match args.message, args.file, logger with
  | some message, some file, some _ =>
      (some (.paper2QueueLogFfi
        { LogData.default now with
          level := args.level
          tag := args.tag.map CStr.toStringLossy
          message := CStr.toStringLossy message
          file := CStr.toStringLossy file
          line := args.line.toUInt32
          column := args.column.toUInt32
          functionName := args.functionName.map CStr.toStringLossy }), true)
  | _, _, _ => (none, false)

/-- `paper2_get_inited`. -/
def paper2GetInited (logger : Option (Sys W ω Tid)) : Bool :=
  match logger with
  | none => false
  | some s => s.ctx.inited

/-- `paper2_get_log_directory`, once it has the read guard: the pointer, unless `unwrap` panics.  The
path is a string, so `to_string_lossy` leaves it as it is. -/
def paper2GetLogDirectory (logger : Option (Sys W ω Tid)) : Except NulError CStrPtr :=
  match logger with
  | none => .ok none
  | some s => (CString.new s.ctx.config.contextLogPath.utf8).map CString.asPtr

end

/-! ## The configuration -/

/-- `LoggerConfigFfi`. -/
structure LoggerConfigFfi where
  maxStringLen : UInt64
  logMaxBufferCount : UInt64
  lineEnd : UInt8
  contextLogPath : CStrPtr

/-- `n as usize`. -/
def asUsize (bits : ℕ) (n : UInt64) : ℕ := n.toNat % 2 ^ bits

/-- `LoggerConfig::from`; `none` where the null path is dereferenced. -/
def LoggerConfigFfi.toLoggerConfig (bits : ℕ) (ffi : LoggerConfigFfi) : Option LoggerConfig :=
  ffi.contextLogPath.map fun path =>
    { maxStringLen := asUsize bits ffi.maxStringLen
      logMaxBufferCount := asUsize bits ffi.logMaxBufferCount
      lineEnd := Char.ofNat ffi.lineEnd.toNat
      contextLogPath := CStr.toStringLossy path }

end Paperlog
