import Paperlog.Model.LogData

/-!
# The logcat backend (`src/logger/logcat_logger.rs`)

On Android every record also goes to the system log.  `do_log` lays tag, file and message one after
another into a thread-local byte buffer, each followed by a NUL, cuts the three C strings out of it
with slices, and hands pointers to them to the NDK.  A slice whose end lies before its start, or
behind the end of the buffer, panics; here it is `none`.  What the NDK is handed is a pointer, so it
reads from there to the next NUL whatever the slice was; `cString` are the bytes it reads.

The two feature sets are the two values of `api30`.  Under `android-api-30` the NDK is asked first
whether the priority is enabled for the tag; its answer is the argument `isLoggable`.
-/

namespace Paperlog

namespace LogcatLogger

/-- `Priority`. -/
inductive Priority
  | verbose
  | debug
  | info
  | warn
  | error
  | fatal
  | silent
  deriving DecidableEq

/-- `Priority::from`. -/
def Priority.ofLevel : LogLevel → Priority
  | .crit => .fatal
  | .off => .silent
  | .info => .info
  | .warn => .warn
  | .error => .error
  | .debug => .debug

/-- The tag a record without one gets. -/
def tag (log : LogData) : Bytes := Str.utf8 (log.tag.getD "default".toList)

def file (log : LogData) : Bytes := Str.utf8 log.file

/-- `message_str`. -/
def messageStr (log : LogData) : Bytes :=
  Str.utf8 ("[".toList ++ log.file ++ ":".toList ++ decimal log.line.toNat ++ ":".toList ++
    decimal log.column.toNat ++ " @ ".toList ++ log.functionName.getD [] ++ "] ".toList ++
    log.message)

/-- The buffer after the three `extend`s. -/
def extend (buffer : Bytes) (log : LogData) : Bytes :=
  buffer ++ (tag log ++ [0]) ++ (file log ++ [0]) ++ (messageStr log ++ [0])

/-! ## The slices -/

/-- `&buffer[start..stop]`. -/
def slice (buffer : Bytes) (start stop : ℕ) : Option Bytes :=
  if start ≤ stop ∧ stop ≤ buffer.length then some ((buffer.take stop).drop start) else none

def tagLen (log : LogData) : ℕ := (tag log).length + 1

def fileLen (log : LogData) : ℕ := tagLen log + (file log).length + 1

def messageLen (log : LogData) : ℕ := (messageStr log).length + 1

/-- The arguments of the three `CStr::from_bytes_with_nul_unchecked`. -/
structure Slices where
  tag : Bytes
  file : Bytes
  message : Bytes
  deriving DecidableEq

def slices (buffer : Bytes) (log : LogData) : Option Slices := do
  let tag ← slice buffer 0 (tagLen log)
  let file ← slice buffer (tagLen log) (fileLen log)
  let message ← slice buffer (fileLen log) (messageLen log)
  pure { tag, file, message }

/-! ## The call -/

/-- What a reader of C strings finds at an offset of the buffer. -/
def cString (buffer : Bytes) (offset : ℕ) : Bytes := (buffer.drop offset).takeWhile (· ≠ 0)

/-- The two calls of the NDK. -/
inductive NdkCall
  /-- `__android_log_write`. -/
  | write (priority : Priority) (tag message : Bytes)
  /-- `__android_log_write_log_message`. -/
  | writeLogMessage (priority : Priority) (tag file : Bytes) (line : UInt32) (message : Bytes)
  deriving DecidableEq

/-- `logcat_logger::do_log`: the call it makes, if any, and the buffer it leaves. -/
def doLog (api30 : Bool) (isLoggable : Priority → Bytes → Bool) (buffer : Bytes) (log : LogData) :
    Option (Option NdkCall × Bytes) := do
  let priority := Priority.ofLevel log.level
  let buffer := extend buffer log
  let _ ← slices buffer log
  let tag := cString buffer 0
  let file := cString buffer (tagLen log)
  let message := cString buffer (fileLen log)
  if api30 then
    if isLoggable priority tag then
      pure (some (.writeLogMessage priority tag file log.line message), [])
    else pure (none, buffer)
  else pure (some (.write priority tag message), [])

end LogcatLogger

end Paperlog
