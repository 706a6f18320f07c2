import Paperlog.Model.CppLogger

/-!
# Records on their way to a C++ sink (`src/ffi.rs`, `src/ffi/c_str_helper.rs`, `shared/logger.hpp`)

For a sink of another language a record is laid out as `LogDataC`, whose strings are pointers with a
length.  The constructor of the C++ `Paper::LogData` turns these into views of the same bytes.
-/

namespace Paperlog

/-! ## The layout -/

/-- `StringRef`, with as many bytes behind the pointer as its length says. -/
structure StringRef where
  ptr : CharPtr
  len : ℕ
  len_le : len ≤ (ptr.getD []).length

namespace StringRef

theorem null_len_le : 0 ≤ ((none : CharPtr).getD []).length := Nat.zero_le _

/-- `From<&str>`. -/
def ofStr (s : Str) : StringRef := ⟨some s.utf8, s.utf8.length, Nat.le_refl _⟩

/-- `From<Option<&str>>`. -/
def ofOption : Option Str → StringRef
  | some s => ⟨some s.utf8, s.utf8.length, Nat.le_refl _⟩
  | none => ⟨none, 0, null_len_le⟩

end StringRef

structure LogDataC where
  level : LogLevel
  tag : StringRef
  message : StringRef
  timestamp : ℤ
  file : StringRef
  line : UInt32
  column : UInt32
  functionName : StringRef

/-- `From<&LogData>`. -/
def LogDataC.ofLogData (data : LogData) : LogDataC :=
  { level := data.level
    tag := .ofOption data.tag
    message := .ofStr data.message
    timestamp := data.timestamp.unixSeconds
    file := .ofStr data.file
    line := data.line
    column := data.column
    functionName := .ofOption data.functionName }

/-! ## The C++ side -/

namespace Paper

/-- `Paper::LogLevel`. -/
inductive LogLevel
  | dbg
  | inf
  | wrn
  | err
  | crit
  | off
  deriving DecidableEq

/-- The enumerator of the C enumeration each of them is defined as. -/
def LogLevel.ffi : LogLevel → Paperlog.LogLevel
  | .dbg => .debug
  | .inf => .info
  | .wrn => .warn
  | .err => .error
  | .crit => .crit
  | .off => .off

/-- `(LogLevel)level`. -/
def LogLevel.ofFfi : Paperlog.LogLevel → LogLevel
  | .info => .inf
  | .warn => .wrn
  | .error => .err
  | .debug => .dbg
  | .crit => .crit
  | .off => .off

/-- `std::string_view(_0, _1)`. -/
def stringView (ref : StringRef) : StringView := ⟨ref.ptr, ref.len, ref.len_le⟩

/-- How an optional string is read. -/
def optionalView (ref : StringRef) : Option StringView :=
  if ref.ptr.isSome ∧ 0 < ref.len then some (stringView ref) else none

/-- `Paper::LogData`. -/
structure LogData where
  level : LogLevel
  tag : Option StringView
  message : StringView
  file : StringView
  line : UInt32
  column : UInt32
  functionName : Option StringView
  time : ℤ

/-- The constructor `LogData::LogData`. -/
def LogData.ofC (data : LogDataC) : LogData :=
  { level := .ofFfi data.level
    tag := optionalView data.tag
    message := stringView data.message
    file := stringView data.file
    line := data.line
    column := data.column
    functionName := optionalView data.functionName
    time := data.timestamp }

end Paper

end Paperlog
