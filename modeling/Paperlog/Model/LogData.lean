import Mathlib.Data.List.Basic
import Mathlib.Data.Nat.Digits.Defs
import Mathlib.Tactic.Common

/-!
# Log levels and log records (`src/log_level.rs`, `src/logger/log_data.rs`)

A Rust `String` is a sequence of Unicode scalar values, which is what a list of Lean characters
is; `Str` is that list, and `Str.utf8` the bytes the string has in memory and on disk.

`LogData.ioPieces` and `LogData.compactPieces` are the two `writeln!` formats of the source, cut
where `write_fmt` cuts them: each literal piece and each argument reaches the writer by a call of
its own.  The order of the pieces is the order of the calls.
-/

namespace Paperlog

/-- A Rust string: Unicode scalar values in order. -/
abbrev Str := List Char

/-- Raw bytes. -/
abbrev Bytes := List UInt8

/-- The bytes of a string. -/
def Str.utf8 (s : Str) : Bytes := s.flatMap String.utf8EncodeChar

/-- `Display` of an unsigned integer. -/
def decimal (n : ℕ) : Str := Nat.toDigits 10 n

/-- `Display` of a signed integer. -/
def signedDecimal (n : ℤ) : Str := (if n < 0 then "-".toList else []) ++ decimal n.natAbs

inductive LogLevel
  | info
  | warn
  | error
  | debug
  | crit
  | off
  deriving DecidableEq, Repr

/-- `LogLevel::short`. -/
def LogLevel.short : LogLevel → Char
  | .info => 'I'
  | .warn => 'W'
  | .error => 'E'
  | .debug => 'D'
  | .crit => 'C'
  | .off => 'O'

/-- A `chrono::DateTime<Local>`, by the two things the logger reads off it: the Unix seconds and
the rendering under `%Y-%m-%d %H:%M:%S`. -/
structure DateTime where
  unixSeconds : ℤ
  calendar : Str
  deriving DecidableEq

structure LogData where
  level : LogLevel
  tag : Option Str
  message : Str
  timestamp : DateTime
  file : Str
  line : UInt32
  column : UInt32
  functionName : Option Str
  deriving DecidableEq

/-- `DEFAULT_TAG`. -/
def defaultTag : Str := "GLOBAL".toList

namespace LogData

/-- `LogData::default`, at the time `now`. -/
def default (now : DateTime) : LogData :=
  { level := .info
    tag := none
    message := []
    timestamp := now
    file := []
    line := 0
    column := 0
    functionName := none }

/-- The source position and function name, as both formats print them. -/
def locationPieces (log : LogData) : List Str :=
  [log.file, ":".toList, decimal log.line.toNat, ":".toList, decimal log.column.toNat,
    " @ ".toList, log.functionName.getD "default".toList, "] ".toList]

/-- The pieces of `write_to_io`. -/
def ioPieces (log : LogData) : List Str :=
  [[log.level.short], " ".toList, log.timestamp.calendar, " [".toList,
    log.tag.getD defaultTag, "] [".toList] ++ log.locationPieces ++ [log.message, "\n".toList]

/-- The pieces of `write_compact_to_io`: no tag, since the file belongs to one. -/
def compactPieces (log : LogData) : List Str :=
  [[log.level.short], " ".toList, log.timestamp.calendar, " [".toList] ++ log.locationPieces ++
    [log.message, "\n".toList]

/-- The line `write_to_io` adds to the global file. -/
def ioLine (log : LogData) : Bytes := log.ioPieces.flatMap Str.utf8

/-- The line `write_compact_to_io` adds to a context file. -/
def compactLine (log : LogData) : Bytes := log.compactPieces.flatMap Str.utf8

/-- A line of the global file is longer than the line of the same record in a context file. -/
theorem length_compactLine_lt (log : LogData) : log.compactLine.length < log.ioLine.length := by
  have hbracket : (Str.utf8 "] [".toList).length = 3 := by decide
  simp only [compactLine, compactPieces, ioLine, ioPieces, List.flatMap_append, List.flatMap_cons,
    List.flatMap_nil, List.length_append, List.length_nil]
  omega

end LogData

end Paperlog
