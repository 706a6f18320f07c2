import Paperlog.Model.CString
import Paperlog.Model.Ffi

/-!
# The facades (`paper2_log/src/lib.rs`, `paper2_tracing/src/lib.rs`)

Two crates forward what an application logs through `log` or `tracing` to `paper2_queue_log_ffi`.
They turn every string into a `CString` first and answer differently where that fails:
`Paper2Logger` passes a null pointer, `PaperLayer` panics.  A panic is the error of the `Except`
here.

Both are given the global logger as it is when they are called, and answer with the call they make
on it, if any.
-/

namespace Paperlog

/-- `log::Level` and `tracing::Level`. -/
inductive Level
  | error
  | warn
  | info
  | debug
  | trace
  deriving DecidableEq

/-- Its verbosity, among the `log::LevelFilter`s. -/
def Level.verbosity : Level → ℕ
  | .error => 1
  | .warn => 2
  | .info => 3
  | .debug => 4
  | .trace => 5

/-- `log::LevelFilter`. -/
inductive LevelFilter
  | off
  | upTo (level : Level)
  deriving DecidableEq

def LevelFilter.verbosity : LevelFilter → ℕ
  | .off => 0
  | .upTo level => level.verbosity

/-- `map_level`, the same in both crates. -/
def mapLevel : Level → LogLevel
  | .error => .error
  | .warn => .warn
  | .info => .info
  | .debug => .debug
  | .trace => .debug

variable {W ω Tid : Type}

/-! ## `log` -/

/-- `log::Record`, `args` being the text it formats to. -/
structure Record where
  level : Level
  args : Str
  modulePath : Option Str
  file : Option Str
  line : Option UInt32

namespace Paper2Logger

/-- `Log::enabled`. -/
def enabled (maxLevel : LevelFilter) (level : Level) : Bool :=
  level.verbosity ≤ maxLevel.verbosity

/-- `CString::new(s).ok()`, for a string that may be absent. -/
def cString (s : Option Str) : Option CString := s.bind fun s => (CString.new s.utf8).toOption

/-- `Log::log`. -/
def log (maxLevel : LevelFilter) (logger : Option (Sys W ω Tid)) (record : Record)
    (now : DateTime) : Option Call :=
  if enabled maxLevel record.level = false then none
  else if paper2GetInited logger = false then none
  else
    let tagC := cString record.modulePath
    let messageC := cString (some record.args)
    let fileC := cString record.file
    let functionC := cString record.modulePath
    (paper2QueueLogFfi logger
      { level := mapLevel record.level
        tag := CString.ptrOrNull tagC
        message := CString.ptrOrNull messageC
        file := CString.ptrOrNull fileC
        line := (record.line.getD 0).toInt32
        column := 0
        functionName := CString.ptrOrNull functionC } now).1

end Paper2Logger

/-! ## `tracing` -/

/-- What a field of an event is recorded with.  A `Debug` value and a float are given by the text
they format to. -/
inductive FieldValue
  | debug (text : Str)
  | i64 (value : Int64)
  | u64 (value : UInt64)
  | str (value : Str)
  | bool (value : Bool)
  | f64 (text : Str)

structure EventField where
  name : Str
  value : FieldValue

structure MessageVisitor where
  parts : Str

namespace MessageVisitor

/-- The body of all the `record_*`, once the value is text. -/
def push (visitor : MessageVisitor) (name text : Str) : MessageVisitor :=
  let parts := if visitor.parts ≠ [] then visitor.parts ++ [' '] else visitor.parts
  { parts := parts ++ (name ++ "=".toList ++ text) }

def recordDebug (visitor : MessageVisitor) (name value : Str) : MessageVisitor :=
  visitor.push name value

def recordI64 (visitor : MessageVisitor) (name : Str) (value : Int64) : MessageVisitor :=
  visitor.push name (signedDecimal value.toInt)

def recordU64 (visitor : MessageVisitor) (name : Str) (value : UInt64) : MessageVisitor :=
  visitor.push name (decimal value.toNat)

def recordStr (visitor : MessageVisitor) (name value : Str) : MessageVisitor :=
  visitor.push name value

def recordBool (visitor : MessageVisitor) (name : Str) (value : Bool) : MessageVisitor :=
  visitor.push name (if value then "true".toList else "false".toList)

def recordF64 (visitor : MessageVisitor) (name value : Str) : MessageVisitor :=
  visitor.push name value

/-- The method a value is recorded by. -/
def recordField (visitor : MessageVisitor) (field : EventField) : MessageVisitor :=
  match field.value with
  | .debug value => visitor.recordDebug field.name value
  | .i64 value => visitor.recordI64 field.name value
  | .u64 value => visitor.recordU64 field.name value
  | .str value => visitor.recordStr field.name value
  | .bool value => visitor.recordBool field.name value
  | .f64 value => visitor.recordF64 field.name value

end MessageVisitor

/-- `tracing::Metadata`. -/
structure Metadata where
  level : Level
  target : Str
  file : Option Str
  line : Option UInt32

/-- `tracing::Event`, with its fields in the order they are recorded in. -/
structure Event where
  metadata : Metadata
  fields : List EventField

/-- `Event::record`. -/
def Event.record (event : Event) (visitor : MessageVisitor) : MessageVisitor :=
  event.fields.foldl MessageVisitor.recordField visitor

structure PaperLayer where
  tag : Option CString

/-- `Layer::on_event`. -/
def PaperLayer.onEvent (layer : PaperLayer) (logger : Option (Sys W ω Tid)) (event : Event)
    (now : DateTime) : Except NulError (Option Call) := do
  let metadata := event.metadata
  let visitor := event.record { parts := [] }
  let message := if visitor.parts ≠ [] then visitor.parts else metadata.target
  let file := metadata.file.getD []
  let functionName ← CString.new metadata.target.utf8
  let messageC ← CString.new message.utf8
  let fileC ← CString.new file.utf8
  pure (paper2QueueLogFfi logger
    { level := mapLevel metadata.level
      tag := CString.ptrOrNull layer.tag
      message := messageC.asPtr
      file := fileC.asPtr
      line := (metadata.line.getD 0).toInt32
      column := 0
      functionName := functionName.asPtr } now).1

end Paperlog
