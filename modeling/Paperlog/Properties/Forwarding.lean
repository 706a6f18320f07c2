import Paperlog.Model.Facades
import Paperlog.Model.Scenario

/-!
# What the facades forward

A string with U+0000 in it has no `CString`.  In `Paper2Logger` the record is then lost, when the
message or the file is concerned, or reaches the logger without tag and function name, when the
module path is; a record without a file is lost as well, since the null pointer it is given by is
the one argument `paper2_queue_log_ffi` refuses besides a null message (`log_carries_iff`).  In
`PaperLayer`, which has the empty string for an absent file, such a string panics
(`onEvent_carries_iff`).
-/

namespace Paperlog

variable {W ω Tid : Type}

theorem toUInt32_toInt32 (line : UInt32) : line.toInt32.toUInt32 = line := rfl

theorem paper2QueueLogFfi_inj {log log' : LogData}
    (h : Call.paper2QueueLogFfi log = .paper2QueueLogFfi log') : log = log' := by
  injection h with hops
  injection hops with hop
  injection hop with hlogs
  exact List.singleton_inj.mp hlogs

/-- A computation that gives a result has got past its first step. -/
theorem ok_of_bind {ε α β : Type} {x : Except ε α} {next : α → Except ε β} {b : β}
    (h : x >>= next = .ok b) : ∃ a, x = .ok a ∧ next a = .ok b := by
  cases x with
  | error e => cases h
  | ok a => exact ⟨a, rfl, h⟩

/-! ## `log` -/

namespace Paper2Logger

/-- A queued record is the one the facade was given. -/
structure Carries (record : Record) (log : LogData) : Prop where
  message : log.message = record.args
  tag : log.tag = record.modulePath
  functionName : log.functionName = record.modulePath
  file : log.file = record.file.getD []
  line : log.line = record.line.getD 0

/-- The pointer a string is passed by. -/
theorem ptrOrNull_cString (s : Option Str) :
    CString.ptrOrNull (cString s) = (s.filter (·.NulFree)).map Str.utf8 := by
  cases s with
  | none => rfl
  | some s =>
      by_cases hs : s.NulFree
      · have hnew := CString.new_of_nulFree hs
        rw [Option.filter_some_pos (by simpa using hs)]
        simp [cString, hnew, Except.toOption, CString.ptrOrNull, CString.asPtr, CString.ofStr]
      · have hnew := CString.new_of_not_nulFree hs
        rw [Option.filter_some_neg (by simpa using hs)]
        simp [cString, hnew, Except.toOption, CString.ptrOrNull]

theorem lossy_filter (s : Option Str) :
    ((s.filter (·.NulFree)).map Str.utf8).map CStr.toStringLossy = s.filter (·.NulFree) := by
  have hlossy : CStr.toStringLossy ∘ Str.utf8 = id := funext CStr.toStringLossy_utf8
  rw [Option.map_map, hlossy, Option.map_id_fun, id]

/-- A string that may be absent is kept exactly if it has no NUL. -/
theorem filter_nulFree_iff {s : Option Str} :
    s.filter (·.NulFree) = s ↔ ∀ t, s = some t → t.NulFree := by
  cases s with
  | none => simp
  | some s => simp

variable {maxLevel : LevelFilter} {logger : Option (Sys W ω Tid)} {record : Record}

/-- The record that is queued, if the strings it needs have no NUL. -/
theorem log_eq (henabled : enabled maxLevel record.level = true)
    (hinited : paper2GetInited logger = true) (now : DateTime) :
    log maxLevel logger record now =
      ((some record.args).filter (·.NulFree)).bind fun message =>
        (record.file.filter (·.NulFree)).map fun file =>
          .paper2QueueLogFfi
            { LogData.default now with
              level := mapLevel record.level
              tag := record.modulePath.filter (·.NulFree)
              message
              file
              line := record.line.getD 0
              functionName := record.modulePath.filter (·.NulFree) } := by
  obtain ⟨s, rfl⟩ : ∃ s, logger = some s := by
    cases logger with
    | none => cases hinited
    | some s => exact ⟨s, rfl⟩
  simp only [log, henabled, hinited, Bool.true_eq_false, if_false, ptrOrNull_cString]
  cases hmessage : (some record.args).filter (·.NulFree) with
  | none => rfl
  | some message =>
      cases hfile : record.file.filter (·.NulFree) with
      | none => rfl
      | some file =>
          simp only [paper2QueueLogFfi, Option.map_some, Option.bind_some, lossy_filter,
            CStr.toStringLossy_utf8, toUInt32_toInt32]
          rfl

/-- **What the facade forwards.**  An enabled record reaches an initialised logger as it is exactly
when it has a file, and neither the file nor the message nor the module path has a NUL. -/
theorem log_carries_iff (henabled : enabled maxLevel record.level = true)
    (hinited : paper2GetInited logger = true) (now : DateTime) :
    (∃ data, log maxLevel logger record now = some (.paper2QueueLogFfi data) ∧
        Carries record data) ↔
      record.args.NulFree ∧ (∃ file, record.file = some file ∧ file.NulFree) ∧
        ∀ path, record.modulePath = some path → path.NulFree := by
  rw [log_eq henabled hinited now]
  constructor
  · rintro ⟨data, hdata, hcarries⟩
    obtain ⟨message, hmessage, hdata⟩ := Option.bind_eq_some_iff.mp hdata
    obtain ⟨file, hfile, hdata⟩ := Option.map_eq_some_iff.mp hdata
    obtain ⟨hmessage, hmessageFree⟩ := Option.filter_eq_some_iff.mp hmessage
    obtain ⟨hfile, hfileFree⟩ := Option.filter_eq_some_iff.mp hfile
    obtain rfl := Option.some.inj hmessage
    refine ⟨by simpa using hmessageFree, ⟨file, hfile, by simpa using hfileFree⟩, ?_⟩
    have htag := hcarries.tag
    rw [← paper2QueueLogFfi_inj hdata] at htag
    exact filter_nulFree_iff.mp htag
  · rintro ⟨hargs, ⟨file, hfile, hfileFree⟩, hpath⟩
    have hpathFree := filter_nulFree_iff.mpr hpath
    have hmessage : (some record.args).filter (·.NulFree) = some record.args :=
      Option.filter_some_pos (by simpa using hargs)
    have hfile' : record.file.filter (·.NulFree) = some file := by
      rw [hfile, Option.filter_some_pos (by simpa using hfileFree)]
    rw [hmessage, hfile', hpathFree]
    exact ⟨_, rfl, ⟨rfl, rfl, rfl, by rw [hfile]; rfl, rfl⟩⟩

/-- The logger the examples are forwarded to. -/
def running : Sys (Disk Scenario.resolve) BufWriter Unit := Scenario.start .default fun _ => []

/-- A record of the module `app`. -/
def hello (file : Option Str) : Record :=
  { level := .info
    args := "hello".toList
    modulePath := some "app".toList
    file
    line := some 7 }

theorem log_carries_iff_hello :
    (∃ data, log (.upTo .info) (some running) (hello (some "app.rs".toList)) Scenario.time =
          some (.paper2QueueLogFfi data) ∧ Carries (hello (some "app.rs".toList)) data) ↔
      (hello (some "app.rs".toList)).args.NulFree ∧
        (∃ file, (hello (some "app.rs".toList)).file = some file ∧ file.NulFree) ∧
        ∀ path, (hello (some "app.rs".toList)).modulePath = some path → path.NulFree :=
  log_carries_iff rfl rfl Scenario.time

/-- **A record without a file is lost**, and so is one whose message has a NUL. -/
theorem noFile_lost :
    (¬ ∀ record : Record, enabled (.upTo .info) record.level = true →
        ∃ data, log (.upTo .info) (some running) record Scenario.time =
          some (.paper2QueueLogFfi data) ∧ Carries record data) ∧
      log (.upTo .info) (some running) (hello none) Scenario.time = none ∧
      log (.upTo .info) (some running)
        { hello (some "app.rs".toList) with args := ['a', Char.ofNat 0, 'b'] } Scenario.time =
          none := by
  have hlost : log (.upTo .info) (some running) (hello none) Scenario.time = none := by
    rw [log_eq rfl rfl]
    rfl
  refine ⟨fun hall => ?_, hlost, ?_⟩
  · obtain ⟨data, hdata, -⟩ := hall (hello none) rfl
    rw [hlost] at hdata
    cases hdata
  · rw [log_eq rfl rfl]
    rfl

end Paper2Logger

/-! ## `tracing` -/

/-- The value of a field as text. -/
def FieldValue.text : FieldValue → Str
  | .debug text => text
  | .i64 value => signedDecimal value.toInt
  | .u64 value => decimal value.toNat
  | .str value => value
  | .bool value => if value then "true".toList else "false".toList
  | .f64 text => text

/-- `name=value`. -/
def EventField.rendered (field : EventField) : Str := field.name ++ "=".toList ++ field.value.text

/-- The text of an event: its fields in order, or the target when it has none. -/
def Event.text (event : Event) : Str :=
  if event.fields = [] then event.metadata.target
  else [' '].intercalate (event.fields.map EventField.rendered)

namespace MessageVisitor

theorem recordField_eq (visitor : MessageVisitor) (field : EventField) :
    visitor.recordField field = visitor.push field.name field.value.text := by
  unfold recordField
  cases field.value <;> rfl

theorem rendered_ne_nil (field : EventField) : field.rendered ≠ [] := by
  simp [EventField.rendered]

/-- Recording the rest of the fields, the text so far being one more part. -/
theorem parts_foldl (fields : List EventField) {parts : Str} (hparts : parts ≠ []) :
    (fields.foldl recordField { parts }).parts =
      [' '].intercalate (parts :: fields.map EventField.rendered) := by
  induction fields generalizing parts with
  | nil => simp
  | cons field fields ih =>
      have hpush : recordField { parts } field = { parts := parts ++ ' ' :: field.rendered } := by
        simp [recordField_eq, push, hparts, EventField.rendered]
      rw [List.foldl_cons, hpush, ih (by simp), List.map_cons, List.intercalate_cons_cons]
      cases fields with
      | nil => simp
      | cons field' fields => simp [List.intercalate_cons_cons]

end MessageVisitor

/-- **The message is the text of the event.** -/
theorem message_eq_text (event : Event) :
    (if (event.record { parts := [] }).parts ≠ [] then (event.record { parts := [] }).parts
      else event.metadata.target) = event.text := by
  cases hfields : event.fields with
  | nil => simp [Event.record, Event.text, hfields]
  | cons field fields =>
      have hfirst : MessageVisitor.recordField { parts := [] } field =
          { parts := field.rendered } := by
        simp [MessageVisitor.recordField_eq, MessageVisitor.push, EventField.rendered]
      have hparts : (event.record { parts := [] }).parts = event.text := by
        rw [Event.record, hfields, List.foldl_cons, hfirst,
          MessageVisitor.parts_foldl fields (MessageVisitor.rendered_ne_nil field)]
        simp [Event.text, hfields]
      have hne : event.text ≠ [] := by
        have hfield := MessageVisitor.rendered_ne_nil field
        cases fields with
        | nil => simp [Event.text, hfields, hfield]
        | cons field' fields => simp [Event.text, hfields, List.intercalate_cons_cons]
      rw [hparts, if_pos hne]

theorem nulFree_intercalate (parts : List Str) :
    Str.NulFree ([' '].intercalate parts) ↔ ∀ part ∈ parts, part.NulFree := by
  have hspace : Str.NulFree [' '] := by decide
  induction parts with
  | nil => simp [Str.NulFree]
  | cons part parts ih =>
      cases parts with
      | nil => simp
      | cons part' parts =>
          simp only [List.intercalate_cons_cons, nulFree_append, ih, hspace, and_true,
            List.forall_mem_cons]

/-- The text of an event has no NUL, if its target has none, exactly when no field has one. -/
theorem nulFree_text_iff {event : Event} (htarget : event.metadata.target.NulFree) :
    event.text.NulFree ↔ ∀ field ∈ event.fields, field.rendered.NulFree := by
  by_cases hfields : event.fields = []
  · simp [Event.text, hfields, htarget]
  · rw [Event.text, if_neg hfields, nulFree_intercalate]
    simp

/-- Text that is not the value's own: numbers and truth values have no NUL. -/
theorem nulFree_text_of_scalar (value : FieldValue)
    (hscalar : ∀ s, value ≠ .debug s ∧ value ≠ .str s ∧ value ≠ .f64 s) : value.text.NulFree := by
  have hdecimal : ∀ n, Str.NulFree (decimal n) := fun n hmem =>
    absurd (Nat.isDigit_of_mem_toDigits (by omega) (by omega) hmem) (by decide)
  cases value with
  | debug s => exact absurd rfl (hscalar s).1
  | i64 n =>
      rw [FieldValue.text, signedDecimal, nulFree_append]
      refine ⟨?_, hdecimal _⟩
      split <;> decide
  | u64 n => exact hdecimal _
  | str s => exact absurd rfl (hscalar s).2.1
  | bool b => cases b <;> decide
  | f64 s => exact absurd rfl (hscalar s).2.2

namespace PaperLayer

/-- A queued record is the event the layer was given. -/
structure Carries (event : Event) (log : LogData) : Prop where
  message : log.message = event.text
  file : log.file = event.metadata.file.getD []
  line : log.line = event.metadata.line.getD 0

/-- No string that the layer makes a `CString` of has a NUL. -/
structure NulFree (event : Event) : Prop where
  target : event.metadata.target.NulFree
  file : ∀ file, event.metadata.file = some file → file.NulFree
  fields : ∀ field ∈ event.fields, field.rendered.NulFree

variable (layer : PaperLayer) (logger : Sys W ω Tid) (event : Event) (now : DateTime)

theorem onEvent_of_nulFree (h : NulFree event) :
    layer.onEvent (some logger) event now = .ok (some (.paper2QueueLogFfi
      { LogData.default now with
        level := mapLevel event.metadata.level
        tag := (CString.ptrOrNull layer.tag).map CStr.toStringLossy
        message := event.text
        file := event.metadata.file.getD []
        line := event.metadata.line.getD 0
        functionName := some event.metadata.target })) := by
  have htext := (nulFree_text_iff h.target).mpr h.fields
  have hfile : (event.metadata.file.getD []).NulFree := by
    cases hsome : event.metadata.file with
    | none => simp [Str.NulFree]
    | some file => exact h.file file hsome
  simp only [onEvent, message_eq_text, CString.new_of_nulFree h.target,
    CString.new_of_nulFree htext, CString.new_of_nulFree hfile]
  simp only [bind, Except.bind, pure, Except.pure, paper2QueueLogFfi, CString.asPtr,
    Option.map_some, CString.toStringLossy_ofStr, toUInt32_toInt32]
  rfl

/-- **When the layer panics.** -/
theorem onEvent_isOk_iff :
    (∃ call, layer.onEvent (some logger) event now = .ok call) ↔ NulFree event := by
  constructor
  · rintro ⟨call, hcall⟩
    rw [onEvent, message_eq_text] at hcall
    obtain ⟨functionName, hname, hcall⟩ := ok_of_bind hcall
    obtain ⟨messageC, hmessage, hcall⟩ := ok_of_bind hcall
    obtain ⟨fileC, hfile, hcall⟩ := ok_of_bind hcall
    have htarget := CString.nulFree_of_new_ok hname
    have htext := CString.nulFree_of_new_ok hmessage
    refine ⟨htarget, fun file hsome => ?_, (nulFree_text_iff htarget).mp htext⟩
    rw [hsome] at hfile
    exact CString.nulFree_of_new_ok hfile
  · intro h
    exact ⟨_, onEvent_of_nulFree layer logger event now h⟩

/-- **What the layer forwards.**  An event reaches a logger that is set exactly when neither its
target nor its file nor one of its fields has a NUL; for every other event the layer panics. -/
theorem onEvent_carries_iff :
    (∃ data, layer.onEvent (some logger) event now = .ok (some (.paper2QueueLogFfi data)) ∧
        Carries event data) ↔ NulFree event := by
  constructor
  · rintro ⟨data, hdata, -⟩
    exact (onEvent_isOk_iff layer logger event now).mp ⟨_, hdata⟩
  · intro h
    exact ⟨_, onEvent_of_nulFree layer logger event now h, ⟨rfl, rfl, rfl⟩⟩

/-- An event with one field. -/
def userEvent (value : Str) : Event :=
  { metadata := { level := .info, target := "app".toList, file := none, line := some 7 }
    fields := [⟨"user".toList, .str value⟩] }

/-- **A field that ends in a NUL takes the program down.** -/
theorem userEvent_panics :
    (¬ ∀ event : Event, ∃ data,
        onEvent ⟨none⟩ (some Paper2Logger.running) event Scenario.time =
          .ok (some (.paper2QueueLogFfi data)) ∧ Carries event data) ∧
      onEvent ⟨none⟩ (some Paper2Logger.running) (userEvent ['a', Char.ofNat 0]) Scenario.time =
        .error ⟨6, Str.utf8 ("user=a".toList ++ [Char.ofNat 0])⟩ := by
  have hpanic : onEvent ⟨none⟩ (some Paper2Logger.running) (userEvent ['a', Char.ofNat 0])
      Scenario.time = .error ⟨6, Str.utf8 ("user=a".toList ++ [Char.ofNat 0])⟩ := rfl
  refine ⟨fun hall => ?_, hpanic⟩
  obtain ⟨data, hdata, -⟩ := hall (userEvent ['a', Char.ofNat 0])
  rw [hpanic] at hdata
  cases hdata

end PaperLayer

end Paperlog
