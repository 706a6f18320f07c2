import Paperlog.Model.SinkData

/-!
# What a C++ sink gets to see

The two sides agree on every field, except that they do not tell the same optional strings apart:
the encoder has a null pointer for an absent one and a length of zero for an empty one, the decoder
takes either for absent.  `decoded_givesBack` states what arrives; for a record without empty
optional strings it is the record itself (`decoded_exact_iff`).
-/

namespace Paperlog

/-- A decoded record has the fields of the one that was encoded, its two optional strings being the
ones that `optional` makes of them. -/
structure GivesBack (optional : Option Str → Option Str) (log : LogData) (data : Paper.LogData) :
    Prop where
  level : data.level.ffi = log.level
  tag : data.tag.map StringView.viewed = (optional log.tag).map Str.utf8
  message : data.message.viewed = log.message.utf8
  file : data.file.viewed = log.file.utf8
  line : data.line = log.line
  column : data.column = log.column
  functionName : data.functionName.map StringView.viewed =
    (optional log.functionName).map Str.utf8
  time : data.time = log.timestamp.unixSeconds

/-- What the sink is called with. -/
def decoded (log : LogData) : Paper.LogData := .ofC (.ofLogData log)

/-- A string, unless it is empty. -/
def nonEmpty (s : Option Str) : Option Str := s.filter (· ≠ [])

/-! ## One field -/

theorem ffi_ofFfi (level : LogLevel) : (Paper.LogLevel.ofFfi level).ffi = level := by
  cases level <;> rfl

theorem viewed_ofStr (s : Str) : (Paper.stringView (.ofStr s)).viewed = s.utf8 :=
  List.take_length

theorem utf8_eq_nil_iff {s : Str} : s.utf8 = [] ↔ s = [] := by
  rw [← CStr.toStringLossy_eq_nil_iff, CStr.toStringLossy_utf8]

theorem viewed_optionalView (s : Option Str) :
    (Paper.optionalView (.ofOption s)).map StringView.viewed = (nonEmpty s).map Str.utf8 := by
  cases s with
  | none => rfl
  | some s =>
      by_cases hs : s = []
      · subst hs
        rfl
      · have hpos : 0 < s.utf8.length := List.length_pos_iff.mpr (mt utf8_eq_nil_iff.mp hs)
        have hview := viewed_ofStr s
        simp only [StringRef.ofStr] at hview
        simp [Paper.optionalView, StringRef.ofOption, nonEmpty, hs, hpos, hview]

/-! ## The record -/

/-- **What arrives at a sink**: every field of the record, an empty tag or function name as absent
like one that is. -/
theorem decoded_givesBack (log : LogData) : GivesBack nonEmpty log (decoded log) :=
  { level := ffi_ofFfi log.level
    tag := viewed_optionalView log.tag
    message := viewed_ofStr log.message
    file := viewed_ofStr log.file
    line := rfl
    column := rfl
    functionName := viewed_optionalView log.functionName
    time := rfl }

theorem utf8_injective : Function.Injective Str.utf8 :=
  Function.LeftInverse.injective CStr.toStringLossy_utf8

theorem nonEmpty_eq_self_iff {s : Option Str} : nonEmpty s = s ↔ s ≠ some [] := by
  cases s with
  | none => simp [nonEmpty]
  | some s => simp [nonEmpty, Option.filter_eq_some_iff]

/-- The optional strings are the record's own exactly when none of them is empty. -/
theorem decoded_exact_iff (log : LogData) :
    GivesBack id log (decoded log) ↔ log.tag ≠ some [] ∧ log.functionName ≠ some [] := by
  have hgives := decoded_givesBack log
  have hinj := Option.map_injective utf8_injective
  rw [← nonEmpty_eq_self_iff, ← nonEmpty_eq_self_iff]
  constructor
  · intro h
    exact ⟨hinj (hgives.tag.symm.trans h.tag), hinj (hgives.functionName.symm.trans h.functionName)⟩
  · rintro ⟨htag, hname⟩
    exact { hgives with
      tag := hgives.tag.trans (congrArg (Option.map Str.utf8) htag)
      functionName := hgives.functionName.trans (congrArg (Option.map Str.utf8) hname) }

/-- A record with the tag that a caller passes as `""`. -/
def emptyTag : LogData := { LogData.default ⟨0, []⟩ with tag := some [] }

/-- The sink is told that there is no tag. -/
theorem emptyTag_absent :
    (¬ ∀ log, GivesBack id log (decoded log)) ∧ (decoded emptyTag).tag.isNone = true := by
  refine ⟨fun hall => ?_, rfl⟩
  have htag := (hall emptyTag).tag
  cases htag

end Paperlog
