import Paperlog.Model.LogcatLogger
import Paperlog.Model.Scenario

/-!
# The three slices of the logcat backend

`tag_len` and `file_len` are end offsets in the buffer, each counted from its beginning.
`message_len` is not: it is the length of the message alone, and is used as an end offset all the
same.  The first two slices are right for every record; the third is too short by `file_len` bytes
(`messageSlice_eq`), and where the message is not even that long its end lies before its start and
the slice panics, and `do_log` with it (`doLog_eq_none_iff`).
-/

namespace Paperlog

namespace LogcatLogger

theorem slice_of_append (before piece after : Bytes) {start stop : ℕ}
    (hstart : start = before.length) (hstop : stop = before.length + piece.length) :
    slice (before ++ piece ++ after) start stop = some piece := by
  subst hstart hstop
  have htake : (before ++ piece ++ after).take (before.length + piece.length) = before ++ piece :=
    List.take_left' List.length_append
  rw [slice, if_pos (by simp), htake, List.drop_left]

variable (log : LogData)

theorem extend_nil : extend [] log =
    [] ++ (tag log ++ [0]) ++ ((file log ++ [0]) ++ (messageStr log ++ [0])) := by
  simp [extend]

theorem length_extend : (extend [] log).length = fileLen log + messageLen log := by
  simp [extend, fileLen, tagLen, messageLen]
  omega

theorem tagLen_le_fileLen : tagLen log ≤ fileLen log := by
  unfold fileLen
  omega

theorem messageLen_le : messageLen log ≤ (extend [] log).length := by
  rw [length_extend]
  omega

/-- The first slice is the tag. -/
theorem tagSlice_eq : slice (extend [] log) 0 (tagLen log) = some (tag log ++ [0]) := by
  rw [extend_nil]
  exact slice_of_append [] _ _ rfl (by simp [tagLen])

/-- The second slice is the file. -/
theorem fileSlice_eq :
    slice (extend [] log) (tagLen log) (fileLen log) = some (file log ++ [0]) := by
  rw [extend, List.nil_append]
  exact slice_of_append _ _ _ (by simp [tagLen]) (by simp [fileLen, tagLen]; omega)

/-- The third slice, where it does not panic, is the message without its last `file_len` bytes, the
NUL among them. -/
theorem messageSlice_eq (h : fileLen log ≤ messageLen log) :
    slice (extend [] log) (fileLen log) (messageLen log) =
      some ((messageStr log ++ [0]).take (messageLen log - fileLen log)) := by
  have hbefore : ([] ++ (tag log ++ [0]) ++ (file log ++ [0])).length = fileLen log := by
    simp [fileLen, tagLen]
    omega
  rw [slice, if_pos ⟨h, messageLen_le log⟩, extend, List.drop_take, ← hbefore, List.drop_left]

/-- The slices panic exactly when the message is shorter than tag and file together with their
NULs, whatever the buffer had in it before. -/
theorem slices_eq_none_iff (buffer : Bytes) :
    slices (extend buffer log) log = none ↔ messageLen log < fileLen log := by
  have hlength : (extend buffer log).length = buffer.length + (fileLen log + messageLen log) := by
    rw [← length_extend]
    simp only [extend, List.length_append, List.length_nil]
    omega
  have htagLe := tagLen_le_fileLen log
  have htag : 0 ≤ tagLen log ∧ tagLen log ≤ (extend buffer log).length := by omega
  have hfile : tagLen log ≤ fileLen log ∧ fileLen log ≤ (extend buffer log).length := by omega
  have hmessage : messageLen log ≤ (extend buffer log).length := by omega
  rw [slices, slice, slice, slice, if_pos htag, if_pos hfile]
  simp [hmessage]

/-- **When the backend panics.**  Nothing else in `do_log` does, under either feature set. -/
theorem doLog_eq_none_iff (api30 : Bool) (isLoggable : Priority → Bytes → Bool) (buffer : Bytes) :
    doLog api30 isLoggable buffer log = none ↔ messageLen log < fileLen log := by
  rw [← slices_eq_none_iff log buffer, doLog]
  cases hslices : slices (extend buffer log) log with
  | none => simp
  | some parts =>
      simp only [Option.bind_eq_bind, Option.bind_some]
      split
      · split <;> simp
      · simp

/-- The bounds are in order, and the slices are the three strings with their NULs. -/
structure SlicesExact (log : LogData) : Prop where
  tag_le : tagLen log ≤ fileLen log
  file_le : fileLen log ≤ messageLen log
  message_le : messageLen log ≤ (extend [] log).length
  slices_eq : slices (extend [] log) log =
    some ⟨tag log ++ [0], file log ++ [0], messageStr log ++ [0]⟩

/-- **The third slice is never the message**, for no record at all. -/
theorem not_slicesExact : ¬ SlicesExact log := by
  intro h
  have hslices := h.slices_eq
  rw [slices, tagSlice_eq, fileSlice_eq, messageSlice_eq log h.file_le] at hslices
  simp only [Option.pure_def, Option.bind_eq_bind, Option.bind_some, Option.some.injEq,
    Slices.mk.injEq, true_and] at hslices
  have hlength := congrArg List.length hslices
  have hpos : 0 < tagLen log := Nat.succ_pos _
  have hle := tagLen_le_fileLen log
  simp only [List.length_take, List.length_append, List.length_singleton] at hlength
  change min _ (messageLen log) = messageLen log at hlength
  have hfile := h.file_le
  omega

end LogcatLogger

/-- A record whose tag is longer than everything the message consists of. -/
def longTag : LogData := { Scenario.log "" with tag := some "AssetBundleLoader".toList }

/-- There the slices panic; for a record with a short tag the message loses its end. -/
theorem longTag_panics :
    (¬ ∀ log, LogcatLogger.SlicesExact log) ∧
      LogcatLogger.slices (LogcatLogger.extend [] longTag) longTag = none ∧
      LogcatLogger.slices (LogcatLogger.extend [] (Scenario.tagged "hello"))
          (Scenario.tagged "hello") =
        some ⟨Str.utf8 "T".toList ++ [0], [0], Str.utf8 "[:0:0 @ ] hel".toList⟩ := by
  refine ⟨fun hall => ?_, by decide +kernel, by decide +kernel⟩
  have hfile := (hall longTag).file_le
  revert hfile
  decide +kernel

end Paperlog
