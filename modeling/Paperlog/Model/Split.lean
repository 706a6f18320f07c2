import Paperlog.Model.LogData

/-!
# Splitting messages into records (`split_str_into_chunks`)

Every queued entry is cut at its line ends, and every line into pieces of at most `max_str_len`
characters.  `Itertools::chunks` asserts that its size is not zero, so the split is partial:
`none` is the panic of that assertion.  `pieces` is the split without the assertion.
-/

namespace Paperlog

/-- `Itertools::chunks`, which panics on size `0`. -/
def chunks (size : ℕ) (line : Str) : Option (List Str) :=
  if size = 0 then none else some (line.toChunks size)

/-- The closure of the outer `flat_map`: the records of one queued entry. -/
def splitLog (maxStrLen : ℕ) (log : LogData) : Option (List LogData) := do
  let groups ← (log.message.splitOn '\n').mapM fun line => do
    let cs ← chunks maxStrLen line
    pure (cs.map fun chunk => { log with message := chunk })
  pure groups.flatten

/-- `split_str_into_chunks`, collected. -/
def splitStrIntoChunks (queue : List LogData) (maxStrLen : ℕ) : Option (List LogData) := do
  let groups ← queue.mapM (splitLog maxStrLen)
  pure groups.flatten

/-- The records one entry is written as. -/
def pieces (maxStrLen : ℕ) (log : LogData) : List LogData :=
  (log.message.splitOn '\n').flatMap fun line =>
    (line.toChunks maxStrLen).map fun chunk => { log with message := chunk }

lemma splitLog_of_ne_zero {maxStrLen : ℕ} (h : maxStrLen ≠ 0) (log : LogData) :
    splitLog maxStrLen log = some (pieces maxStrLen log) := by
  have hline : ∀ line : Str, (do
      let cs ← chunks maxStrLen line
      pure (cs.map fun chunk => { log with message := chunk }) : Option (List LogData)) =
      some ((line.toChunks maxStrLen).map fun chunk => { log with message := chunk }) := by
    intro line
    simp [chunks, h]
  simp only [splitLog, hline, ← Option.pure_def, List.mapM_pure]
  simp [pieces, List.flatMap]

/-- With a nonzero limit the split succeeds, entry by entry. -/
lemma splitStrIntoChunks_of_ne_zero {maxStrLen : ℕ} (h : maxStrLen ≠ 0) (queue : List LogData) :
    splitStrIntoChunks queue maxStrLen = some (queue.flatMap (pieces maxStrLen)) := by
  have hlog : splitLog maxStrLen = fun log => some (pieces maxStrLen log) :=
    funext (splitLog_of_ne_zero h)
  simp only [splitStrIntoChunks, hlog, ← Option.pure_def, List.mapM_pure]
  simp [List.flatMap]

lemma splitLog_zero (log : LogData) : splitLog 0 log = none := by
  cases hl : log.message.splitOn '\n' with
  | nil => exact absurd hl (by simp)
  | cons line lines => simp [splitLog, hl, chunks, List.mapM_cons]

/-- **The panic.**  With limit zero every nonempty batch fails the assertion: even an empty
message has one line, and the assertion comes before the line is looked at. -/
lemma splitStrIntoChunks_zero {queue : List LogData} (h : queue ≠ []) :
    splitStrIntoChunks queue 0 = none := by
  cases queue with
  | nil => exact absurd rfl h
  | cons log queue => simp [splitStrIntoChunks, splitLog_zero, List.mapM_cons]

/-- Nothing else makes it fail. -/
lemma splitStrIntoChunks_eq_none {queue : List LogData} {maxStrLen : ℕ} :
    splitStrIntoChunks queue maxStrLen = none ↔ queue ≠ [] ∧ maxStrLen = 0 := by
  by_cases hmax : maxStrLen = 0
  · subst hmax
    by_cases hqueue : queue = []
    · subst hqueue
      simp [splitStrIntoChunks]
    · simp [hqueue, splitStrIntoChunks_zero]
  · simp [hmax, splitStrIntoChunks_of_ne_zero]

/-- When the split succeeds, it gives the pieces of the entries in queue order. -/
lemma eq_flatMap_pieces_of_split {queue logs : List LogData} {maxStrLen : ℕ}
    (h : splitStrIntoChunks queue maxStrLen = some logs) :
    logs = queue.flatMap (pieces maxStrLen) := by
  by_cases hz : maxStrLen = 0
  · subst hz
    cases queue with
    | nil =>
        simp only [splitStrIntoChunks, List.mapM_nil] at h
        cases h
        rfl
    | cons log queue =>
        rw [splitStrIntoChunks_zero (List.cons_ne_nil log queue)] at h
        cases h
  · rw [splitStrIntoChunks_of_ne_zero hz, Option.some.injEq] at h
    exact h.symm

end Paperlog
