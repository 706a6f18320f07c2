import Paperlog.Model.LoggerThreadCtx

/-!
# Writing in batches and one by one

`do_log_batch` and `do_log` are written separately: the logging thread hands over its records in
batches, the error and panic branches one at a time.  `doLogBatch_eq_each` says that it makes no
difference to the files, whatever the writers answer.  `doLogBatch_error_iff` then says what a batch
that fails has written: the records before the one that failed, and of that one whatever its own
`do_log` has.
-/

namespace Paperlog

namespace LoggerThreadCtx

variable {W ω : Type} [FileIo W ω]

/-- `file_logger::do_log` for one record after another, up to the first error. -/
def fileDoLogEach : List LogData → W × LoggerThreadCtx ω →
    EStateM.Result IoError (W × LoggerThreadCtx ω) Unit
  | [], s => .ok () s
  | log :: logs, s =>
      match fileDoLog log s with
      | .ok _ s => fileDoLogEach logs s
      | .error e s => .error e s

theorem doLogBatch_cons_apply (log : LogData) (logs : List LogData) (s : W × LoggerThreadCtx ω) :
    doLogBatch (log :: logs) s =
      match fileDoLog log s with
      | .ok _ s => doLogBatch logs s
      | .error e s => .error e s := by
  rw [doLogBatch_cons]
  simp only [bind, EStateM.bind]
  cases fileDoLog log s <;> rfl

/-- **A batch is its records, one after another**: the same answer, the same global file, the same
context files and the same world, whichever writes succeed. -/
theorem doLogBatch_eq_each (logs : List LogData) (s : W × LoggerThreadCtx ω) :
    doLogBatch logs s = fileDoLogEach logs s := by
  induction logs generalizing s with
  | nil => rfl
  | cons log logs ih =>
      rw [doLogBatch_cons_apply, fileDoLogEach]
      cases fileDoLog log s with
      | ok _ s₁ => exact ih s₁
      | error e s₁ => rfl

theorem doLogBatch_append (before after : List LogData) (s : W × LoggerThreadCtx ω) :
    doLogBatch (before ++ after) s =
      match doLogBatch before s with
      | .ok _ s => doLogBatch after s
      | .error e s => .error e s := by
  induction before generalizing s with
  | nil => rfl
  | cons log before ih =>
      rw [List.cons_append, doLogBatch_cons_apply, doLogBatch_cons_apply]
      cases fileDoLog log s with
      | ok _ s₁ => exact ih s₁
      | error e s₁ => rfl

/-- A batch fails at its first record whose `do_log` fails, with the error of that record. -/
theorem doLogBatch_error_iff {logs : List LogData} {s s' : W × LoggerThreadCtx ω} {e : IoError} :
    doLogBatch logs s = .error e s' ↔
      ∃ before log after s₁, logs = before ++ log :: after ∧ doLogBatch before s = .ok () s₁ ∧
        fileDoLog log s₁ = .error e s' := by
  constructor
  · intro h
    induction logs generalizing s with
    | nil => cases h
    | cons log logs ih =>
        rw [doLogBatch_cons_apply] at h
        cases hlog : fileDoLog log s with
        | ok _ s₁ =>
            rw [hlog] at h
            obtain ⟨before, log', after, s₂, rfl, hbefore, hlog'⟩ := ih h
            refine ⟨log :: before, log', after, s₂, rfl, ?_, hlog'⟩
            rw [doLogBatch_cons_apply, hlog]
            exact hbefore
        | error e₁ s₁ =>
            rw [hlog] at h
            exact ⟨[], log, logs, s, rfl, rfl, hlog.trans h⟩
  · rintro ⟨before, log, after, s₁, rfl, hbefore, hlog⟩
    rw [doLogBatch_append, hbefore]
    show doLogBatch (log :: after) s₁ = .error e s'
    rw [doLogBatch_cons_apply, hlog]

end LoggerThreadCtx

end Paperlog
