import Mathlib.Data.List.Basic
import Mathlib.Tactic.Common

/-!
# The boolean semaphore (`src/semaphore_lite.rs`)

`mutex` is the flag behind `Mutex<bool>`, `condVar` the threads parked in the `Condvar`.  Every
critical section of the source is one operation here: `signal` sets the flag and empties the
condvar (`notify_all`), `check` is one evaluation of the loop head `while !*guard` together with
what follows it, either the assignment `*guard = false` and the return, or the atomic
release-and-park of `cond_var.wait`.  A parked thread leaves the condvar by a `signal`, by a
spurious wake-up, or, inside `wait_timeout`, because its time is over (`unpark`).
-/

namespace Paperlog

structure SemaphoreLite (P : Type) where
  mutex : Bool
  condVar : List P

namespace SemaphoreLite

variable {P : Type}

/-- `SemaphoreLite::new`. -/
def new : SemaphoreLite P := ⟨false, []⟩

/-- `SemaphoreLite::signal`. -/
def signal (_ : SemaphoreLite P) : SemaphoreLite P := ⟨true, []⟩

/-- One pass of the wait loop by `p`, with the mutex held; the flag in the result says whether
`p` took the signal (and returns) or parked. -/
def check (s : SemaphoreLite P) (p : P) : SemaphoreLite P × Bool :=
  if s.mutex then ({ s with mutex := false }, true) else ({ s with condVar := p :: s.condVar }, false)

/-- `p` is no longer parked; the flag is not touched. -/
def unpark [DecidableEq P] (s : SemaphoreLite P) (p : P) : SemaphoreLite P :=
  { s with condVar := s.condVar.erase p }

lemma check_of_mutex {s : SemaphoreLite P} (h : s.mutex = true) (p : P) :
    s.check p = ({ s with mutex := false }, true) := by
  simp [check, h]

lemma check_of_not_mutex {s : SemaphoreLite P} (h : s.mutex = false) (p : P) :
    s.check p = ({ s with condVar := p :: s.condVar }, false) := by
  simp [check, h]

end SemaphoreLite

end Paperlog
