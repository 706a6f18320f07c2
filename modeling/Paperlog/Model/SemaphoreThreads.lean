import Mathlib.Data.List.Count
import Mathlib.Logic.Function.Basic
import Paperlog.Model.SemaphoreLite

/-!
# Threads on one semaphore

`SemaphoreThreads` is a `SemaphoreLite` together with arbitrarily many threads that call `signal`,
`wait` and `wait_timeout` on it, in any order and as often as they like.  A step is one critical
section of one thread, or something that happens to a parked thread: a spurious wake-up, or the end
of its time.  A thread whose `wait_for` has timed out still has to take the mutex back before it
returns, and anything may happen in between.

`events` remembers what has been done to the flag: the signals, and the waits that ended by taking
it.

`waitTimeout` is the loop of `wait_timeout` seen from inside one call, with the time it takes.
-/

namespace Paperlog

/-- Where a thread is in the methods of the semaphore. -/
inductive SemaphorePc
  /-- In none of them, or about to call `signal`. -/
  | out
  /-- In `wait` or, when `timed`, `wait_timeout`, before its first look at the flag. -/
  | entering (timed : Bool)
  /-- Inside the condvar's `wait` or `wait_for`: parked, or woken up and on the way back to the
  mutex. -/
  | waiting (timed : Bool)
  /-- `wait_for` has timed out; on the way back to the mutex, and then out. -/
  | expired
  deriving DecidableEq

/-- What has been done to the flag. -/
inductive FlagEvent (P : Type)
  | signal (p : P)
  /-- A wait of `p` ended by taking the flag. -/
  | completion (p : P)

def FlagEvent.isSignal {P : Type} : FlagEvent P → Bool
  | .signal _ => true
  | .completion _ => false

structure SemaphoreThreads (P : Type) where
  sem : SemaphoreLite P
  pcs : P → SemaphorePc
  events : List (FlagEvent P)

inductive SemaphoreAction (P : Type)
  | signal (p : P)
  /-- Calls `wait` or, when `timed`, `wait_timeout`. -/
  | call (p : P) (timed : Bool)
  /-- One pass of the wait loop. -/
  | check (p : P)
  | spurious (p : P)
  | timeout (p : P)
  /-- Returns after a time-out. -/
  | leave (p : P)

namespace SemaphoreThreads

variable {P : Type}

def start : SemaphoreThreads P := { sem := .new, pcs := fun _ => .out, events := [] }

/-- The number of signals given. -/
def signals (s : SemaphoreThreads P) : ℕ := s.events.countP (·.isSignal)

/-- The number of waits completed without timing out. -/
def completions (s : SemaphoreThreads P) : ℕ := s.events.countP (!·.isSignal)

variable [DecidableEq P]

/-- One pass of the wait loop by `p`. -/
def checkBy (s : SemaphoreThreads P) (p : P) (timed : Bool) : SemaphoreThreads P :=
  let (sem, taken) := s.sem.check p
  if taken then
    { sem, pcs := Function.update s.pcs p .out, events := s.events ++ [.completion p] }
  else { s with sem, pcs := Function.update s.pcs p (.waiting timed) }

def step (s : SemaphoreThreads P) : SemaphoreAction P → Option (SemaphoreThreads P)
  | .signal p =>
      if s.pcs p = .out then
        some { s with sem := s.sem.signal, events := s.events ++ [.signal p] }
      else none
  | .call p timed =>
      if s.pcs p = .out then some { s with pcs := Function.update s.pcs p (.entering timed) }
      else none
  | .check p =>
      match s.pcs p with
      | .entering timed => some (s.checkBy p timed)
      | .waiting timed => if p ∈ s.sem.condVar then none else some (s.checkBy p timed)
      | .out | .expired => none
  | .spurious p => if p ∈ s.sem.condVar then some { s with sem := s.sem.unpark p } else none
  | .timeout p =>
      if s.pcs p = .waiting true then
        some { s with sem := s.sem.unpark p, pcs := Function.update s.pcs p .expired }
      else none
  | .leave p =>
      if s.pcs p = .expired then some { s with pcs := Function.update s.pcs p .out } else none

/-- What one step does to the semaphore and to what is remembered of it. -/
inductive Effect (s : SemaphoreThreads P) : SemaphoreThreads P → Prop
  | signal (p pcs) : Effect s ⟨s.sem.signal, pcs, s.events ++ [.signal p]⟩
  | completion (p pcs) (hflag : s.sem.mutex = true) :
      Effect s ⟨{ s.sem with mutex := false }, pcs, s.events ++ [.completion p]⟩
  | park (p pcs) (hflag : s.sem.mutex = false) :
      Effect s ⟨{ s.sem with condVar := p :: s.sem.condVar }, pcs, s.events⟩
  | unpark (p pcs) : Effect s ⟨s.sem.unpark p, pcs, s.events⟩
  | move (pcs) : Effect s ⟨s.sem, pcs, s.events⟩

theorem effect_checkBy (s : SemaphoreThreads P) (p : P) (timed : Bool) :
    Effect s (s.checkBy p timed) := by
  cases hflag : s.sem.mutex with
  | true => simpa [checkBy, SemaphoreLite.check_of_mutex hflag] using Effect.completion p _ hflag
  | false => simpa [checkBy, SemaphoreLite.check_of_not_mutex hflag] using Effect.park p _ hflag

theorem step_effect {s s' : SemaphoreThreads P} {a : SemaphoreAction P} (h : s.step a = some s') :
    Effect s s' := by
  cases a with
  | signal p =>
      obtain ⟨-, rfl⟩ := by simpa [step] using h
      exact .signal p _
  | call p timed =>
      obtain ⟨-, rfl⟩ := by simpa [step] using h
      exact .move _
  | check p =>
      rw [step] at h
      split at h
      · exact Option.some.inj h ▸ effect_checkBy s p _
      · split at h
        · cases h
        · exact Option.some.inj h ▸ effect_checkBy s p _
      · cases h
      · cases h
  | spurious p =>
      obtain ⟨-, rfl⟩ := by simpa [step] using h
      exact .unpark p _
  | timeout p =>
      obtain ⟨-, rfl⟩ := by simpa [step] using h
      exact .unpark p _
  | leave p =>
      obtain ⟨-, rfl⟩ := by simpa [step] using h
      exact .move _

end SemaphoreThreads

/-! ## The time of one call -/

/-- One return of `cond_var.wait_for(&mut guard, duration)`: the time it took, whether it reports a
time-out, and the flag as the loop finds it. -/
structure WakeUp (duration : ℕ) where
  elapsed : ℕ
  timedOut : Bool
  flag : Bool
  elapsed_le : elapsed ≤ duration
  elapsed_of_timedOut : timedOut = true → elapsed = duration

/-- How far a call of `wait_timeout` has come when the wake-ups it has seen are used up. -/
inductive WaitStatus
  | tookFlag
  | timedOut
  | waiting
  deriving DecidableEq

/-- `wait_timeout(duration)`, from its first look at the flag on: the time spent and the outcome. -/
def waitTimeout {duration : ℕ} (flag : Bool) (wakeUps : List (WakeUp duration)) : ℕ × WaitStatus :=
  match flag, wakeUps with
  | true, _ => (0, .tookFlag)
  | false, [] => (0, .waiting)
  | false, wakeUp :: rest =>
      if wakeUp.timedOut then (wakeUp.elapsed, .timedOut)
      else
        let (spent, status) := waitTimeout wakeUp.flag rest
        (wakeUp.elapsed + spent, status)

end Paperlog
