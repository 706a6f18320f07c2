import Mathlib.Algebra.BigOperators.Group.List.Basic
import Mathlib.Algebra.GroupWithZero.Nat
import Mathlib.Algebra.Order.BigOperators.Group.List
import Mathlib.Algebra.Order.Group.Nat
import Paperlog.Framework.Transition
import Paperlog.Model.SemaphoreThreads

/-!
# The semaphore as a binary semaphore, and the time a wait takes

`Binary` is what holds of a `SemaphoreLite` whatever its threads do: the flag stands for the last
signal as long as nobody has taken it, every completed wait takes one signal of its own, and while
the flag is up everybody who was parked is on the way.  `binary_step` goes by the effects a step can
have on the semaphore; which thread takes the step, and where it goes, does not matter.

The second half is about time.  `wait_timeout` hands its whole duration to every `wait_for`, so a
wake-up that finds the flag down again buys the call a fresh duration.  `waitTimeout_le_iff` says
when the call nevertheless keeps to it.
-/

namespace Paperlog

namespace SemaphoreThreads

open Transition

variable {P : Type}

/-- A binary semaphore. -/
structure Binary (s : SemaphoreThreads P) : Prop where
  /-- Never more waits complete than signals were given; a raised flag is a signal not yet taken. -/
  count : s.completions + s.sem.mutex.toNat ≤ s.signals
  /-- The flag is up exactly when the last event is a signal. -/
  latest : s.sem.mutex = true ↔ ∃ p, s.events.getLast? = some (.signal p)
  /-- Right before a completion comes a signal, so one signal releases at most one waiter. -/
  released : ∀ before p after, s.events = before ++ .completion p :: after →
    ∃ q, before.getLast? = some (.signal q)
  /-- While the flag is up nobody is parked without a wake-up. -/
  awake : s.sem.mutex = true → s.sem.condVar = []

theorem binary_start : Binary (start : SemaphoreThreads P) :=
  ⟨le_rfl, by simp [start, SemaphoreLite.new], by simp [start], fun _ => rfl⟩

variable [DecidableEq P] {s s' : SemaphoreThreads P}

omit [DecidableEq P] in
/-- A completion among the events up to `e` is `e` itself or an older one. -/
theorem released_concat {e : FlagEvent P} (h : Binary s)
    (he : ∀ p, e = .completion p → s.sem.mutex = true) : ∀ before p after,
      s.events ++ [e] = before ++ .completion p :: after →
        ∃ q, before.getLast? = some (.signal q) := by
  intro before p after heq
  rcases List.eq_nil_or_concat after with rfl | ⟨after, e', rfl⟩
  · obtain ⟨hbefore, hlast⟩ := List.append_inj' heq rfl
    rw [← hbefore]
    exact h.latest.1 (he p (List.singleton_inj.1 hlast))
  · rw [List.concat_eq_append, ← List.cons_append, ← List.append_assoc] at heq
    obtain ⟨hevents, -⟩ := List.append_inj' heq rfl
    exact h.released before p after hevents

theorem binary_step {a : SemaphoreAction P} (h : Binary s) (hstep : s.step a = some s') :
    Binary s' := by
  have hcount := h.count
  cases step_effect hstep with
  | signal p pcs =>
      refine ⟨?_, by simp [SemaphoreLite.signal], released_concat h nofun, fun _ => rfl⟩
      have hflag : s.sem.mutex.toNat ≤ 1 := Bool.toNat_le _
      simp only [completions, signals, SemaphoreLite.signal, List.countP_append,
        List.countP_singleton, FlagEvent.isSignal, Bool.toNat_true] at hcount ⊢
      simp only [Bool.not_true, Bool.false_eq_true, if_false, if_true]
      omega
  | completion p pcs hflag =>
      refine ⟨?_, by simp, released_concat h fun _ _ => hflag, nofun⟩
      simp only [completions, signals, hflag, List.countP_append, List.countP_singleton,
        FlagEvent.isSignal, Bool.toNat_true, Bool.toNat_false] at hcount ⊢
      simp only [Bool.not_false, Bool.false_eq_true, if_false, if_true]
      omega
  | park p pcs hflag =>
      refine ⟨hcount, h.latest, h.released, fun hup => ?_⟩
      rw [hflag] at hup
      cases hup
  | unpark p pcs =>
      refine ⟨hcount, h.latest, h.released, fun hup => ?_⟩
      simp [SemaphoreLite.unpark, h.awake hup]
  | move pcs => exact ⟨hcount, h.latest, h.released, h.awake⟩

/-- **A `SemaphoreLite` is a binary semaphore**, for any number of threads and any interleaving of
their calls, spurious wake-ups and time-outs. -/
theorem semaphoreLite_binary {as : List (SemaphoreAction P)} (hrun : run step start as = some s) :
    Binary s :=
  run_invariant (fun _ _ _ h hstep => binary_step h hstep) binary_start hrun

/-- Two waiters are parked, one of them with a time limit; the signal comes, the time is over, and
the other one takes the flag. -/
def race : List (SemaphoreAction (Option Bool)) :=
  [.call (some false) false, .call (some true) true, .check (some false), .check (some true),
    .signal none, .timeout (some true), .check (some false), .leave (some true)]

theorem semaphoreLite_binary_race :
    ∃ s : SemaphoreThreads (Option Bool), run step start race = some s ∧ Binary s := by
  have hsome : (run step start race).isSome := by decide
  obtain ⟨s, hrun⟩ := Option.isSome_iff_exists.1 hsome
  exact ⟨s, hrun, semaphoreLite_binary hrun⟩

end SemaphoreThreads

/-! ## The time a wait takes -/

variable {duration : ℕ}

/-- The wake-ups a call sees: those up to the first that reports a time-out or finds the flag up. -/
def seenWakeUps (flag : Bool) (wakeUps : List (WakeUp duration)) : List (WakeUp duration) :=
  match flag, wakeUps with
  | true, _ => []
  | false, [] => []
  | false, wakeUp :: rest =>
      if wakeUp.timedOut then [wakeUp] else wakeUp :: seenWakeUps wakeUp.flag rest

/-- Where one of the wake-ups is a time-out, those before it took no time; otherwise they take at
most `duration` together. -/
def InTime (wakeUps : List (WakeUp duration)) : Prop :=
  if ∃ w ∈ wakeUps, w.timedOut = true then ∀ w ∈ wakeUps.dropLast, w.elapsed = 0
  else (wakeUps.map (·.elapsed)).sum ≤ duration

theorem spent_eq (flag : Bool) (wakeUps : List (WakeUp duration)) :
    (waitTimeout flag wakeUps).1 = ((seenWakeUps flag wakeUps).map (·.elapsed)).sum := by
  induction wakeUps generalizing flag with
  | nil => cases flag <;> rfl
  | cons wakeUp rest ih =>
      cases flag with
      | true => rfl
      | false =>
          rw [waitTimeout, seenWakeUps]
          split
          · simp
          · simp [ih]

/-- A time-out ends the call. -/
theorem seenWakeUps_timedOut {flag : Bool} {wakeUps : List (WakeUp duration)}
    (h : ∃ w ∈ seenWakeUps flag wakeUps, w.timedOut = true) :
    ∃ before w, seenWakeUps flag wakeUps = before ++ [w] ∧ w.timedOut = true := by
  induction wakeUps generalizing flag with
  | nil => cases flag <;> simp [seenWakeUps] at h
  | cons wakeUp rest ih =>
      cases flag with
      | true => simp [seenWakeUps] at h
      | false =>
          rw [seenWakeUps] at h ⊢
          by_cases htime : wakeUp.timedOut = true
          · rw [if_pos htime] at h ⊢
            exact ⟨[], wakeUp, rfl, htime⟩
          · rw [if_neg htime] at h ⊢
            obtain ⟨w, hw, hout⟩ := h
            rcases List.mem_cons.1 hw with rfl | hw
            · exact absurd hout htime
            · obtain ⟨before, w', hseen, hout'⟩ := ih ⟨w, hw, hout⟩
              exact ⟨wakeUp :: before, w', by rw [hseen]; rfl, hout'⟩

/-- **When `wait_timeout` keeps to its duration.**  For every flag and every sequence of wake-ups the
call has taken at most `duration` exactly when its wake-ups are in time. -/
theorem waitTimeout_le_iff (flag : Bool) (wakeUps : List (WakeUp duration)) :
    (waitTimeout flag wakeUps).1 ≤ duration ↔ InTime (seenWakeUps flag wakeUps) := by
  rw [spent_eq, InTime]
  split
  · rename_i hout
    obtain ⟨before, w, hseen, hw⟩ := seenWakeUps_timedOut hout
    rw [hseen, List.dropLast_concat, List.map_append, List.sum_append, List.map_singleton,
      List.sum_singleton, w.elapsed_of_timedOut hw, add_le_iff_nonpos_left, Nat.le_zero,
      List.sum_eq_zero_iff]
    simp
  · exact Iff.rfl

/-- A stolen or a spurious wake-up does no harm as long as it comes at once. -/
theorem waitTimeout_le_of_atOnce {flag : Bool} {wakeUps : List (WakeUp duration)}
    (h : ∀ w ∈ (seenWakeUps flag wakeUps).dropLast, w.elapsed = 0) :
    (waitTimeout flag wakeUps).1 ≤ duration := by
  rw [spent_eq]
  rcases List.eq_nil_or_concat (seenWakeUps flag wakeUps) with hnone | ⟨before, last, hseen⟩
  · simp [hnone]
  · rw [hseen, List.concat_eq_append] at h ⊢
    rw [List.dropLast_concat] at h
    have hbefore : (before.map (·.elapsed)).sum = 0 := by
      rw [List.sum_eq_zero_iff]
      simpa using h
    rw [List.map_append, List.sum_append, hbefore, List.map_singleton, List.sum_singleton, zero_add]
    exact last.elapsed_le

/-- A call with a duration of 50: after 40 the flag is up but somebody else has taken it, and after
another 50 the call times out. -/
theorem stolenWakeUp_overruns :
    ¬ ∀ (duration : ℕ) (flag : Bool) (wakeUps : List (WakeUp duration)),
      (waitTimeout flag wakeUps).1 ≤ duration := by
  intro hall
  have hlate := hall 50 false [⟨40, false, false, by decide, by decide⟩,
    ⟨50, true, false, by decide, by decide⟩]
  revert hlate
  decide

end Paperlog
