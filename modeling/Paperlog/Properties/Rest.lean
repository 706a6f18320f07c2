import Paperlog.Model.Locking
import Paperlog.Properties.Termination

/-!
# Where the schedules end

A state is at rest when no thread can take a step, wake-ups for no reason apart.  At rest every
thread is blocked, and there are only three things to block on: a guard of the `RwLock`, a signal,
and the end of the program.  Guards are not among them: whoever holds one can go on, unless he is
parked in `wait_for_flush`; and where nobody holds one, a writer that waits is let in, and where no
writer waits either, so is a reader.  For this the lock must have no entry that belongs to nobody,
which is `Accounted`.

So, with sinks that only answer, a parked caller of `wait_for_flush` is the only thing that can ever
stop the logger before its work is done (`atRest_iff_done`): no order of the other operations
deadlocks.  What a sink that itself logs can do to the lock is in `SinksMayLog`.
-/

namespace Paperlog

namespace Sys

open Transition

variable {W ω Tid : Type} [DecidableEq Tid]

/-! ## The lock owes nobody anything -/

/-- Every guard that is out and every place in the waiting line belongs to the party whose program
point says so. -/
structure Accounted (s : Sys W ω Tid) : Prop where
  exact : s.lock.Exact s.role
  queued : s.lock.Queued s.role
  /-- While the flag is up, nobody is parked. -/
  flag : s.logSemaphore.mutex = true → s.logSemaphore.condVar = []

variable {s s' : Sys W ω Tid}

section

variable [FileIo W ω]

theorem flag_step {a : Action Tid}
    (h : s.logSemaphore.mutex = true → s.logSemaphore.condVar = [])
    (hstep : s.step a = some s') :
    s'.logSemaphore.mutex = true → s'.logSemaphore.condVar = [] := by
  cases step_sound hstep with
  | caller hcaller =>
      cases hcaller with
      | signal hpc => exact fun _ => rfl
      | takeSignal hpc hflag => exact nofun
      | park hpc hflag => exact fun hup => absurd (hflag.symm.trans hup) Bool.false_ne_true
      | _ => exact h
  | logThread hlog =>
      cases hlog with
      | wake hpc hflag => exact nofun
      | park hpc hflag => exact fun hup => absurd (hflag.symm.trans hup) Bool.false_ne_true
      | _ => exact h
  | spurious hparked =>
      intro hup
      show s.logSemaphore.condVar.erase _ = []
      rw [h hup]
      rfl
  | timeout hparked hpc =>
      intro hup
      show s.logSemaphore.condVar.erase _ = []
      rw [h hup]
      rfl

theorem accounted_step {a : Action Tid} (h : Accounted s) (hstep : s.step a = some s') :
    Accounted s' := by
  obtain ⟨hmove, hrole⟩ := move_step hstep
  refine ⟨?_, ?_, flag_step h.flag hstep⟩
  · rw [hrole]
    exact h.exact.move hmove
  · rw [hrole]
    exact h.queued.move hmove

theorem accounted_boot {w : W} {config : LoggerConfig} {logPath : PathBuf}
    {todo : Tid → List Call} (hboot : boot w config logPath todo = .ok s) : Accounted s := by
  obtain ⟨w', globalFile, rfl⟩ := boot_ok hboot
  have hout : ∀ p, (start w' { config, inited := true, globalFile, contextMap := [], sinks := [] }
      todo : Sys W ω Tid).role p = .out := by
    intro p
    cases p <;> rfl
  exact ⟨.free_out hout, .free_out hout, nofun⟩

end

/-! ## What a blocked thread waits for -/

/-- The ways in which a caller has no step. -/
inductive CallerBlocked (s : Sys W ω Tid) (t : Tid) : Prop
  | done (hpc : (s.callers t).pc = .idle) (htodo : (s.callers t).todo = [])
  | wantRead {ops} (hpc : (s.callers t).pc = .wantRead ops)
      (hlock : s.lock.tryRead (.caller t) = none)
  | await {call} (hpc : (s.callers t).pc = .write .await call)
      (hlock : s.lock.tryWrite (.caller t) = none)
  | parked {timed ops} (hpc : (s.callers t).pc = .waiting timed ops)
      (hparked : .caller t ∈ s.logSemaphore.condVar)

/-- The ways in which the logging thread has none. -/
inductive LogThreadBlocked (s : Sys W ω Tid) : Prop
  | wantRead {sec} (hpc : s.logThread.pc = .wantRead sec) (hlock : s.lock.tryRead .logThread = none)
  | await {sec} (hpc : s.logThread.pc = .write .await sec)
      (hlock : s.lock.tryWrite .logThread = none)
  | parked (hpc : s.logThread.pc = .waiting) (hparked : .logThread ∈ s.logSemaphore.condVar)
  | terminated {error} (hpc : s.logThread.pc = .terminated error)

variable [FileIo W ω]

theorem callerStep_eq_none_iff {t : Tid} : s.callerStep t = none ↔ CallerBlocked s t := by
  constructor
  · intro hnone
    unfold callerStep at hnone
    cases hpc : (s.callers t).pc with
    | idle =>
        rw [hpc] at hnone
        cases htodo : (s.callers t).todo with
        | nil => exact .done hpc htodo
        | cons call todo => cases call <;> simp [htodo] at hnone
    | wantRead ops =>
        rw [hpc] at hnone
        exact .wantRead hpc (Option.map_eq_none_iff.1 hnone)
    | holding ops =>
        rw [hpc] at hnone
        rcases ops with _ | ⟨op, ops⟩ <;> cases hnone
    | pushing logs ops =>
        rw [hpc] at hnone
        cases hnone
    | signalling ops =>
        rw [hpc] at hnone
        cases hnone
    | waiting timed ops =>
        by_cases hparked : .caller t ∈ s.logSemaphore.condVar
        · exact .parked hpc hparked
        · simp [hpc, hparked] at hnone
    | write phase call =>
        rw [hpc] at hnone
        cases phase with
        | request => cases hnone
        | await => exact .await hpc (Option.map_eq_none_iff.1 hnone)
        | held => cases hnone
  · intro h
    cases h with
    | done hpc htodo => simp [callerStep, hpc, htodo]
    | wantRead hpc hlock => simp [callerStep, hpc, hlock]
    | await hpc hlock => simp [callerStep, hpc, hlock]
    | parked hpc hparked => simp [callerStep, hpc, hparked]

theorem logThreadStep_eq_none_iff {result : Except LoggerError Unit} {now : DateTime} :
    s.logThreadStep result now = none ↔ LogThreadBlocked s := by
  constructor
  · intro hnone
    unfold logThreadStep at hnone
    cases hpc : s.logThread.pc with
    | wantRead sec =>
        rw [hpc] at hnone
        exact .wantRead hpc (Option.map_eq_none_iff.1 hnone)
    | reading sec =>
        rw [hpc] at hnone
        cases sec <;> cases hnone
    | write phase sec =>
        rw [hpc] at hnone
        cases phase with
        | request => cases hnone
        | await => exact .await hpc (Option.map_eq_none_iff.1 hnone)
        | held => cases hnone
    | signalFlush dying =>
        rw [hpc] at hnone
        cases dying <;> cases hnone
    | waiting =>
        by_cases hparked : .logThread ∈ s.logSemaphore.condVar
        · exact .parked hpc hparked
        · simp [hpc, hparked] at hnone
    | terminated error => exact .terminated hpc
    | _ =>
        rw [hpc] at hnone
        cases hnone
  · intro h
    cases h with
    | wantRead hpc hlock => simp [logThreadStep, hpc, hlock]
    | await hpc hlock => simp [logThreadStep, hpc, hlock]
    | parked hpc hparked => simp [logThreadStep, hpc, hparked]
    | terminated hpc => simp [logThreadStep, hpc]

theorem timeout_eq_none_iff {t : Tid} : s.step (.timeout t) = none ↔
    ∀ ops, (s.callers t).pc = .waiting true ops → .caller t ∉ s.logSemaphore.condVar := by
  by_cases hparked : .caller t ∈ s.logSemaphore.condVar
  · simp only [step, if_pos hparked]
    split
    · rename_i hpc
      simp [hpc, hparked]
    · rename_i hpc
      exact iff_of_true rfl fun ops hops => absurd hops (hpc ops)
  · simp [step, hparked]

/-! ## Nobody but a flush waiter blocks anybody -/

/-- The callers have done everything their programs say, and the logging thread sleeps with its
signal taken, or has ended. -/
structure Done (s : Sys W ω Tid) : Prop where
  callers : ∀ t, (s.callers t).pc = .idle ∧ (s.callers t).todo = []
  logThread : s.logThread.pc = .waiting ∧ .logThread ∈ s.logSemaphore.condVar ∨
    ∃ error, s.logThread.pc = .terminated error

/-- Some caller is parked in `wait_for_flush`. -/
def FlushWaiterParked (s : Sys W ω Tid) : Prop :=
  ∃ t ops, (s.callers t).pc = .waiting false ops ∧ .caller t ∈ s.logSemaphore.condVar

theorem atRest_iff_blocked : AtRest step Action.Genuine s ↔
    (∀ t, CallerBlocked s t) ∧ LogThreadBlocked s ∧
      ∀ t ops, (s.callers t).pc = .waiting true ops → .caller t ∉ s.logSemaphore.condVar := by
  constructor
  · intro hrest
    refine ⟨fun t => callerStep_eq_none_iff.1 (hrest (.caller t) trivial), ?_,
      fun t => timeout_eq_none_iff.1 (hrest (.timeout t) trivial)⟩
    exact logThreadStep_eq_none_iff.1 (hrest (.logThread (.ok ()) ⟨0, []⟩) trivial)
  · rintro ⟨hcallers, hlog, htimeouts⟩ a ha
    cases a with
    | caller t => exact callerStep_eq_none_iff.2 (hcallers t)
    | logThread result now => exact logThreadStep_eq_none_iff.2 hlog
    | spurious p => exact ha.elim
    | timeout t => exact timeout_eq_none_iff.2 (htimeouts t)

/-- What a sink would answer makes no difference to who can move. -/
theorem atRest_of_sinkOk (h : AtRest step (fun a => a.Genuine ∧ a.SinkOk) s) :
    AtRest step Action.Genuine s := by
  intro a ha
  cases a with
  | logThread result now =>
      exact logThreadStep_eq_none_iff.2 (logThreadStep_eq_none_iff.1 (h (.logThread (.ok ()) now)
        ⟨trivial, rfl⟩))
  | _ => exact h _ ⟨ha, trivial⟩

omit [FileIo W ω] in
/-- At rest nobody is inside a section, unless a flush waiter is. -/
theorem outside_of_blocked (hcallers : ∀ t, CallerBlocked s t) (hlog : LogThreadBlocked s)
    (htimeouts : ∀ t ops, (s.callers t).pc = .waiting true ops →
      .caller t ∉ s.logSemaphore.condVar)
    (hnobody : ¬ FlushWaiterParked s) (p : Party Tid) :
    s.role p ≠ .reading ∧ s.role p ≠ .writing := by
  cases p with
  | logThread =>
      cases hlog with
      | _ hpc => simp [role, hpc, LogThreadPc.role]
  | caller t =>
      cases hcallers t with
      | parked hpc hparked =>
          rename_i timed ops
          cases timed with
          | true => exact absurd hparked (htimeouts t ops hpc)
          | false => exact absurd ⟨t, ops, hpc, hparked⟩ hnobody
      | _ hpc => simp [role, hpc, CallerPc.role]

/-- **Nothing else deadlocks.** -/
theorem atRest_iff_done_of_accounted (h : Accounted s) (hnobody : ¬ FlushWaiterParked s) :
    AtRest step Action.Genuine s ↔ Done s := by
  rw [atRest_iff_blocked]
  constructor
  · rintro ⟨hcallers, hlog, htimeouts⟩
    have hout := outside_of_blocked hcallers hlog htimeouts hnobody
    have hwrite : ∀ p, s.lock.tryWrite p ≠ none := fun p hnone => by
      have hsome := h.exact.tryWrite_isSome hout p
      rw [hnone] at hsome
      cases hsome
    -- No writer waits, since it would be let in; so nobody is at the lock.
    have haway : ∀ p, s.role p = .out := by
      intro p
      cases p with
      | logThread =>
          cases hlog with
          | await hpc hlock => exact absurd hlock (hwrite _)
          | _ hpc => simp [role, hpc, LogThreadPc.role]
      | caller t =>
          cases hcallers t with
          | await hpc hlock => exact absurd hlock (hwrite _)
          | parked hpc hparked =>
              have hreading : s.role (.caller t) = .reading := by simp [role, hpc, CallerPc.role]
              exact absurd hreading (hout _).1
          | _ hpc => simp [role, hpc, CallerPc.role]
    have hread : ∀ p, s.lock.tryRead p ≠ none := fun p hnone => by
      have hsome := h.exact.tryRead_isSome h.queued haway p
      rw [hnone] at hsome
      cases hsome
    refine ⟨fun t => ?_, ?_⟩
    · cases hcallers t with
      | done hpc htodo => exact ⟨hpc, htodo⟩
      | wantRead hpc hlock => exact absurd hlock (hread _)
      | await hpc hlock => exact absurd hlock (hwrite _)
      | parked hpc hparked =>
          have hreading : s.role (.caller t) = .reading := by simp [role, hpc, CallerPc.role]
          exact absurd hreading (hout _).1
    · cases hlog with
      | wantRead hpc hlock => exact absurd hlock (hread _)
      | await hpc hlock => exact absurd hlock (hwrite _)
      | parked hpc hparked => exact .inl ⟨hpc, hparked⟩
      | terminated hpc => exact .inr ⟨_, hpc⟩
  · rintro ⟨hcallers, hlog⟩
    refine ⟨fun t => .done (hcallers t).1 (hcallers t).2, ?_, fun t ops hpc => ?_⟩
    · rcases hlog with ⟨hpc, hparked⟩ | ⟨error, hpc⟩
      · exact .parked hpc hparked
      · exact .terminated hpc
    · rw [(hcallers t).1] at hpc
      cases hpc

section Run

variable {w : W} {config : LoggerConfig} {logPath : PathBuf} {todo : Tid → List Call}
  {s₀ : Sys W ω Tid} {as : List (Action Tid)}

theorem accounted_run (hboot : boot w config logPath todo = .ok s₀)
    (hrun : run step s₀ as = some s) : Accounted s :=
  run_invariant (fun _ _ _ h hstep => accounted_step h hstep) (accounted_boot hboot) hrun

/-- **Only a flush waiter deadlocks the logger.**  In a state a run can reach, with nobody parked in
`wait_for_flush`, no thread can take a step exactly when all programs are through and the logging
thread sleeps or has ended: however the calls, the registrations and the writes interleave, and
whatever the files and the sinks answer, somebody can always go on.  The sinks make no calls of the
logger. -/
theorem atRest_iff_done (hboot : boot w config logPath todo = .ok s₀)
    (hrun : run step s₀ as = some s) (hnobody : ¬ FlushWaiterParked s) :
    AtRest step Action.Genuine s ↔ Done s :=
  atRest_iff_done_of_accounted (accounted_run hboot hrun) hnobody

/-- The thread logs its message, and the logging thread works until it parks. -/
theorem atRest_logOnce :
    ∃ s, run step (Scenario.start .default logOnce)
        (Scenario.callerSteps () 5 ++ Scenario.logThreadSteps 23) = some s ∧
      s.history.written.length = 1 ∧ AtRest step Action.Genuine s := by
  have hend : (run step (Scenario.start .default logOnce)
      (Scenario.callerSteps () 5 ++ Scenario.logThreadSteps 23)).map (fun s =>
        ((s.callers ()).pc, (s.callers ()).todo, decide (s.logThread.pc = .waiting),
          decide (.logThread ∈ s.logSemaphore.condVar), s.history.written.length)) =
      some (.idle, [], true, true, 1) := by
    decide +kernel
  obtain ⟨s, hrun, hs⟩ := Option.map_eq_some_iff.1 hend
  simp only [Prod.mk.injEq, decide_eq_true_eq] at hs
  obtain ⟨hpc, htodo, hwaiting, hparked, hwritten⟩ := hs
  have hnobody : ¬ FlushWaiterParked s := by
    rintro ⟨t, ops, hflush, -⟩
    rw [hpc] at hflush
    cases hflush
  have hiff := atRest_iff_done
    (boot_disk Scenario.disk .default Scenario.logPath logOnce) hrun hnobody
  exact ⟨s, hrun, hwritten, hiff.2 ⟨fun _ => ⟨hpc, htodo⟩, .inl ⟨hwaiting, hparked⟩⟩⟩

end Run

end Sys

end Paperlog
