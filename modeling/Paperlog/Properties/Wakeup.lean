import Paperlog.Model.Frames
import Paperlog.Model.Scenario

/-!
# Wake-ups on the queue semaphore

The queue and its semaphore are locked separately: a producer pushes first and signals afterwards,
and the logging thread finds the queue empty before it goes to wait.  Between these steps the queue
may be nonempty while the thread is already waiting; what must not happen is that it stays so.
`Awake inside` is the invariant that excludes it: whenever the logging thread is inside `wait` and
the queue is not empty, the flag is up or some caller is still inside `queue_log`, at a point of
`inside`.

Every step keeps it but one (`awake_step`): `wait_for_flush` waits on the *queue* semaphore, so its
caller can take a signal that was meant for the logging thread.  `stranded_iff` says that this is
the only way to strand an entry.
-/

namespace Paperlog

/-- Between the entry into `queue_log` and the end of its `signal`. -/
def CallerPc.InQueueLog : CallerPc → Prop
  | .pushing _ _ | .signalling _ => True
  | _ => False

instance : DecidablePred CallerPc.InQueueLog := fun pc => by
  cases pc <;> unfold CallerPc.InQueueLog <;> infer_instance

/-- Between the push and the end of the signal. -/
def CallerPc.BeforeSignal : CallerPc → Prop
  | .signalling _ => True
  | _ => False

namespace Sys

variable {W ω Tid : Type}

/-- The logging thread is inside `wait` and the flag is down. -/
def Blocked (s : Sys W ω Tid) : Prop :=
  s.logThread.pc = .waiting ∧ s.logSemaphore.mutex = false

/-- There is something to write, the logging thread is blocked, and nobody is about to wake it. -/
def Stranded (s : Sys W ω Tid) : Prop :=
  s.Blocked ∧ s.queue ≠ [] ∧ ∀ t, ¬ (s.callers t).pc.InQueueLog

/-- A waiting logging thread with a nonempty queue has a wake-up coming, from the flag or from a
caller at a program point in `inside`. -/
def Awake (inside : CallerPc → Prop) (s : Sys W ω Tid) : Prop :=
  s.logThread.pc = .waiting → s.queue ≠ [] →
    s.logSemaphore.mutex = true ∨ ∃ t, inside (s.callers t).pc

/-- In this step a caller of `wait_for_flush` or `wait_for_flush_timeout` takes the flag. -/
def TakesFlag (s : Sys W ω Tid) (a : Action Tid) : Prop :=
  ∃ t timed ops, a = .caller t ∧ (s.callers t).pc = .waiting timed ops ∧
    s.logSemaphore.mutex = true

/-- A flag that the waiting logging thread needs is taken from it only while somebody is inside
`queue_log` and will raise it again. -/
def SparesWakeup (s : Sys W ω Tid) (a : Action Tid) : Prop :=
  TakesFlag s a → s.logThread.pc = .waiting → s.queue ≠ [] →
    ∃ t, (s.callers t).pc.InQueueLog

section Step

variable [DecidableEq Tid] [FileIo W ω] {s s' : Sys W ω Tid} {inside : CallerPc → Prop}

theorem awake_callerStep {t : Tid} (hsignalling : ∀ ops, inside (.signalling ops))
    (hinside : ∀ pc, inside pc → pc.InQueueLog) (h : Awake inside s)
    (htake : TakesFlag s (.caller t) → s.logThread.pc = .waiting → s.queue ≠ [] →
      ∃ u, inside (s.callers u).pc)
    (hstep : CallerStep s t s') : Awake inside s' := by
  have hframe := hstep.frame
  -- Somebody inside `queue_log` other than the caller that moves is still there afterwards.
  have stays : ¬ (s.callers t).pc.InQueueLog → (∃ u, inside (s.callers u).pc) →
      ∃ u, inside (s'.callers u).pc := by
    rintro hout ⟨u, hu⟩
    have hne : u ≠ t := by
      intro heq
      subst heq
      exact hout (hinside _ hu)
    exact ⟨u, by rwa [hframe.others u hne]⟩
  -- Most steps touch neither the queue nor the flag and are taken outside `queue_log`.
  have keep : s'.logSemaphore.mutex = s.logSemaphore.mutex → s'.queue = s.queue →
      ¬ (s.callers t).pc.InQueueLog → Awake inside s' := by
    intro hmutex hqueue hout hpc hne
    rw [hframe.logThread] at hpc
    rw [hqueue] at hne
    rw [hmutex]
    exact (h hpc hne).imp_right (stays hout)
  cases hstep with
  | push hpc =>
      intro _ _
      exact .inr ⟨t, by simpa using hsignalling _⟩
  | signal hpc =>
      intro _ _
      exact .inl rfl
  | takeSignal hpc hflag =>
      intro hwaiting hne
      refine .inr (stays (by rw [hpc]; exact id) ?_)
      exact htake ⟨t, _, _, rfl, hpc, hflag⟩ hwaiting hne
  | _ hpc => exact keep rfl rfl (by rw [hpc]; exact id)

theorem awake_logThreadStep {result : Except LoggerError Unit} {now : DateTime}
    (h : Awake inside s) (hstep : LogThreadStep s result now s') : Awake inside s' := by
  cases hstep with
  | take hpc =>
      intro hpc'
      simp only [takeQueue] at hpc'
      split at hpc' <;> cases hpc'
  | sinksDone hpc hi =>
      rename_i i log rest
      intro hpc'
      rcases rest with _ | ⟨log', rest⟩ <;> cases hpc'
  | batch hpc hio =>
      rename_i queue logs world ctx
      intro hpc'
      rcases logs with _ | ⟨log, logs⟩ <;> cases hpc'
  | sleep hpc hqueue => exact fun _ hne => absurd hqueue hne
  | park hpc hflag => exact h
  | _ =>
      intro hpc'
      cases hpc'

/-- **The one step that endangers a wake-up.**  Unless a waiter takes the flag, a wake-up that was
coming is still coming. -/
theorem awake_step {a : Action Tid} (hsignalling : ∀ ops, inside (.signalling ops))
    (hinside : ∀ pc, inside pc → pc.InQueueLog) (h : Awake inside s)
    (htake : TakesFlag s a → s.logThread.pc = .waiting → s.queue ≠ [] →
      ∃ u, inside (s.callers u).pc)
    (hstep : s.step a = some s') : Awake inside s' := by
  cases step_sound hstep with
  | caller hcaller => exact awake_callerStep hsignalling hinside h htake hcaller
  | logThread hlog => exact awake_logThreadStep h hlog
  | spurious hparked => exact h
  | timeout hparked hpc =>
      rename_i t ops
      intro hwaiting hne
      apply (h hwaiting hne).imp_right
      rintro ⟨u, hu⟩
      have hut : u ≠ t := by
        intro heq
        subst heq
        have hin := hinside _ hu
        rw [hpc] at hin
        exact hin
      exact ⟨u, by rwa [goCaller_callers_of_ne _ _ _ hut]⟩

omit [DecidableEq Tid] [FileIo W ω] in
theorem not_stranded_of_awake (h : Awake CallerPc.InQueueLog s) : ¬ Stranded s := by
  rintro ⟨⟨hpc, hflag⟩, hqueue, hnobody⟩
  rcases h hpc hqueue with hup | ⟨t, ht⟩
  · rw [hflag] at hup
    cases hup
  · exact hnobody t ht

/-- A theft strands at once. -/
theorem stranded_of_theft {a : Action Tid} (h : ¬ SparesWakeup s a) (hstep : s.step a = some s') :
    Stranded s' := by
  simp only [SparesWakeup, Classical.not_imp, not_exists] at h
  obtain ⟨⟨t, timed, ops, rfl, hpc, hflag⟩, hwaiting, hqueue, hnobody⟩ := h
  have hout : ∀ r : Sys W ω Tid, r.callers = s.callers →
      ∀ u, ¬ ((r.goCaller t (.holding ops)).callers u).pc.InQueueLog := by
    intro r hr u
    by_cases hu : u = t
    · subst hu
      rw [goCaller_callers_self]
      exact id
    · rw [goCaller_callers_of_ne _ _ _ hu, hr]
      exact hnobody u
  cases callerStep_sound hstep with
  | takeSignal hpc' _ =>
      rw [hpc] at hpc'
      cases hpc'
      exact ⟨⟨hwaiting, rfl⟩, hqueue, hout _ rfl⟩
  | park hpc' hdown =>
      rw [hflag] at hdown
      cases hdown
  | _ hpc' =>
      rw [hpc] at hpc'
      cases hpc'

end Step

section Run

open Transition

variable [DecidableEq Tid] [FileIo W ω] {w : W} {config : LoggerConfig} {logPath : PathBuf}
  {todo : Tid → List Call} {s₀ s : Sys W ω Tid} {as : List (Action Tid)}

omit [DecidableEq Tid] in
theorem awake_boot (inside : CallerPc → Prop) (hboot : boot w config logPath todo = .ok s₀) :
    Awake inside s₀ := by
  obtain ⟨w', globalFile, rfl⟩ := boot_ok hboot
  intro hpc
  cases hpc

/-- **When a flush waiter strands an entry.**  A run never meets a stranded state exactly when none
of its steps takes the flag from a waiting logging thread with a nonempty queue while nobody is
inside `queue_log`. -/
theorem stranded_iff (hboot : boot w config logPath todo = .ok s₀) (hrun : run step s₀ as = some s) :
    Always step (fun r => ¬ Stranded r) s₀ as ↔ StepsMeet step SparesWakeup s₀ as :=
  always_iff_stepsMeet (fun _ => not_stranded_of_awake)
    (fun _ _ _ h hspares hstep => awake_step (fun _ => trivial) (fun _ => id) h hspares hstep)
    (fun _ _ _ _ htheft hstep hsafe => hsafe (stranded_of_theft htheft hstep))
    (awake_boot _ hboot) hrun

/-- One thread logs, another waits for the flush. -/
def logAndWait : Bool → List Call
  | false => [.read [.queueLog (Scenario.log "a")]]
  | true => [.read [.waitForFlush]]

/-- The logging thread goes to sleep, the waiter arrives, an entry is queued and signalled; the
waiter wakes up first and takes the signal, and the logging thread parks again. -/
def theft : List (Action Bool) :=
  Scenario.logThreadSteps 8 ++ Scenario.callerSteps true 3 ++ Scenario.callerSteps false 5 ++
    Scenario.callerSteps true 2 ++ Scenario.logThreadSteps 1

/-- The logging thread has been woken, and before it looks at the flag the waiter arrives. -/
def lateTheft : List (Action Bool) :=
  Scenario.logThreadSteps 8 ++ Scenario.callerSteps false 5 ++ Scenario.callerSteps true 3 ++
    Scenario.logThreadSteps 1

/-- The schedule ends with an entry in the queue and the logging thread parked. -/
def EndsStranded (as : List (Action Bool)) : Prop :=
  ∃ s, run step (Scenario.start .default logAndWait) as = some s ∧
    Stranded s ∧ .logThread ∈ s.logSemaphore.condVar

theorem endsStranded_of_run {as : List (Action Bool)}
    (h : (run step (Scenario.start .default logAndWait) as).map (fun s =>
      (decide (s.logThread.pc = .waiting), s.logSemaphore.mutex, decide (s.queue ≠ []),
        decide (∀ t, ¬ (s.callers t).pc.InQueueLog),
        decide (.logThread ∈ s.logSemaphore.condVar))) = some (true, false, true, true, true)) :
    EndsStranded as := by
  obtain ⟨s, hrun, hs⟩ := Option.map_eq_some_iff.1 h
  simp only [Prod.mk.injEq, decide_eq_true_eq] at hs
  obtain ⟨hwaiting, hflag, hqueue, hnobody, hparked⟩ := hs
  exact ⟨s, hrun, ⟨⟨hwaiting, hflag⟩, hqueue, hnobody⟩, hparked⟩

/-- Whether the waiter is there before the entry or comes after it. -/
theorem theft_strands : EndsStranded theft ∧ EndsStranded lateTheft := by
  constructor
  · exact endsStranded_of_run (by decide +kernel)
  · exact endsStranded_of_run (by decide +kernel)

/-- The entry is written before the waiter comes, and then it waits. -/
def waiterAfterwards : List (Action Bool) :=
  Scenario.logThreadSteps 8 ++ Scenario.callerSteps false 5 ++ Scenario.logThreadSteps 7 ++
    Scenario.callerSteps true 3

theorem stranded_iff_late_waiter :
    ∃ s, run step (Scenario.start .default logAndWait) waiterAfterwards = some s ∧
      .caller true ∈ s.logSemaphore.condVar ∧
      (Always step (fun r => ¬ Stranded r) (Scenario.start .default logAndWait) waiterAfterwards ↔
        StepsMeet step SparesWakeup (Scenario.start .default logAndWait) waiterAfterwards) := by
  have hend : (run step (Scenario.start .default logAndWait) waiterAfterwards).map
      (fun s => decide (.caller true ∈ s.logSemaphore.condVar)) = some true := by
    decide +kernel
  obtain ⟨s, hrun, hparked⟩ := Option.map_eq_some_iff.1 hend
  exact ⟨s, hrun, of_decide_eq_true hparked,
    stranded_iff (boot_disk Scenario.disk .default Scenario.logPath logAndWait) hrun⟩

end Run

end Sys

end Paperlog
