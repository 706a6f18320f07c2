import Paperlog.Model.Ffi
import Paperlog.Model.Locking
import Paperlog.Properties.Wakeup

/-!
# The deadlock behind a flush waiter

`paper2_wait_for_flush` keeps its read guard while it waits for a signal.  If the logging thread
then asks for the write guard, it waits for that reader, and every new caller of
`paper2_queue_log_ffi` waits behind the writer; where no signal is under way the reader waits for
ever.  `Deadlocked` is that state, and `deadlocked_step` shows that no step of any thread leads out
of it.

`deadlockFree_iff` says which runs avoid it: the logging thread must not ask for the write guard,
and a waiter must not take the flag while it does, unless the remaining waiters still have a signal
coming.
-/

namespace Paperlog

/-- One of the two calls. -/
def Call.LogsOrWaits (call : Call) : Prop :=
  (∃ log, call = .paper2QueueLogFfi log) ∨ call = .paper2WaitForFlush

/-- The program points inside the two calls. -/
inductive CallerPc.LogsOrWaits : CallerPc → Prop
  | idle : LogsOrWaits .idle
  | wantRead {ops} (hcall : (Call.read ops).LogsOrWaits) : LogsOrWaits (.wantRead ops)
  | pushing (logs) : LogsOrWaits (.pushing logs [])
  | signalling : LogsOrWaits (.signalling [])
  | waiting : LogsOrWaits (.waiting false [])
  | holding : LogsOrWaits (.holding [])

/-- The caller makes only the two calls. -/
def Caller.LogsOrWaits (c : Caller) : Prop :=
  c.pc.LogsOrWaits ∧ ∀ call ∈ c.todo, call.LogsOrWaits

theorem logsOrWaits_startOp {ops : List GuardedOp} (h : (Call.read ops).LogsOrWaits) :
    (Sys.startOp ops).LogsOrWaits := by
  rcases h with ⟨log, hlog⟩ | hwait
  · cases hlog
    exact .pushing [log]
  · cases hwait
    exact .waiting

theorem logsOrWaits_callerNext (c c' : Caller) (h : c.LogsOrWaits) (hnext : Sys.CallerNext c c') :
    c'.LogsOrWaits := by
  obtain ⟨hpc, htodo⟩ := h
  cases hnext with
  | beginRead ops todo =>
      exact ⟨.wantRead (htodo _ List.mem_cons_self),
        fun call hcall => htodo call (List.mem_cons_of_mem _ hcall)⟩
  | beginWrite call todo =>
      rcases htodo _ List.mem_cons_self with ⟨log, hlog⟩ | hwait
      · cases hlog
      · cases hwait
  | enter ops todo =>
      cases hpc with
      | wantRead hcall => exact ⟨logsOrWaits_startOp hcall, htodo⟩
  | leave todo => exact ⟨.idle, htodo⟩
  | push logs ops todo =>
      cases hpc
      exact ⟨.signalling, htodo⟩
  | signal ops todo =>
      cases hpc
      exact ⟨.holding, htodo⟩
  | wake timed ops todo =>
      cases hpc
      exact ⟨.holding, htodo⟩
  | park timed ops todo => exact ⟨hpc, htodo⟩
  | _ => cases hpc

/-- Inside `wait_for_flush`, with the read guard in hand. -/
def CallerPc.WaitsForFlush : CallerPc → Prop
  | .waiting false _ => True
  | _ => False

/-- The write sections of `log_thread` itself: `do_log_batch` and `flush`. -/
def WriteSection.InLogThread : WriteSection → Prop
  | .batch _ _ | .flush _ => True
  | .errorRecord _ _ => False

namespace Sys

open Transition

variable {W ω Tid : Type}

/-- The logging thread waits for the write guard. -/
def AwaitsWrite (s : Sys W ω Tid) : Prop :=
  ∃ sec : WriteSection, s.logThread.pc = .write .await sec ∧ sec.InLogThread

/-- A signal is up or under way. -/
def SignalComing (s : Sys W ω Tid) : Prop :=
  s.logSemaphore.mutex = true ∨ ∃ t, (s.callers t).pc.InQueueLog

/-- The logging thread waits for a reader that waits for a signal, and no signal is coming. -/
def Deadlocked (s : Sys W ω Tid) : Prop :=
  s.AwaitsWrite ∧ (∃ t, (s.callers t).pc.WaitsForFlush) ∧ ¬ s.SignalComing

/-- The step leaves no waiter without a signal.  The logging thread asks for the write guard only
when nobody waits for a flush or a signal is coming; and while it waits for the guard, a waiter takes
the flag only when it is the last one or somebody is inside `queue_log`. -/
structure KeepsSignal (s : Sys W ω Tid) (a : Action Tid) : Prop where
  request : ∀ result now sec, a = .logThread result now → s.logThread.pc = .write .request sec →
    sec.InLogThread → (∃ t, (s.callers t).pc.WaitsForFlush) → s.SignalComing
  take : ∀ t, a = .caller t → (s.callers t).pc.WaitsForFlush → s.logSemaphore.mutex = true →
    s.AwaitsWrite → (∃ u, u ≠ t ∧ (s.callers u).pc.WaitsForFlush) →
    ∃ u, (s.callers u).pc.InQueueLog

theorem not_inQueueLog_of_waits {pc : CallerPc} (h : pc.WaitsForFlush) : ¬ pc.InQueueLog := by
  cases pc <;> first | exact h.elim | exact id

variable [DecidableEq Tid] {s s' : Sys W ω Tid}

/-- The invariant of the runs that avoid the deadlock. -/
structure Unlocked (s : Sys W ω Tid) : Prop where
  linked : s.Linked
  callers : ∀ t, (s.callers t).LogsOrWaits
  signal : s.AwaitsWrite → (∃ t, (s.callers t).pc.WaitsForFlush) → s.SignalComing

omit [DecidableEq Tid] in
theorem not_deadlocked_of_unlocked (h : Unlocked s) : ¬ Deadlocked s := by
  rintro ⟨hawait, hwaiter, hnone⟩
  exact hnone (h.signal hawait hwaiter)

omit [DecidableEq Tid] in
/-- Behind the waiting logging thread nobody gets a read guard. -/
theorem tryRead_of_awaitsWrite (h : s.Linked) (hawait : s.AwaitsWrite) (p : Party Tid) :
    s.lock.tryRead p = none := by
  obtain ⟨sec, hpc, -⟩ := hawait
  have hrole : s.role .logThread = .awaiting := by simp [role, hpc, LogThreadPc.role]
  exact RwLock.tryRead_of_waiting (h.mem_waiting hrole) p

/-- In front of a waiter nobody gets the write guard. -/
theorem tryWrite_of_waits (h : s.Linked) {t : Tid} (ht : (s.callers t).pc.WaitsForFlush)
    (p : Party Tid) : s.lock.tryWrite p = none := by
  have hrole : s.role (.caller t) = .reading := by
    simp only [role]
    cases hpc : (s.callers t).pc with
    | waiting timed ops => rfl
    | _ =>
        rw [hpc] at ht
        exact ht.elim
  exact RwLock.tryWrite_of_reader (h.mem_readers hrole) p

omit [DecidableEq Tid] in
/-- The read sections of the two calls hold one operation each. -/
theorem not_holding_of_logsOrWaits {t : Tid} {op : GuardedOp} {ops : List GuardedOp}
    (h : (s.callers t).LogsOrWaits) : (s.callers t).pc ≠ .holding (op :: ops) := by
  intro hpc
  have hin := h.1
  rw [hpc] at hin
  cases hin

variable [FileIo W ω]

theorem signal_callerStep {t : Tid} (h : Unlocked s) (hkeeps : KeepsSignal s (.caller t))
    (hstep : CallerStep s t s') (hawait' : s'.AwaitsWrite)
    (hwaiter' : ∃ u, (s'.callers u).pc.WaitsForFlush) : s'.SignalComing := by
  have hframe := hstep.frame
  have hawait : s.AwaitsWrite := by
    rwa [AwaitsWrite, hframe.logThread] at hawait'
  have stays : ¬ (s.callers t).pc.InQueueLog → (∃ u, (s.callers u).pc.InQueueLog) →
      ∃ u, (s'.callers u).pc.InQueueLog := by
    rintro hout ⟨u, hu⟩
    have hne : u ≠ t := by
      rintro rfl
      exact hout hu
    exact ⟨u, by rwa [hframe.others u hne]⟩
  -- Steps outside `queue_log` that leave the flag alone and start no wait.
  have keep : s'.logSemaphore.mutex = s.logSemaphore.mutex → ¬ (s.callers t).pc.InQueueLog →
      ((s'.callers t).pc.WaitsForFlush → (s.callers t).pc.WaitsForFlush) → s'.SignalComing := by
    intro hmutex hout hwaits
    have hwaiter : ∃ u, (s.callers u).pc.WaitsForFlush := by
      obtain ⟨u, hu⟩ := hwaiter'
      by_cases hut : u = t
      · subst hut
        exact ⟨u, hwaits hu⟩
      · exact ⟨u, by rwa [← hframe.others u hut]⟩
    rw [SignalComing, hmutex]
    exact (h.signal hawait hwaiter).imp_right (stays hout)
  cases hstep with
  | enter hpc hlock =>
      rw [tryRead_of_awaitsWrite h.linked hawait] at hlock
      cases hlock
  | next hpc => exact absurd hpc (not_holding_of_logsOrWaits (h.callers t))
  | push hpc => exact .inr ⟨t, by simp [CallerPc.InQueueLog]⟩
  | signal hpc => exact .inl rfl
  | takeSignal hpc hflag =>
      have hin := (h.callers t).1
      rw [hpc] at hin
      cases hin
      have hwaits : (s.callers t).pc.WaitsForFlush := by simp [hpc, CallerPc.WaitsForFlush]
      obtain ⟨u, hu⟩ := hwaiter'
      have hut : u ≠ t := by
        rintro rfl
        simp [CallerPc.WaitsForFlush] at hu
      rw [hframe.others u hut] at hu
      exact .inr (stays (not_inQueueLog_of_waits hwaits)
        (hkeeps.take t rfl hwaits hflag hawait ⟨u, hut, hu⟩))
  | park hpc hflag =>
      exact keep rfl (by rw [hpc]; exact id) (by simp [hpc])
  | _ hpc => exact keep rfl (by rw [hpc]; exact id) (by simp [CallerPc.WaitsForFlush])

theorem signal_logThreadStep {result : Except LoggerError Unit} {now : DateTime}
    (hkeeps : KeepsSignal s (.logThread result now)) (hstep : LogThreadStep s result now s')
    (hawait' : s'.AwaitsWrite) (hwaiter' : ∃ u, (s'.callers u).pc.WaitsForFlush) :
    s'.SignalComing := by
  obtain ⟨sec, hpc', hsec⟩ := hawait'
  cases hstep with
  | take hpc =>
      simp only [takeQueue] at hpc'
      split at hpc' <;> cases hpc'
  | sinksDone hpc hi =>
      rename_i i log rest
      rcases rest with _ | ⟨log', rest⟩ <;> cases hpc'
  | batch hpc hio =>
      rename_i queue logs world ctx
      rcases logs with _ | ⟨log, logs⟩ <;> cases hpc'
  | request hpc =>
      cases hpc'
      exact hkeeps.request result now _ rfl hpc hsec hwaiter'
  | park hpc hflag =>
      rw [show s.logThread.pc = _ from hpc'] at hpc
      cases hpc
  | _ => cases hpc'

theorem unlocked_step {a : Action Tid} (h : Unlocked s) (hkeeps : KeepsSignal s a)
    (hstep : s.step a = some s') : Unlocked s' := by
  have hcallers := callers_step logsOrWaits_callerNext h.callers hstep
  refine ⟨linked_step h.linked hstep, hcallers, ?_⟩
  cases step_sound hstep with
  | caller hcaller => exact signal_callerStep h hkeeps hcaller
  | logThread hlog => exact signal_logThreadStep hkeeps hlog
  | spurious hparked => exact h.signal
  | timeout hparked hpc =>
      rename_i t ops
      have hin := (h.callers t).1
      rw [hpc] at hin
      cases hin

/-- A step that leaves the waiters without a signal deadlocks at once. -/
theorem deadlocked_of_step {a : Action Tid} (hloses : ¬ KeepsSignal s a)
    (hstep : s.step a = some s') : Deadlocked s' := by
  by_contra hsafe
  refine hloses ⟨?_, ?_⟩
  · rintro result now sec rfl hpc hsec hwaiter
    by_contra hnone
    cases logThreadStep_sound hstep with
    | request hpc' =>
        rw [hpc] at hpc'
        cases hpc'
        exact hsafe ⟨⟨sec, rfl, hsec⟩, hwaiter, hnone⟩
    | _ hpc' =>
        rw [hpc] at hpc'
        cases hpc'
  · rintro t rfl hwaits hflag hawait ⟨u, hut, hu⟩
    by_contra hnobody
    cases callerStep_sound hstep with
    | takeSignal hpc hflag' =>
        refine hsafe ⟨hawait, ⟨u, ?_⟩, ?_⟩
        · rwa [goCaller_callers_of_ne _ _ _ hut]
        · rintro (hup | ⟨v, hv⟩)
          · cases hup
          · by_cases hvt : v = t
            · subst hvt
              simp [CallerPc.InQueueLog] at hv
            · rw [goCaller_callers_of_ne _ _ _ hvt] at hv
              exact hnobody ⟨v, hv⟩
    | park hpc hdown =>
        rw [hflag] at hdown
        cases hdown
    | _ hpc =>
        rw [hpc] at hwaits
        exact hwaits.elim

/-! ## No way out -/

/-- What a deadlocked state has to keep. -/
structure Stuck (s : Sys W ω Tid) : Prop where
  linked : s.Linked
  callers : ∀ t, (s.callers t).LogsOrWaits
  deadlocked : s.Deadlocked

/-- **No thread can take a step that ends the deadlock.** -/
theorem deadlocked_step {a : Action Tid} (h : Stuck s) (hstep : s.step a = some s') :
    Deadlocked s' := by
  obtain ⟨hawait, ⟨w, hw⟩, hnone⟩ := h.deadlocked
  cases step_sound hstep with
  | caller hcaller =>
      rename_i t
      have hframe := hcaller.frame
      have hout : ¬ (s.callers t).pc.InQueueLog := fun hin => hnone (.inr ⟨t, hin⟩)
      -- The caller gives no signal, comes nowhere near one, and does not stop waiting.
      have keep : s'.logSemaphore.mutex = s.logSemaphore.mutex → ¬ (s'.callers t).pc.InQueueLog →
          ((s.callers t).pc.WaitsForFlush → (s'.callers t).pc.WaitsForFlush) → Deadlocked s' := by
        intro hmutex hout' hwaits
        refine ⟨by rwa [AwaitsWrite, hframe.logThread], ⟨w, ?_⟩, ?_⟩
        · by_cases hwt : w = t
          · subst hwt
            exact hwaits hw
          · rwa [hframe.others w hwt]
        · rintro (hup | ⟨u, hu⟩)
          · exact hnone (.inl (hmutex ▸ hup))
          · by_cases hut : u = t
            · subst hut
              exact hout' hu
            · exact hnone (.inr ⟨u, by rwa [← hframe.others u hut]⟩)
      cases hcaller with
      | enter hpc hlock =>
          rw [tryRead_of_awaitsWrite h.linked hawait] at hlock
          cases hlock
      | next hpc => exact absurd hpc (not_holding_of_logsOrWaits (h.callers t))
      | push hpc => exact absurd (by rw [hpc]; trivial) hout
      | signal hpc => exact absurd (by rw [hpc]; trivial) hout
      | takeSignal hpc hflag => exact absurd (.inl hflag) hnone
      | park hpc hflag =>
          exact keep rfl (by simp [CallerPc.InQueueLog]) (by simp [hpc])
      | _ hpc =>
          exact keep rfl (by simp [CallerPc.InQueueLog]) (by simp [hpc, CallerPc.WaitsForFlush])
  | logThread hlog =>
      obtain ⟨sec, hpc, -⟩ := hawait
      cases hlog with
      | grant hpc' hlock =>
          rw [tryWrite_of_waits h.linked hw] at hlock
          cases hlock
      | _ hpc' =>
          rw [hpc] at hpc'
          cases hpc'
  | spurious hparked => exact h.deadlocked
  | timeout hparked hpc =>
      rename_i t ops
      have hin := (h.callers t).1
      rw [hpc] at hin
      cases hin

/-- However the run goes on, it stays deadlocked. -/
theorem deadlocked_run {as : List (Action Tid)} (h : Stuck s) (hrun : run step s as = some s') :
    Deadlocked s' := by
  have hkeep : ∀ (r : Sys W ω Tid) (a : Action Tid) (r' : Sys W ω Tid), Stuck r →
      r.step a = some r' → Stuck r' := fun _ _ _ h hstep =>
    ⟨linked_step h.linked hstep, callers_step logsOrWaits_callerNext h.callers hstep,
      deadlocked_step h hstep⟩
  exact (run_invariant hkeep h hrun).deadlocked

/-! ## The runs without a deadlock -/

section Run

variable {w : W} {config : LoggerConfig} {logPath : PathBuf} {todo : Tid → List Call}
  {s₀ : Sys W ω Tid} {as : List (Action Tid)}

omit [DecidableEq Tid] in
theorem unlocked_boot (hcalls : ∀ t, ∀ call ∈ todo t, call.LogsOrWaits)
    (hboot : boot w config logPath todo = .ok s₀) : Unlocked s₀ := by
  have hlinked := linked_boot hboot
  obtain ⟨w', globalFile, rfl⟩ := boot_ok hboot
  refine ⟨hlinked, fun t => ⟨.idle, hcalls t⟩, ?_⟩
  rintro ⟨sec, hpc, -⟩
  cases hpc

/-- **When waiting for a flush deadlocks the logger.**  A run of threads that log and wait never
meets the deadlock exactly when every step of it leaves the waiters a signal. -/
theorem deadlockFree_iff (hcalls : ∀ t, ∀ call ∈ todo t, call.LogsOrWaits)
    (hboot : boot w config logPath todo = .ok s₀) (hrun : run step s₀ as = some s) :
    Always step (fun r => ¬ Deadlocked r) s₀ as ↔ StepsMeet step KeepsSignal s₀ as :=
  always_iff_stepsMeet (fun _ => not_deadlocked_of_unlocked)
    (fun _ _ _ h hkeeps hstep => unlocked_step h hkeeps hstep)
    (fun _ _ _ _ hloses hstep hsafe => hsafe (deadlocked_of_step hloses hstep))
    (unlocked_boot hcalls hboot) hrun

/-- The logging thread takes the signal of an entry and its batch; the waiter arrives; the thread
asks for the write guard. -/
def embrace : List (Action Bool) :=
  Scenario.logThreadSteps 8 ++ Scenario.callerSteps false 5 ++ Scenario.logThreadSteps 4 ++
    Scenario.callerSteps true 3 ++ Scenario.logThreadSteps 1

theorem embrace_deadlocks :
    ∃ s, run step (Scenario.start .default logAndWait) embrace = some s ∧ Deadlocked s ∧
      (∃ queue logs, s.logThread.pc = .write .await (.batch queue logs)) ∧
      .caller true ∈ s.lock.readers ∧ .caller true ∈ s.logSemaphore.condVar := by
  have hend : (run step (Scenario.start .default logAndWait) embrace).map (fun s =>
      (s.logThread.pc, (s.callers false).pc, (s.callers true).pc, s.logSemaphore.mutex,
        decide (.caller true ∈ s.lock.readers ∧ .caller true ∈ s.logSemaphore.condVar))) =
      some (.write .await (.batch [Scenario.log "a"] [Scenario.log "a"]), .idle,
        .waiting false [], false, true) := by
    decide +kernel
  obtain ⟨s, hrun, hs⟩ := Option.map_eq_some_iff.1 hend
  simp only [Prod.mk.injEq, decide_eq_true_eq] at hs
  obtain ⟨hpc, hlogger, hwaiter, hflag, hreader, hparked⟩ := hs
  refine ⟨s, hrun, ⟨⟨_, hpc, trivial⟩, ⟨true, by rw [hwaiter]; trivial⟩, ?_⟩, ⟨_, _, hpc⟩, hreader,
    hparked⟩
  rintro (hup | ⟨t, ht⟩)
  · rw [hflag] at hup
    cases hup
  · cases t with
    | false =>
        rw [hlogger] at ht
        exact ht
    | true =>
        rw [hwaiter] at ht
        exact ht

theorem deadlockFree_iff_embrace :
    Always step (fun r => ¬ Deadlocked r) (Scenario.start .default logAndWait) embrace ↔
      StepsMeet step KeepsSignal (Scenario.start .default logAndWait) embrace := by
  have hcalls : ∀ t, ∀ call ∈ logAndWait t, call.LogsOrWaits := by
    intro t call hcall
    cases t with
    | false => exact .inl ⟨Scenario.log "a", List.mem_singleton.1 hcall⟩
    | true => exact .inr (List.mem_singleton.1 hcall)
  have hsome : (run step (Scenario.start .default logAndWait) embrace).isSome := by
    decide +kernel
  obtain ⟨s, hrun⟩ := Option.isSome_iff_exists.1 hsome
  exact deadlockFree_iff hcalls
    (boot_disk Scenario.disk .default Scenario.logPath logAndWait) hrun

end Run

end Sys

end Paperlog
