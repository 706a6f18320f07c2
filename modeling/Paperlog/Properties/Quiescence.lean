import Paperlog.Properties.Wakeup

/-!
# A quiet logger has nothing left to do

Two arguments meet when the logging thread blocks.  `Wakeup` shows that the queue is empty, as long
as nobody else waits on the queue semaphore and no producer is about to signal.  `CleanBeforeWait`
shows that the files are flushed: the thread comes to the check before `wait` either through a
flush, and then nothing has been written since, or because the queue was not empty, and then it
still is not, because only the thread itself takes entries out.  `quiescent_clean` puts them
together.
-/

namespace Paperlog

/-! ## Programs without flush waiters -/

def GuardedOp.NoWait : GuardedOp → Prop
  | .queueLogs _ => True
  | _ => False

/-- The call waits for no flush. -/
def Call.NoWait : Call → Prop
  | .read ops => ∀ op ∈ ops, op.NoWait
  | .write _ => True

def CallerPc.NoWait : CallerPc → Prop
  | .wantRead ops | .holding ops | .pushing _ ops | .signalling ops => ∀ op ∈ ops, op.NoWait
  | .waiting _ _ => False
  | .idle | .write _ _ => True

/-- The caller is not waiting for a flush and is not going to. -/
def Caller.NoWait (c : Caller) : Prop := c.pc.NoWait ∧ ∀ call ∈ c.todo, call.NoWait

theorem noWait_startOp {ops : List GuardedOp} (h : ∀ op ∈ ops, op.NoWait) :
    (Sys.startOp ops).NoWait := by
  rcases ops with _ | ⟨op, ops⟩
  · exact h
  · have hop := h op List.mem_cons_self
    have hops : ∀ op ∈ ops, op.NoWait := fun op hop => h op (List.mem_cons_of_mem _ hop)
    cases op with
    | queueLogs logs => exact hops
    | waitForFlush => exact hop.elim
    | waitForFlushTimeout => exact hop.elim

theorem noWait_callerNext (c c' : Caller) (h : c.NoWait) (hnext : Sys.CallerNext c c') :
    c'.NoWait := by
  obtain ⟨hpc, htodo⟩ := h
  cases hnext with
  | beginRead ops todo =>
      exact ⟨htodo _ List.mem_cons_self, fun call hcall => htodo call (List.mem_cons_of_mem _ hcall)⟩
  | beginWrite call todo =>
      exact ⟨trivial, fun call hcall => htodo call (List.mem_cons_of_mem _ hcall)⟩
  | enter ops todo => exact ⟨noWait_startOp hpc, htodo⟩
  | next op ops todo => exact ⟨noWait_startOp hpc, htodo⟩
  | wake timed ops todo => exact hpc.elim
  | park timed ops todo => exact hpc.elim
  | failed call log todo =>
      refine ⟨fun op hop => ?_, htodo⟩
      rw [List.mem_singleton.1 hop]
      trivial
  | leave todo => exact ⟨trivial, htodo⟩
  | _ => exact ⟨hpc, htodo⟩

namespace Sys

open Transition LoggerThreadCtx

variable {Tid : Type} [DecidableEq Tid]

/-! ## The flush before the wait -/

/-- At the points between a flush and the next write the files are clean, except that before the
last check the queue may have become nonempty without one. -/
structure CleanBeforeWait {resolve : PathBuf → Place} (s : Sys (Disk resolve) BufWriter Tid) :
    Prop where
  atSignal : s.logThread.pc = .signalFlush none → s.ctx.Clean
  atCheck : s.logThread.pc = .checkWait → s.queue ≠ [] ∨ s.ctx.Clean
  atWait : s.logThread.pc = .waiting → s.ctx.Clean

variable {resolve : PathBuf → Place} {s s' : Sys (Disk resolve) BufWriter Tid}

omit [DecidableEq Tid] in
/-- Nothing to show where the logging thread is at none of these points. -/
theorem CleanBeforeWait.of_pc (hsignal : s.logThread.pc ≠ .signalFlush none)
    (hcheck : s.logThread.pc ≠ .checkWait) (hwait : s.logThread.pc ≠ .waiting) :
    CleanBeforeWait s :=
  ⟨fun h => absurd h hsignal, fun h => absurd h hcheck, fun h => absurd h hwait⟩

/-- No caller makes a file dirty. -/
theorem clean_callerStep {t : Tid} (h : s.ctx.Clean) (hstep : CallerStep s t s') :
    s'.ctx.Clean := by
  cases hstep with
  | register hpc hadd => exact h.addContext hadd
  | registerFailed hpc hadd => exact absurd hadd (addContext_ne_error _ _ _)
  | unregister hpc => exact h.removeContext _ s.world
  | _ => exact h

theorem cleanBeforeWait_callerStep {t : Tid} (h : CleanBeforeWait s) (hstep : CallerStep s t s') :
    CleanBeforeWait s' := by
  have hframe := hstep.frame
  have hpc : s'.logThread.pc = s.logThread.pc := by rw [hframe.logThread]
  have hqueue : s.queue ≠ [] → s'.queue ≠ [] := by
    rcases hframe.queue with ⟨hqueue, -⟩ | ⟨logs, hqueue, -⟩
    · rw [hqueue]
      exact id
    · rw [hqueue]
      exact fun hne => List.append_ne_nil_of_left_ne_nil hne logs
  exact ⟨fun h' => clean_callerStep (h.atSignal (hpc ▸ h')) hstep,
    fun h' => (h.atCheck (hpc ▸ h')).imp hqueue fun hclean => clean_callerStep hclean hstep,
    fun h' => clean_callerStep (h.atWait (hpc ▸ h')) hstep⟩

theorem cleanBeforeWait_logThreadStep {result : Except LoggerError Unit} {now : DateTime}
    (h : CleanBeforeWait s) (hstep : LogThreadStep s result now s') : CleanBeforeWait s' := by
  cases hstep with
  | take hpc =>
      by_cases hqueue : s.queue = []
      · apply CleanBeforeWait.of_pc <;> simp [takeQueue, hqueue]
      · apply CleanBeforeWait.of_pc <;> simp [takeQueue, hqueue]
  | sinksDone hpc hi =>
      rename_i i log rest
      cases rest with
      | nil => apply CleanBeforeWait.of_pc <;> simp [nextRecord]
      | cons log rest => apply CleanBeforeWait.of_pc <;> simp [nextRecord]
  | batch hpc hio =>
      rename_i queue logs world ctx
      cases logs with
      | nil => apply CleanBeforeWait.of_pc <;> simp [nextRecord]
      | cons log rest => apply CleanBeforeWait.of_pc <;> simp [nextRecord]
  | flush hpc hio =>
      constructor
      · intro _
        exact clean_of_flushFiles hio
      · simp
      · simp
  | flushLater hpc hqueue hlogged =>
      constructor
      · simp
      · exact fun _ => .inl hqueue
      · simp
  | flushed hpc =>
      constructor
      · simp
      · exact fun _ => .inr (h.atSignal hpc)
      · simp
  | sleep hpc hqueue =>
      constructor
      · simp
      · simp
      · intro _
        rcases h.atCheck hpc with hne | hclean
        · exact absurd hqueue hne
        · exact hclean
  | park hpc hflag => exact ⟨h.atSignal, h.atCheck, h.atWait⟩
  | _ => apply CleanBeforeWait.of_pc <;> simp

theorem cleanBeforeWait_step {a : Action Tid} (h : CleanBeforeWait s)
    (hstep : s.step a = some s') : CleanBeforeWait s' := by
  cases step_sound hstep with
  | caller hcaller => exact cleanBeforeWait_callerStep h hcaller
  | logThread hlog => exact cleanBeforeWait_logThreadStep h hlog
  | spurious hparked => exact ⟨h.atSignal, h.atCheck, h.atWait⟩
  | timeout hparked hpc => exact ⟨h.atSignal, h.atCheck, h.atWait⟩

/-! ## Quiescence -/

section Run

variable {disk : Disk resolve} {config : LoggerConfig} {logPath : PathBuf} {todo : Tid → List Call}
  {s₀ : Sys (Disk resolve) BufWriter Tid} {as : List (Action Tid)}

omit [DecidableEq Tid] in
theorem cleanBeforeWait_boot (hboot : boot disk config logPath todo = .ok s₀) :
    CleanBeforeWait s₀ := by
  obtain ⟨w, globalFile, rfl⟩ := boot_ok hboot
  apply CleanBeforeWait.of_pc <;> simp [start]

/-- A wake-up is coming, and no caller waits for a flush. -/
def AwakeAlone (s : Sys (Disk resolve) BufWriter Tid) : Prop :=
  Awake CallerPc.BeforeSignal s ∧ ∀ t, (s.callers t).NoWait

theorem awakeAlone_step {a : Action Tid} (h : AwakeAlone s) (hstep : s.step a = some s') :
    AwakeAlone s' := by
  obtain ⟨hawake, hnowait⟩ := h
  refine ⟨awake_step (fun _ => trivial) ?_ hawake ?_ hstep, callers_step noWait_callerNext hnowait hstep⟩
  · intro pc hpc
    cases pc <;> first | exact hpc.elim | trivial
  · rintro ⟨t, timed, ops, -, hpc, -⟩
    have hwaiting := (hnowait t).1
    rw [hpc] at hwaiting
    exact hwaiting.elim

/-- **Quiescence is clean.**  Where the logging thread is blocked and no producer is between its
push and its signal, the queue is empty and no file, global or of a context, holds pending bytes. -/
theorem quiescent_clean (hnowait : ∀ t, ∀ call ∈ todo t, call.NoWait)
    (hboot : boot disk config logPath todo = .ok s₀) (hrun : run step s₀ as = some s)
    (hblocked : s.Blocked) (hsignal : ∀ t, ¬ (s.callers t).pc.BeforeSignal) :
    s.queue = [] ∧ s.ctx.Clean := by
  have hstart : AwakeAlone s₀ := by
    refine ⟨awake_boot _ hboot, fun t => ?_⟩
    obtain ⟨w, globalFile, rfl⟩ := boot_ok hboot
    exact ⟨trivial, hnowait t⟩
  have hawake : AwakeAlone s :=
    run_invariant (fun _ _ _ h hstep => awakeAlone_step h hstep) hstart hrun
  have hclean : CleanBeforeWait s :=
    run_invariant (fun _ _ _ h hstep => cleanBeforeWait_step h hstep) (cleanBeforeWait_boot hboot) hrun
  obtain ⟨hpc, hflag⟩ := hblocked
  refine ⟨?_, hclean.atWait hpc⟩
  by_contra hqueue
  rcases hawake.1 hpc hqueue with hup | ⟨t, ht⟩
  · rw [hflag] at hup
    cases hup
  · exact hsignal t ht

/-- A thread registers a context and logs to it. -/
def logInContext : Unit → List Call := fun _ =>
  [.write (.registerContext "ctx".toList Scenario.time),
    .read [.queueLog { Scenario.log "a" with tag := some "ctx".toList }]]

/-- The thread runs to its end, then the logging thread until it parks. -/
def logInContextRun : List (Action Unit) :=
  Scenario.callerSteps () 9 ++ Scenario.logThreadSteps 23

theorem quiescent_clean_logInContext :
    ∃ s, run step (Scenario.start .default logInContext) logInContextRun = some s ∧
      s.history.written.length = 1 ∧ s.ctx.contextMap.length = 1 ∧ s.queue = [] ∧ s.ctx.Clean := by
  have hend : (run step (Scenario.start .default logInContext) logInContextRun).map (fun s =>
      (decide (s.logThread.pc = .waiting), s.logSemaphore.mutex, (s.callers ()).pc,
        s.history.written.length, s.ctx.contextMap.length)) = some (true, false, .idle, 1, 1) := by
    decide +kernel
  obtain ⟨s, hrun, hs⟩ := Option.map_eq_some_iff.1 hend
  simp only [Prod.mk.injEq, decide_eq_true_eq] at hs
  obtain ⟨hpc, hflag, hcaller, hwritten, hcontexts⟩ := hs
  have hnowait : ∀ t, ∀ call ∈ logInContext t, call.NoWait := by
    intro t call hcall
    rcases List.mem_cons.1 hcall with rfl | hcall
    · trivial
    · rw [List.mem_singleton.1 hcall]
      intro op hop
      rw [List.mem_singleton.1 hop]
      trivial
  have hsignal : ∀ t, ¬ (s.callers t).pc.BeforeSignal := by
    intro t
    rw [hcaller]
    exact id
  have hresult := quiescent_clean hnowait
    (boot_disk Scenario.disk .default Scenario.logPath logInContext) hrun ⟨hpc, hflag⟩ hsignal
  exact ⟨s, hrun, hwritten, hcontexts, hresult⟩

end Run

end Sys

end Paperlog
