import Paperlog.Properties.Deadlock
import Paperlog.Properties.PanicOnDisk
import Paperlog.Properties.SinksMayLog

/-!
# What a blocked logger still does

The three ways in which the lock can hold up the logger for good (`Deadlock`, `PanicSafety`,
`SinksMayLog`) have in common that a thread keeps a guard and a writer waits for it.  Here is what
that means for everybody else, for the rest of every run:

* `deadlock_silences`: behind a flush waiter nothing is queued, written or dispatched any more, and
  every thread stays in the next call it makes of any of the exported functions;
* `selfBlocked_silences`: while the panic hook waits for its own thread, no file changes, so the
  panic is never reported;
* `stuck_silences`: while a sink that logs waits behind a writer, its entry is not queued, and the
  logging thread takes, writes and dispatches nothing.
-/

namespace Paperlog

open RwLock (Role)

/-! ## Who touches the files -/

theorem CallerPc.performs_of_not_writing {pc : CallerPc} (h : pc.role ≠ .writing) :
    pc.performs = [] := by
  cases pc with
  | write phase call =>
      cases phase with
      | held => exact absurd rfl h
      | _ => rfl
  | _ => rfl

theorem LogThreadPc.performs_of_not_writing {pc : LogThreadPc} (h : pc.role ≠ .writing) :
    pc.performs = [] := by
  cases pc with
  | write phase sec =>
      cases phase with
      | held => exact absurd rfl h
      | _ => rfl
  | _ => rfl

/-! ## Programs of exported calls -/

/-- The calls that `src/ffi.rs` exports: under one read guard they do one thing. -/
def Call.Exported : Call → Prop
  | .read ops => ops.length ≤ 1
  | .write _ => True

/-- The program points inside these calls. -/
def CallerPc.Exported : CallerPc → Prop
  | .wantRead ops => ops.length ≤ 1
  | .holding ops | .pushing _ ops | .signalling ops | .waiting _ ops => ops = []
  | .idle | .write _ _ => True

/-- The caller makes only these calls. -/
def Caller.Exported (c : Caller) : Prop := c.pc.Exported ∧ ∀ call ∈ c.todo, call.Exported

/-- At the start of a call, before it has a guard. -/
def CallerPc.Enters : CallerPc → Prop
  | .wantRead _ | .write .request _ | .write .await _ => True
  | _ => False

/-- The caller has begun at most one more call, and that has no guard yet. -/
def Caller.OneMore (c c' : Caller) : Prop :=
  c'.todo = c.todo ∨ ∃ call, c.todo = call :: c'.todo ∧ c'.pc.Enters

theorem exported_startOp {ops : List GuardedOp} (h : ops.length ≤ 1) :
    (Sys.startOp ops).Exported := by
  rcases ops with _ | ⟨op, ops⟩
  · rfl
  · have hops : ops = [] := List.length_eq_zero_iff.1 (Nat.le_zero.1 (Nat.le_of_succ_le_succ h))
    subst hops
    cases op <;> rfl

theorem exported_callerNext (c c' : Caller) (h : c.Exported) (hnext : Sys.CallerNext c c') :
    c'.Exported := by
  obtain ⟨hpc, htodo⟩ := h
  have hrest : ∀ {call : Call} {todo : List Call}, (∀ call' ∈ call :: todo, call'.Exported) →
      ∀ call' ∈ todo, call'.Exported := fun hall call' hcall =>
    hall call' (List.mem_cons_of_mem _ hcall)
  cases hnext with
  | beginRead ops todo => exact ⟨htodo (.read ops) List.mem_cons_self, hrest htodo⟩
  | beginWrite call todo => exact ⟨trivial, hrest htodo⟩
  | enter ops todo => exact ⟨exported_startOp hpc, htodo⟩
  | next op ops todo => cases hpc
  | push logs ops todo => exact ⟨hpc, htodo⟩
  | signal ops todo => exact ⟨hpc, htodo⟩
  | wake timed ops todo => exact ⟨hpc, htodo⟩
  | park timed ops todo => exact ⟨hpc, htodo⟩
  | failed call log todo => exact ⟨Nat.le_refl 1, htodo⟩
  | _ => exact ⟨trivial, htodo⟩

namespace Sys

open Transition

variable {W ω Tid : Type} [DecidableEq Tid] {s s' : Sys W ω Tid}

omit [DecidableEq Tid] in
/-- Only from inside a write section does a step touch the files. -/
theorem fileOps_of_not_writing {a : Action Tid} (h : s.role a.actor ≠ .writing) :
    s.fileOps a = [] := by
  cases a with
  | caller t => simp only [fileOps, CallerPc.performs_of_not_writing h, List.map_nil]
  | logThread result now => simp only [fileOps, LogThreadPc.performs_of_not_writing h, List.map_nil]
  | _ => rfl

/-- And only then does a step of a caller touch the context. -/
theorem ctx_of_not_writing [FileIo W ω] {t : Tid} (h : s.role (.caller t) ≠ .writing)
    (hstep : CallerStep s t s') : s'.world = s.world ∧ s'.ctx = s.ctx := by
  have hheld : ∀ {call : WriteCall}, (s.callers t).pc ≠ .write .held call := by
    intro call hpc
    exact h (by simp [role, hpc, CallerPc.role])
  cases hstep with
  | register hpc hadd => exact absurd hpc hheld
  | registerFailed hpc hadd => exact absurd hpc hheld
  | unregister hpc => exact absurd hpc hheld
  | addSink hpc => exact absurd hpc hheld
  | _ => exact ⟨rfl, rfl⟩

/-! ## Behind a flush waiter -/

omit [DecidableEq Tid] in
/-- Everything but the lock, the semaphores and the callers. -/
def core (s : Sys W ω Tid) : W × LoggerThreadCtx ω × List LogData × History Tid × LogThread :=
  (s.world, s.ctx, s.queue, s.history, s.logThread)

/-- A deadlocked logger with callers of the exported functions. -/
structure Frozen (s : Sys W ω Tid) : Prop where
  linked : s.Linked
  callers : ∀ t, (s.callers t).Exported
  deadlocked : s.Deadlocked

omit [DecidableEq Tid] in
theorem not_holding_of_exported {t : Tid} {op : GuardedOp} {ops : List GuardedOp}
    (h : (s.callers t).Exported) : (s.callers t).pc ≠ .holding (op :: ops) := by
  intro hpc
  have hin := h.1
  rw [hpc] at hin
  cases hin

omit [DecidableEq Tid] in
theorem role_of_waits {t : Tid} (ht : (s.callers t).pc.WaitsForFlush) :
    s.role (.caller t) = .reading := by
  simp only [role]
  cases hpc : (s.callers t).pc with
  | waiting timed ops => rfl
  | _ =>
      rw [hpc] at ht
      exact ht.elim

variable [FileIo W ω]

omit [DecidableEq Tid] [FileIo W ω] in
theorem oneMore_trans {c c' c'' : Caller} (h : c.OneMore c')
    (htodo : c''.todo = c'.todo ∧ (c'.pc.Enters → c''.pc.Enters) ∨
      c'.pc = .idle ∧ ∃ call, c'.todo = call :: c''.todo ∧ c''.pc.Enters) : c.OneMore c'' := by
  rcases h with hsame | ⟨call, hcall, henters⟩
  · rcases htodo with ⟨hsame', -⟩ | ⟨-, call, hcall, henters⟩
    · exact .inl (hsame'.trans hsame)
    · exact .inr ⟨call, hsame ▸ hcall, henters⟩
  · rcases htodo with ⟨hsame', henters'⟩ | ⟨hidle, -⟩
    · exact .inr ⟨call, hsame' ▸ hcall, henters' henters⟩
    · rw [hidle] at henters
      exact henters.elim

/-- What a caller can still do in a deadlocked logger. -/
structure Idles (s : Sys W ω Tid) (t : Tid) (s' : Sys W ω Tid) : Prop where
  core : s'.core = s.core
  flag : s'.logSemaphore.mutex = s.logSemaphore.mutex
  outside : ¬ (s'.callers t).pc.InQueueLog
  waits : (s.callers t).pc.WaitsForFlush → (s'.callers t).pc.WaitsForFlush
  moves : (s'.callers t).todo = (s.callers t).todo ∧
      ((s.callers t).pc.Enters → (s'.callers t).pc.Enters) ∨
    (s.callers t).pc = .idle ∧
      ∃ call, (s.callers t).todo = call :: (s'.callers t).todo ∧ (s'.callers t).pc.Enters

theorem Frozen.idles {t : Tid} (h : Frozen s) (hstep : CallerStep s t s') : Idles s t s' := by
  obtain ⟨hawait, ⟨w, hw⟩, hnone⟩ := h.deadlocked
  have hout : ¬ (s.callers t).pc.InQueueLog := fun hin => hnone (.inr ⟨t, hin⟩)
  have hunwritten : s.role (.caller t) ≠ .writing := fun hrole =>
    h.linked.not_reading_of_writing hrole (role_of_waits hw)
  have hheld : ∀ {call : WriteCall}, (s.callers t).pc ≠ .write .held call := by
    intro call hpc
    exact hunwritten (by simp [role, hpc, CallerPc.role])
  cases hstep with
  | beginRead hpc htodo =>
      rename_i ops todo
      refine ⟨rfl, rfl, ?_, ?_, .inr ⟨hpc, .read ops, ?_, ?_⟩⟩
      · simp [CallerPc.InQueueLog]
      · simp [hpc, CallerPc.WaitsForFlush]
      · simpa using htodo
      · simp [CallerPc.Enters]
  | beginWrite hpc htodo =>
      rename_i call todo
      refine ⟨rfl, rfl, ?_, ?_, .inr ⟨hpc, .write call, ?_, ?_⟩⟩
      · simp [CallerPc.InQueueLog]
      · simp [hpc, CallerPc.WaitsForFlush]
      · simpa using htodo
      · simp [CallerPc.Enters]
  | enter hpc hlock =>
      rw [tryRead_of_awaitsWrite h.linked hawait] at hlock
      cases hlock
  | leave hpc =>
      refine ⟨rfl, rfl, ?_, ?_, .inl ⟨?_, ?_⟩⟩
      · simp [CallerPc.InQueueLog]
      · simp [hpc, CallerPc.WaitsForFlush]
      · simp
      · simp [hpc, CallerPc.Enters]
  | next hpc => exact absurd hpc (not_holding_of_exported (h.callers t))
  | push hpc => exact absurd (by rw [hpc]; trivial) hout
  | signal hpc => exact absurd (by rw [hpc]; trivial) hout
  | takeSignal hpc hflag => exact absurd (.inl hflag) hnone
  | park hpc hflag =>
      refine ⟨rfl, rfl, ?_, ?_, .inl ⟨?_, ?_⟩⟩
      · simp [CallerPc.InQueueLog]
      · simp [hpc]
      · simp
      · simp [hpc]
  | request hpc =>
      refine ⟨rfl, rfl, ?_, ?_, .inl ⟨?_, ?_⟩⟩
      · simp [CallerPc.InQueueLog]
      · simp [hpc, CallerPc.WaitsForFlush]
      · simp
      · simp [CallerPc.Enters]
  | grant hpc hlock =>
      rw [tryWrite_of_waits h.linked hw] at hlock
      cases hlock
  | register hpc hadd => exact absurd hpc hheld
  | registerFailed hpc hadd => exact absurd hpc hheld
  | unregister hpc => exact absurd hpc hheld
  | addSink hpc => exact absurd hpc hheld

omit [FileIo W ω] in
/-- Whoever idles leaves the others in the deadlock. -/
theorem Frozen.deadlocked_of_idles {t : Tid} (h : Frozen s) (hidles : Idles s t s')
    (hothers : ∀ u, u ≠ t → s'.callers u = s.callers u) : s'.Deadlocked := by
  obtain ⟨hawait, ⟨w, hw⟩, hnone⟩ := h.deadlocked
  have hlogThread : s'.logThread = s.logThread :=
    congrArg (fun core => core.2.2.2.2) hidles.core
  refine ⟨by rwa [AwaitsWrite, hlogThread], ⟨w, ?_⟩, ?_⟩
  · by_cases hwt : w = t
    · subst hwt
      exact hidles.waits hw
    · rwa [hothers w hwt]
  · rintro (hup | ⟨u, hu⟩)
    · exact hnone (.inl (hidles.flag ▸ hup))
    · by_cases hut : u = t
      · subst hut
        exact hidles.outside hu
      · exact hnone (.inr ⟨u, by rwa [← hothers u hut]⟩)

/-- A step of a deadlocked logger. -/
theorem frozen_step {a : Action Tid} (h : Frozen s) (hstep : s.step a = some s') :
    s'.Deadlocked ∧ s'.core = s.core ∧
      ∀ (t : Tid) (c : Caller), c.OneMore (s.callers t) → c.OneMore (s'.callers t) := by
  -- Only the callers can take a step at all.
  have of_idles : ∀ {t : Tid}, Idles s t s' → (∀ u, u ≠ t → s'.callers u = s.callers u) →
      s'.Deadlocked ∧ s'.core = s.core ∧
        ∀ (t : Tid) (c : Caller), c.OneMore (s.callers t) → c.OneMore (s'.callers t) := by
    intro t hidles hothers
    refine ⟨h.deadlocked_of_idles hidles hothers, hidles.core, fun u c hc => ?_⟩
    by_cases hut : u = t
    · subst hut
      exact oneMore_trans hc hidles.moves
    · rwa [hothers u hut]
  obtain ⟨⟨sec, hpc, -⟩, ⟨w, hw⟩, -⟩ := h.deadlocked
  cases step_sound hstep with
  | caller hcaller => exact of_idles (h.idles hcaller) hcaller.frame.others
  | logThread hlog =>
      cases hlog with
      | grant hpc' hlock =>
          rw [tryWrite_of_waits h.linked hw] at hlock
          cases hlock
      | _ hpc' =>
          rw [hpc] at hpc'
          cases hpc'
  | spurious hparked => exact ⟨h.deadlocked, rfl, fun _ _ hc => hc⟩
  | timeout hparked hpc' =>
      refine of_idles ⟨rfl, rfl, ?_, ?_, .inl ⟨?_, ?_⟩⟩ fun u hu => goCaller_callers_of_ne _ _ _ hu
      · simp [CallerPc.InQueueLog]
      · simp [hpc', CallerPc.WaitsForFlush]
      · simp
      · simp [hpc', CallerPc.Enters]

section Run

variable {w : W} {config : LoggerConfig} {logPath : PathBuf} {todo : Tid → List Call}
  {s₀ : Sys W ω Tid} {as bs : List (Action Tid)}

/-- A deadlock that a run of exported calls has led to. -/
theorem frozen_of_run (hcalls : ∀ t, ∀ call ∈ todo t, call.Exported)
    (hboot : boot w config logPath todo = .ok s₀) (hrun : run step s₀ as = some s)
    (hdead : s.Deadlocked) : Frozen s := by
  have hkeep : ∀ (r : Sys W ω Tid) (a : Action Tid) (r' : Sys W ω Tid),
      (r.Linked ∧ ∀ t, (r.callers t).Exported) → r.step a = some r' →
      r'.Linked ∧ ∀ t, (r'.callers t).Exported := fun r a r' h hstep =>
    ⟨linked_step h.1 hstep, callers_step exported_callerNext h.2 hstep⟩
  have hstart : s₀.Linked ∧ ∀ t, (s₀.callers t).Exported := by
    refine ⟨linked_boot hboot, fun t => ?_⟩
    obtain ⟨w', globalFile, rfl⟩ := boot_ok hboot
    exact ⟨trivial, hcalls t⟩
  obtain ⟨hlinked, hcallers⟩ := run_invariant hkeep hstart hrun
  exact ⟨hlinked, hcallers, hdead⟩

/-- **A deadlock silences the logger.**  Whatever the threads do behind a flush waiter, nothing is
queued, written or dispatched any more, and each of them stays in the next call it makes. -/
theorem deadlock_silences (hcalls : ∀ t, ∀ call ∈ todo t, call.Exported)
    (hboot : boot w config logPath todo = .ok s₀) (hrun : run step s₀ as = some s)
    (hdead : s.Deadlocked) (hrest : run step s bs = some s') :
    s'.Deadlocked ∧ s'.core = s.core ∧ ∀ t, (s.callers t).OneMore (s'.callers t) := by
  have hkeep : ∀ (r : Sys W ω Tid) (a : Action Tid) (r' : Sys W ω Tid),
      (Frozen r ∧ r.core = s.core ∧ ∀ t, (s.callers t).OneMore (r.callers t)) →
      r.step a = some r' →
      Frozen r' ∧ r'.core = s.core ∧ ∀ t, (s.callers t).OneMore (r'.callers t) := by
    rintro r a r' ⟨h, hcore, hmore⟩ hstep
    obtain ⟨hdead', hcore', hmore'⟩ := frozen_step h hstep
    exact ⟨⟨linked_step h.linked hstep, callers_step exported_callerNext h.callers hstep, hdead'⟩,
      hcore'.trans hcore, fun t => hmore' t _ (hmore t)⟩
  obtain ⟨h, hcore, hmore⟩ := run_invariant hkeep
    ⟨frozen_of_run hcalls hboot hrun hdead, rfl, fun _ => .inl rfl⟩ hrest
  exact ⟨h.deadlocked, hcore, hmore⟩

/-- One thread logs twice, the other waits for a flush. -/
def logAgain : Bool → List Call
  | false => [.read [.queueLog (Scenario.log "a")], .read [.queueLog (Scenario.log "b")]]
  | true => [.read [.waitForFlush]]

/-- The waiter takes the signal of the first entry's batch. -/
theorem deadlock_silences_logAgain :
    ∃ s s', run step (Scenario.start .default logAgain) embrace = some s ∧ s.Deadlocked ∧
      run step s (Scenario.callerSteps false 1) = some s' ∧
      (s'.callers false).pc = .wantRead [.queueLog (Scenario.log "b")] ∧
      s'.Deadlocked ∧ s'.core = s.core ∧ ∀ t, (s.callers t).OneMore (s'.callers t) := by
  have hend : (run step (Scenario.start .default logAgain) embrace).map (fun s =>
      (s.logThread.pc, (s.callers false).pc, (s.callers true).pc, s.logSemaphore.mutex,
        (run step s (Scenario.callerSteps false 1)).map fun s' => (s'.callers false).pc)) =
      some (.write .await (.batch [Scenario.log "a"] [Scenario.log "a"]), .idle,
        .waiting false [], false, some (.wantRead [.queueLog (Scenario.log "b")])) := by
    decide +kernel
  obtain ⟨s, hrun, hs⟩ := Option.map_eq_some_iff.1 hend
  simp only [Prod.mk.injEq] at hs
  obtain ⟨hpc, hlogger, hwaiter, hflag, hrest⟩ := hs
  obtain ⟨s', hrest, hwants⟩ := Option.map_eq_some_iff.1 hrest
  have hdead : s.Deadlocked := by
    refine ⟨⟨_, hpc, trivial⟩, ⟨true, by rw [hwaiter]; trivial⟩, ?_⟩
    rintro (hup | ⟨t, ht⟩)
    · rw [hflag] at hup
      cases hup
    · cases t with
      | false =>
          rw [hlogger] at ht
          exact ht
      | true =>
          rw [hwaiter] at ht
          exact ht
  have hcalls : ∀ t, ∀ call ∈ logAgain t, call.Exported := by
    intro t call hcall
    cases t with
    | false =>
        rcases List.mem_pair.1 hcall with rfl | rfl
        · exact Nat.le_refl 1
        · exact Nat.le_refl 1
    | true =>
        rw [List.mem_singleton.1 hcall]
        exact Nat.le_refl 1
  exact ⟨s, s', hrun, hdead, hrest, hwants,
    deadlock_silences hcalls (boot_disk Scenario.disk .default Scenario.logPath logAgain) hrun hdead
      hrest⟩

end Run

end Sys

/-! ## In front of the panic hook -/

namespace PanicSys

open Transition
open Sys (boot boot_disk)

variable {W ω Tid : Type} [DecidableEq Tid] {c c' : PanicSys W ω Tid} {p q : Party Tid}

/-- Nobody else is inside a write section. -/
theorem not_writing_of_caught (h : Orderly c) (hcaught : c.Caught p) (hq : q ≠ p) :
    c.role q ≠ .writing := by
  intro hrole
  rcases h.holds_of_caught hcaught with hread | hwrite
  · exact (RwLock.WriteLinked.of_exact h.guards).not_writing hread q hrole
  · have hwriter := (h.guards.writer q).2 hrole
    exact hq (Option.some.inj (hwriter.symm.trans hwrite))

variable [FileIo W ω]

/-- Neither the program nor a hook writes anything. -/
theorem fileOps_of_caught {a : PanicAction Tid} (h : Orderly c) (hcaught : c.Caught p)
    (hstep : Step c c' a) : (events c a).flatMap Event.fileOps = [] := by
  have program : ∀ {a : Action Tid} (info : PanicHookInfo) (backtrace : Str) (now : DateTime),
      c.hooks a.actor = none →
      (events c (.program a info backtrace now)).flatMap Event.fileOps = [] := by
    intro a info backtrace now hrun
    have hne : a.actor ≠ p := by
      rintro rfl
      exact hcaught.1 hrun
    rw [fileOps_program hrun]
    apply Sys.fileOps_of_not_writing
    rw [← role_of_none hrun]
    exact not_writing_of_caught h hcaught hne
  cases hstep with
  | program hrun hsys hfine hhooks => exact program _ _ _ hrun
  | programPanics hrun hsys hpanic hhooks => exact program _ _ _ hrun
  | panic hrun hruns hsys hhooks => rfl
  | hook hpc hhook hhooks =>
      rename_i q result now pc pc'
      have hout := out_of_hookStep h hpc hhook
      have hne : q ≠ p := by
        rintro rfl
        exact hcaught.2 hout
      have hrole := not_writing_of_caught h hcaught hne
      rw [role_of_out hpc hout] at hrole
      simp only [events, hpc]
      cases pc with
      | write phase log backtrace =>
          cases phase with
          | held => exact absurd rfl hrole
          | _ => rfl
      | _ => rfl

/-- A hook that waits for its own thread stays where it is. -/
theorem hooks_of_caught {a : PanicAction Tid} (h : Orderly c) (hcaught : c.Caught p)
    (hstep : Step c c' a) : c'.hooks p = c.hooks p := by
  by_cases hp : p = a.actor
  · subst hp
    cases hstep with
    | program hrun hsys hfine hhooks => exact absurd hrun hcaught.1
    | programPanics hrun hsys hpanic hhooks => exact absurd hrun hcaught.1
    | panic hrun hruns hsys hhooks => exact absurd hrun hcaught.1
    | hook hpc hhook hhooks => exact absurd (out_of_hookStep h hpc hhook) hcaught.2
  · exact (others_step hstep hp).1

/-- **A panic under a guard is never reported.**  Once a hook waits for its own thread, the files
and the hook stay as they are, whatever all the threads do. -/
theorem selfBlocked_silences {w : W} {config : LoggerConfig} {logPath : PathBuf}
    {todo : Tid → List Call} {s₀ : Sys W ω Tid} {as bs : List (PanicAction Tid)}
    (hboot : boot w config logPath todo = .ok s₀) (hrun : run step (installed s₀) as = some c)
    (hblocked : SelfBlocked c) (hrest : run step c bs = some c') :
    SelfBlocked c' ∧ c'.sys.files = c.sys.files ∧ ∀ p, c.Caught p → c'.hooks p = c.hooks p := by
  have h : Orderly c := orderly_run (orderly_boot hboot) hrun
  obtain ⟨p, hcaught⟩ := (selfBlocked_iff h).1 hblocked
  have hkeep : ∀ (r : PanicSys W ω Tid) (a : PanicAction Tid) (r' : PanicSys W ω Tid),
      (Orderly r ∧ r.sys.files = c.sys.files ∧
        ∀ q, c.Caught q → r.Caught q ∧ r.hooks q = c.hooks q) → step r a = some r' →
      Orderly r' ∧ r'.sys.files = c.sys.files ∧
        ∀ q, c.Caught q → r'.Caught q ∧ r'.hooks q = c.hooks q := by
    rintro r a r' ⟨hr, hfiles, hhooks⟩ hstep
    have hsound := step_sound hstep
    refine ⟨orderly_step hr hsound, ?_, fun q hq => ?_⟩
    · rw [← files_step hsound, applyEvents, fileOps_of_caught hr (hhooks p hcaught).1 hsound]
      exact hfiles
    · obtain ⟨hcaught', hsame⟩ := hhooks q hq
      exact ⟨caught_step hcaught' hsound, (hooks_of_caught hr hcaught' hsound).trans hsame⟩
  obtain ⟨h', hfiles, hhooks⟩ := run_invariant hkeep ⟨h, rfl, fun _ hq => ⟨hq, rfl⟩⟩ hrest
  exact ⟨(selfBlocked_iff h').2 ⟨p, (hhooks p hcaught).1⟩, hfiles, fun q hq => (hhooks q hq).2⟩

/-- The sink panics; then the caller, too, wants to write. -/
theorem selfBlocked_silences_sinkPanics :
    ∃ c c', run step (installed (Scenario.start .default CallbackSys.sinkAndWriter)) sinkPanics =
        some c ∧
      SelfBlocked c ∧ c.hooks .logThread ≠ none ∧
      run step c ((Scenario.callerSteps () 2).map
        fun a => .program a sinkPanic "bt".toList Scenario.time) = some c' ∧
      (c'.sys.callers ()).pc = .write .await (.unregisterContext "T".toList) ∧
      SelfBlocked c' ∧ c'.sys.files = c.sys.files ∧ ∀ p, c.Caught p → c'.hooks p = c.hooks p := by
  have hend : (run step (installed (Scenario.start .default CallbackSys.sinkAndWriter))
      sinkPanics).map (fun c => (c.hooks .logThread, decide (.logThread ∈ c.sys.lock.readers),
        (run step c ((Scenario.callerSteps () 2).map
          fun a => .program a sinkPanic "bt".toList Scenario.time)).map
            fun c' => (c'.sys.callers ()).pc)) =
      some (some (.write .await (panicRecord sinkPanic Scenario.time) (some "bt".toList)), true,
        some (.write .await (.unregisterContext "T".toList))) := by
    decide +kernel
  obtain ⟨c, hrun, hc⟩ := Option.map_eq_some_iff.1 hend
  simp only [Prod.mk.injEq, decide_eq_true_eq] at hc
  obtain ⟨hhook, hreader, hrest⟩ := hc
  obtain ⟨c', hrest, hawait⟩ := Option.map_eq_some_iff.1 hrest
  have hblocked : SelfBlocked c := by
    refine ⟨.logThread, ?_, .inl hreader⟩
    simp only [Waits, hhook]
    exact RwLock.tryWrite_of_reader hreader _
  exact ⟨c, c', hrun, hblocked, by simp [hhook], hrest, hawait,
    selfBlocked_silences (boot_disk Scenario.disk .default Scenario.logPath CallbackSys.sinkAndWriter)
      hrun hblocked hrest⟩

end PanicSys

/-! ## Around a sink that logs -/

namespace CallbackSys

open Transition
open Sys (boot boot_disk)

variable {W ω Tid : Type} [DecidableEq Tid] [FileIo W ω] {c c' : CallbackSys W ω Tid}

/-- Whoever is inside a write section has the write guard, nested calls or not. -/
def WriteLinked (c : CallbackSys W ω Tid) : Prop := c.sys.lock.WriteLinked c.sys.role

theorem writeLinked_step {a : CallbackAction Tid} (h : c.WriteLinked) (hstep : c.step a = some c') :
    c'.WriteLinked := by
  cases step_sound hstep with
  | program hself hsys =>
      obtain ⟨hmove, hrole⟩ := Sys.move_step hsys
      show RwLock.WriteLinked _ (Sys.role _)
      rw [hrole]
      exact RwLock.WriteLinked.move h hmove
  | callback hnested hpc hi => exact h
  | enter hnested hlock =>
      obtain ⟨hnone, -, -, hnone', -⟩ := RwLock.tryRead_some hlock
      exact RwLock.WriteLinked.of_writer_eq h (hnone'.trans hnone.symm)
  | push hnested => exact h
  | signal hnested => exact h
  | leave hnested => exact RwLock.WriteLinked.of_writer_eq h rfl

/-- A step around a blocked sink. -/
theorem silent_of_stuck {a : CallbackAction Tid} (h : Stuck c) (hlinked : c.WriteLinked)
    (hstep : c.step a = some c') :
    c'.nested = c.nested ∧ c'.sys.logThread = c.sys.logThread ∧
      c'.sys.world = c.sys.world ∧ c'.sys.ctx = c.sys.ctx := by
  obtain ⟨⟨log, hlog⟩, hholds, hwriter⟩ := h
  cases step_sound hstep with
  | program hself hsys =>
      cases Sys.step_sound hsys with
      | caller hcaller =>
          have hctx := Sys.ctx_of_not_writing (RwLock.WriteLinked.not_writing hlinked hholds _) hcaller
          exact ⟨rfl, hcaller.frame.logThread, hctx⟩
      | logThread hlogThread =>
          have hnone := hself rfl
          rw [hlog] at hnone
          cases hnone
      | spurious hparked => exact ⟨rfl, rfl, rfl, rfl⟩
      | timeout hparked hpc => exact ⟨rfl, rfl, rfl, rfl⟩
  | callback hnested hpc hi =>
      rw [hnested] at hlog
      cases hlog
  | enter hnested hlock => exact absurd (RwLock.tryRead_some hlock).2.1 hwriter
  | push hnested =>
      rw [hnested] at hlog
      cases hlog
  | signal hnested =>
      rw [hnested] at hlog
      cases hlog
  | leave hnested =>
      rw [hnested] at hlog
      cases hlog

/-- **A sink that logs behind a writer silences the logger.**  Its entry is not queued, and the
logging thread takes, writes, flushes and dispatches nothing, whatever the callers do. -/
theorem stuck_silences {w : W} {config : LoggerConfig} {logPath : PathBuf}
    {todo : Tid → List Call} {s₀ : Sys W ω Tid} {as bs : List (CallbackAction Tid)}
    (hboot : boot w config logPath todo = .ok s₀)
    (hrun : run step (⟨s₀, none⟩ : CallbackSys W ω Tid) as = some c) (hstuck : Stuck c)
    (hrest : run step c bs = some c') :
    Stuck c' ∧ c'.nested = c.nested ∧ c'.sys.logThread = c.sys.logThread ∧
      c'.sys.world = c.sys.world ∧ c'.sys.ctx = c.sys.ctx := by
  have hstart : (⟨s₀, none⟩ : CallbackSys W ω Tid).WriteLinked :=
    .of_linked (Sys.linked_boot hboot)
  have hlinked := run_invariant (fun _ _ _ h hstep => writeLinked_step h hstep) hstart hrun
  have hkeep : ∀ (r : CallbackSys W ω Tid) (a : CallbackAction Tid) (r' : CallbackSys W ω Tid),
      (Stuck r ∧ r.WriteLinked ∧ r.nested = c.nested ∧ r.sys.logThread = c.sys.logThread ∧
        r.sys.world = c.sys.world ∧ r.sys.ctx = c.sys.ctx) → r.step a = some r' →
      Stuck r' ∧ r'.WriteLinked ∧ r'.nested = c.nested ∧ r'.sys.logThread = c.sys.logThread ∧
        r'.sys.world = c.sys.world ∧ r'.sys.ctx = c.sys.ctx := by
    rintro r a r' ⟨hr, hlink, hnested, hthread, hworld, hctx⟩ hstep
    obtain ⟨hnested', hthread', hworld', hctx'⟩ := silent_of_stuck hr hlink hstep
    exact ⟨stuck_step hr hstep, writeLinked_step hlink hstep, hnested'.trans hnested,
      hthread'.trans hthread, hworld'.trans hworld, hctx'.trans hctx⟩
  obtain ⟨hstuck', -, hsame⟩ := run_invariant hkeep ⟨hstuck, hlinked, rfl, rfl, rfl, rfl⟩ hrest
  exact ⟨hstuck', hsame⟩

/-- One thread adds a sink, logs and unregisters a context, the other logs. -/
def sinkAndOther : Bool → List Call
  | false => sinkAndWriter ()
  | true => [.read [.queueLog (Scenario.log "c")]]

/-- The sink logs, and the first thread asks for the write guard meanwhile. -/
def writerMeanwhile : List (CallbackAction Bool) :=
  (Scenario.callerSteps false 9 ++ Scenario.logThreadSteps 7).map .program ++
    [.callback (Scenario.log "b")] ++ (Scenario.callerSteps false 2).map .program

theorem stuck_silences_writerMeanwhile :
    ∃ c c', run step ⟨Scenario.start .default sinkAndOther, none⟩ writerMeanwhile = some c ∧
      Stuck c ∧ run step c ((Scenario.callerSteps true 1).map .program) = some c' ∧
      (c'.sys.callers true).pc = .wantRead [.queueLog (Scenario.log "c")] ∧
      Stuck c' ∧ c'.nested = c.nested ∧ c'.sys.logThread = c.sys.logThread ∧
      c'.sys.world = c.sys.world ∧ c'.sys.ctx = c.sys.ctx := by
  have hend : (run step ⟨Scenario.start .default sinkAndOther, none⟩ writerMeanwhile).map (fun c =>
      (c.nested, decide (.logThread ∈ c.sys.lock.readers), c.sys.lock.waiting,
        (run step c ((Scenario.callerSteps true 1).map .program)).map
          fun c' => (c'.sys.callers true).pc)) =
      some (some (.wantRead (Scenario.log "b")), true, [.caller false],
        some (.wantRead [.queueLog (Scenario.log "c")])) := by
    decide +kernel
  obtain ⟨c, hrun, hc⟩ := Option.map_eq_some_iff.1 hend
  simp only [Prod.mk.injEq, decide_eq_true_eq] at hc
  obtain ⟨hnested, hreader, hwaiting, hrest⟩ := hc
  obtain ⟨c', hrest, hwants⟩ := Option.map_eq_some_iff.1 hrest
  have hstuck : Stuck c := ⟨⟨_, hnested⟩, hreader, by simp [hwaiting]⟩
  exact ⟨c, c', hrun, hstuck, hrest, hwants,
    stuck_silences (boot_disk Scenario.disk .default Scenario.logPath sinkAndOther) hrun hstuck
      hrest⟩

end CallbackSys

end Paperlog
