import Paperlog.Model.PanicHook
import Paperlog.Model.Scenario

/-!
# Does the panic hook block itself?

The hook asks for the write guard while everything its thread held at the panic is still out.  If
that is a guard of the same lock, the thread waits for itself, and nothing will ever change that
(`selfBlocked_run`): the panic is not reported, and no other thread gets the write guard again.
`hookFree_iff` says which runs avoid this: the threads that panic hold no guard when they do.
-/

namespace Paperlog

open RwLock (Role)
open Sys (boot boot_disk)

namespace PanicSys

open Transition

variable {W ω Tid : Type} [DecidableEq Tid] {c c' : PanicSys W ω Tid} {p : Party Tid}

omit [DecidableEq Tid] in
/-- The thread holds a guard of either kind. -/
def Holds (c : PanicSys W ω Tid) (p : Party Tid) : Prop :=
  p ∈ c.sys.lock.readers ∨ c.sys.lock.writer = some p

/-- The hook on this thread waits for the lock. -/
def Waits (c : PanicSys W ω Tid) (p : Party Tid) : Prop :=
  match c.hooks p with
  | some (.write .await _ _) => c.sys.lock.tryWrite p = none
  | some (.wantRead _ _) => c.sys.lock.tryRead p = none
  | _ => False

/-- The hook waits for the lock on a thread that holds a guard on it. -/
def SelfBlocked (c : PanicSys W ω Tid) : Prop := ∃ p, c.Waits p ∧ c.Holds p

/-- Whoever panics holds no guard. -/
def PanicsUnlocked (c : PanicSys W ω Tid) : PanicAction Tid → Prop
  | .panic p _ _ _ => ¬ c.Holds p
  | _ => True

/-- What a thread has of the lock.  In the hook, the section it was in when it panicked counts until
it is unwound. -/
def role (c : PanicSys W ω Tid) (p : Party Tid) : Role :=
  match c.hooks p, c.sys.role p with
  | none, r => r
  | some _, .reading => .reading
  | some _, .writing => .writing
  | some pc, _ => pc.role

omit [DecidableEq Tid] in
/-- The thread has panicked inside a section. -/
def Caught (c : PanicSys W ω Tid) (p : Party Tid) : Prop :=
  c.hooks p ≠ none ∧ c.sys.role p ≠ .out

/-- Every guard belongs to a section of a thread or to a hook, and a thread that has panicked inside
a section does not get past its first `write()`. -/
structure Orderly (c : PanicSys W ω Tid) : Prop where
  guards : c.sys.lock.Exact c.role
  running : ∀ p, c.hooks p ≠ none → c.sys.role p ≠ .awaiting
  caught : ∀ p, c.Caught p → ∃ log backtrace, c.hooks p = some (.write .await log backtrace)

/-! ## The roles -/

section

omit [DecidableEq Tid]

theorem role_of_none (h : c.hooks p = none) : c.role p = c.sys.role p := by
  rw [role, h]

theorem role_of_out {pc : HookPc} (h : c.hooks p = some pc) (hout : c.sys.role p = .out) :
    c.role p = pc.role := by
  rw [role, h, hout]

theorem role_of_inside (h : c.sys.role p = .reading ∨ c.sys.role p = .writing) :
    c.role p = c.sys.role p := by
  unfold role
  rcases h with h | h <;> rw [h] <;> cases c.hooks p <;> rfl

theorem inside_of_not_out (hout : c.sys.role p ≠ .out) (hawait : c.sys.role p ≠ .awaiting) :
    c.sys.role p = .reading ∨ c.sys.role p = .writing := by
  cases h : c.sys.role p with
  | out => exact absurd h hout
  | reading => exact .inl rfl
  | awaiting => exact absurd h hawait
  | writing => exact .inr rfl

theorem role_congr (hhooks : c'.hooks p = c.hooks p) (hrole : c'.sys.role p = c.sys.role p) :
    c'.role p = c.role p := by
  rw [role, role, hhooks, hrole]

end

/-- A step of `p` changes the role of `p` only. -/
theorem role_update (hothers : ∀ q, q ≠ p → c'.hooks q = c.hooks q ∧ c'.sys.role q = c.sys.role q) :
    c'.role = Function.update c.role p (c'.role p) := by
  funext q
  by_cases hq : q = p
  · subst hq
    rw [Function.update_self]
  · rw [Function.update_of_ne hq]
    exact role_congr (hothers q hq).1 (hothers q hq).2

theorem Orderly.holds_of_inside (h : Orderly c)
    (hinside : c.sys.role p = .reading ∨ c.sys.role p = .writing) : c.Holds p :=
  h.guards.holds_of_inside (by rwa [role_of_inside hinside])

theorem Orderly.holds_of_caught (h : Orderly c) (hcaught : c.Caught p) : c.Holds p :=
  h.holds_of_inside (inside_of_not_out hcaught.2 (h.running p hcaught.1))

/-- **Who waits for itself**: whoever has panicked inside a section. -/
theorem selfBlocked_iff (h : Orderly c) : SelfBlocked c ↔ ∃ p, c.Caught p := by
  constructor
  · rintro ⟨p, hwaits, hholds⟩
    unfold Waits at hwaits
    split at hwaits
    · rename_i log backtrace hpc
      refine ⟨p, by simp [hpc], fun hout => ?_⟩
      have hinside := h.guards.inside_of_holds hholds
      rw [role_of_out hpc hout] at hinside
      simp [HookPc.role] at hinside
    · rename_i log backtrace hpc
      refine ⟨p, by simp [hpc], fun hout => ?_⟩
      have hinside := h.guards.inside_of_holds hholds
      rw [role_of_out hpc hout] at hinside
      simp [HookPc.role] at hinside
    · exact hwaits.elim
  · rintro ⟨p, hcaught⟩
    obtain ⟨log, backtrace, hpc⟩ := h.caught p hcaught
    have hholds := h.holds_of_caught hcaught
    refine ⟨p, ?_, hholds⟩
    simp only [Waits, hpc]
    exact RwLock.tryWrite_of_holds hholds p

/-! ## One step -/

variable [FileIo W ω]

/-- Outside of sections, a step of the hook is one move with the lock. -/
theorem move_hookStep {s s' : Sys W ω Tid} {pc pc' : HookPc} {result : Except LoggerError Unit}
    {now : DateTime} (hout : s.role p = .out) (h : s.HookStep p result now pc s' pc') :
    RwLock.Move p s.lock pc.role s'.lock pc'.role := by
  have hnext : ∀ backtrace, (HookPc.next now backtrace).role = .out := by
    rintro (_ | backtrace) <;> rfl
  cases h with
  | request log backtrace => exact .request
  | grant hlock => exact .write hlock
  | wrote hio => exact .release
  | writeFailed hio =>
      rw [hnext]
      exact .release
  | enter hlock => exact .read hlock
  | sink hi hresult => exact .stay .reading
  | sinkFailed hi hresult =>
      rw [hnext]
      exact .leave
  | sinksDone hi =>
      rw [hnext]
      exact .leave
  | unwind =>
      show RwLock.Move p s.lock .out (s.dropGuards p) .out
      rw [Sys.dropGuards, hout]
      exact .stay .out

/-- The hook moves no program counter but its own. -/
theorem role_hookStep {s s' : Sys W ω Tid} {pc pc' : HookPc} {result : Except LoggerError Unit}
    {now : DateTime} (h : s.HookStep p result now pc s' pc') : s'.role = s.role := by
  cases h <;> rfl

/-- A step touches neither the hook nor the role of another thread. -/
theorem others_step {a : PanicAction Tid} (hstep : Step c c' a) {q : Party Tid} (hq : q ≠ a.actor) :
    c'.hooks q = c.hooks q ∧ c'.sys.role q = c.sys.role q := by
  cases hstep with
  | program hrun hsys hfine hhooks =>
      refine ⟨by rw [hhooks], ?_⟩
      rw [(Sys.move_step hsys).2]
      exact Function.update_of_ne hq _ _
  | programPanics hrun hsys hpanic hhooks =>
      constructor
      · rw [hhooks]
        exact Function.update_of_ne (hpanic.1 ▸ hq) _ _
      · rw [(Sys.move_step hsys).2]
        exact Function.update_of_ne hq _ _
  | panic hrun hruns hsys hhooks =>
      constructor
      · rw [hhooks]
        exact Function.update_of_ne hq _ _
      · rw [hsys]
        rfl
  | hook hpc hhook hhooks =>
      constructor
      · rw [hhooks]
        exact Function.update_of_ne hq _ _
      · rw [role_hookStep hhook]

/-- What is left to check of a step: the guards, and the thread that takes it. -/
theorem Orderly.of_step {a : PanicAction Tid} (h : Orderly c) (hstep : Step c c' a)
    (hguards : c'.sys.lock.Exact c'.role)
    (hrunning : c'.hooks a.actor ≠ none → c'.sys.role a.actor ≠ .awaiting)
    (hcaught : c'.Caught a.actor →
      ∃ log backtrace, c'.hooks a.actor = some (.write .await log backtrace)) : Orderly c' := by
  refine ⟨hguards, fun q => ?_, fun q => ?_⟩
  · by_cases hq : q = a.actor
    · rw [hq]
      exact hrunning
    · rw [(others_step hstep hq).1, (others_step hstep hq).2]
      exact h.running q
  · by_cases hq : q = a.actor
    · rw [hq]
      exact hcaught
    · rw [Caught, (others_step hstep hq).1, (others_step hstep hq).2]
      exact h.caught q

/-- Where the step is one move with the lock, the guards are in order afterwards. -/
theorem Orderly.guards_of_move {a : PanicAction Tid} {r r' : Role} (h : Orderly c)
    (hstep : Step c c' a) (hmove : RwLock.Move a.actor c.sys.lock r c'.sys.lock r')
    (hr : c.role a.actor = r) (hr' : c'.role a.actor = r') : c'.sys.lock.Exact c'.role := by
  subst hr hr'
  rw [role_update fun q hq => others_step hstep hq]
  exact h.guards.move hmove

/-- A thread that has panicked inside a section makes no step in the hook. -/
theorem out_of_hookStep {pc pc' : HookPc} {sys : Sys W ω Tid} {result : Except LoggerError Unit}
    {now : DateTime} (h : Orderly c) (hpc : c.hooks p = some pc)
    (hhook : c.sys.HookStep p result now pc sys pc') : c.sys.role p = .out := by
  by_contra hout
  have hcaught : c.Caught p := ⟨by simp [hpc], hout⟩
  obtain ⟨log, backtrace, hawait⟩ := h.caught p hcaught
  obtain rfl := Option.some.inj (hpc.symm.trans hawait)
  cases hhook with
  | grant hlock =>
      rw [RwLock.tryWrite_of_holds (h.holds_of_caught hcaught)] at hlock
      cases hlock

theorem orderly_step {a : PanicAction Tid} (h : Orderly c) (hstep : Step c c' a) : Orderly c' := by
  have hs := hstep
  cases hstep with
  | program hrun hsys hfine hhooks =>
      have hrun' := (congrFun hhooks _).trans hrun
      exact h.of_step hs
        (h.guards_of_move hs (Sys.move_step hsys).1
          (role_of_none hrun) (role_of_none hrun'))
        (fun hne => absurd hrun' hne) fun hcaught => absurd hrun' hcaught.1
  | programPanics hrun hsys hpanic hhooks =>
      rename_i a info backtrace now
      have hself : c'.hooks a.actor =
          some (.write .request (panicRecord info now) (some backtrace)) := by
        rw [hhooks, hpanic.1, Function.update_self]
      have hout : c'.sys.role a.actor = .out := by
        simp [Sys.role, hpanic.1, hpanic.2, LogThreadPc.role]
      have hmove := (Sys.move_step hsys).1
      rw [hout] at hmove
      exact h.of_step hs
        (h.guards_of_move hs hmove (role_of_none hrun)
          (role_of_out hself hout))
        (fun _ => by simp [PanicAction.actor, hout]) fun hcaught => absurd hout hcaught.2
  | panic hrun hruns hsys hhooks =>
      rename_i p info backtrace now
      have hawait := hruns.2.1
      have hself : c'.hooks p = some (.write .await (panicRecord info now) (some backtrace)) := by
        rw [hhooks, Function.update_self]
      have hrole : c'.sys.role = c.sys.role := by
        rw [hsys]
        rfl
      have hlock : c'.sys.lock = c.sys.lock.requestWrite p := by rw [hsys]
      refine h.of_step hs ?_
        (fun _ => hrole ▸ hawait) fun _ => ⟨_, _, hself⟩
      by_cases hout : c.sys.role p = .out
      · have hmove : RwLock.Move p c.sys.lock .out c'.sys.lock .awaiting := hlock ▸ .request
        exact h.guards_of_move hs hmove ((role_of_none hrun).trans hout)
          (role_of_out hself ((congrFun hrole p).trans hout))
      · -- The request changes neither the guards nor what the thread has of them.
        have hinside := inside_of_not_out hout hawait
        have hguards : c'.sys.lock.Exact c.role := hlock ▸ ⟨h.guards.readers, h.guards.writer⟩
        apply hguards.of_role_eq
        intro q
        by_cases hq : q = p
        · rw [hq, role_of_inside hinside, role_of_inside (hrole ▸ hinside), hrole]
        · refine role_congr ?_ (congrFun hrole q)
          rw [hhooks, Function.update_of_ne hq]
  | hook hpc hhook hhooks =>
      rename_i p result now pc pc'
      have hself : c'.hooks p = some pc' := by rw [hhooks, Function.update_self]
      have hout := out_of_hookStep h hpc hhook
      have hout' : c'.sys.role p = .out := (congrFun (role_hookStep hhook) p).trans hout
      exact h.of_step hs
        (h.guards_of_move hs (move_hookStep hout hhook) (role_of_out hpc hout)
          (role_of_out hself hout'))
        (fun _ => by simp [PanicAction.actor, hout']) fun hcaught => absurd hout' hcaught.2

/-! ## Who panics inside a section -/

/-- A thread that is caught stays so. -/
theorem caught_step {a : PanicAction Tid} (hcaught : c.Caught p) (hstep : Step c c' a) :
    c'.Caught p := by
  by_cases hp : p = a.actor
  · subst hp
    cases hstep with
    | program hrun hsys hfine hhooks => exact absurd hrun hcaught.1
    | programPanics hrun hsys hpanic hhooks => exact absurd hrun hcaught.1
    | panic hrun hruns hsys hhooks => exact absurd hrun hcaught.1
    | hook hpc hhook hhooks =>
        refine ⟨?_, ?_⟩
        · rw [hhooks]
          simp [PanicAction.actor]
        · rw [role_hookStep hhook]
          exact hcaught.2
  · rw [Caught, (others_step hstep hp).1, (others_step hstep hp).2]
    exact hcaught

/-- And only a panic with a guard in the hand catches one. -/
theorem not_caught_step {a : PanicAction Tid} (h : Orderly c) (hfree : ∀ p, ¬ c.Caught p)
    (hunlocked : PanicsUnlocked c a) (hstep : Step c c' a) (p : Party Tid) : ¬ c'.Caught p := by
  by_cases hp : p = a.actor
  · subst hp
    rintro ⟨hhook', hrole'⟩
    cases hstep with
    | program hrun hsys hfine hhooks => exact hhook' ((congrFun hhooks _).trans hrun)
    | programPanics hrun hsys hpanic hhooks =>
        exact hrole' (by simp [PanicAction.actor, Sys.role, hpanic.1, hpanic.2, LogThreadPc.role])
    | panic hrun hruns hsys hhooks =>
        rw [hsys] at hrole'
        exact hunlocked (h.holds_of_inside (inside_of_not_out hrole' hruns.2.1))
    | hook hpc hhook hhooks =>
        rw [role_hookStep hhook] at hrole'
        exact hfree _ ⟨by simp [PanicAction.actor, hpc], hrole'⟩
  · rw [Caught, (others_step hstep hp).1, (others_step hstep hp).2]
    exact hfree p

/-- A panic with a guard in the hand does catch one. -/
theorem caught_of_panic {a : PanicAction Tid} (h : Orderly c) (hlocked : ¬ PanicsUnlocked c a)
    (hstep : Step c c' a) : ∃ p, c'.Caught p := by
  cases hstep with
  | panic hrun hruns hsys hhooks =>
      rename_i p info backtrace now
      refine ⟨p, ?_, fun hout => hlocked fun hholds => ?_⟩
      · rw [hhooks]
        simp
      · have hinside := h.guards.inside_of_holds hholds
        have hout' : c.sys.role p = .out := by
          rw [hsys] at hout
          exact hout
        rw [role_of_none hrun, hout'] at hinside
        simp at hinside
  | _ => exact absurd trivial hlocked

/-! ## Whole runs -/

theorem orderly_run {as : List (PanicAction Tid)} (h : Orderly c) (hrun : run step c as = some c') :
    Orderly c' :=
  run_invariant (fun _ _ _ h hstep => orderly_step h (step_sound hstep)) h hrun

/-- **A hook that waits for its own thread waits for ever.** -/
theorem selfBlocked_run {as : List (PanicAction Tid)} (h : Orderly c) (hblocked : SelfBlocked c)
    (hrun : run step c as = some c') : SelfBlocked c' := by
  obtain ⟨p, hcaught⟩ := (selfBlocked_iff h).1 hblocked
  have hkeep : ∀ r a (r' : PanicSys W ω Tid), r.Caught p → step r a = some r' → r'.Caught p :=
    fun _ _ _ hcaught hstep => caught_step hcaught (step_sound hstep)
  exact (selfBlocked_iff (orderly_run h hrun)).2 ⟨p, run_invariant hkeep hcaught hrun⟩

section Run

variable {w : W} {config : LoggerConfig} {logPath : PathBuf} {todo : Tid → List Call}
  {s₀ : Sys W ω Tid} {as : List (PanicAction Tid)}

theorem orderly_boot (hboot : boot w config logPath todo = .ok s₀) : Orderly (installed s₀) := by
  obtain ⟨w', globalFile, rfl⟩ := Sys.boot_ok hboot
  refine ⟨RwLock.Exact.free_out fun p => ?_, fun p hne => absurd rfl hne,
    fun p hcaught => absurd rfl hcaught.1⟩
  cases p <;> rfl

/-- **When the panic hook can report.**  In a run of a logger with its hook installed, no hook ever
waits for a thread that is its own exactly when no thread panics with a guard in its hand. -/
theorem hookFree_iff (hboot : boot w config logPath todo = .ok s₀)
    (hrun : run step (installed s₀) as = some c) :
    Always step (fun r => ¬ SelfBlocked r) (installed s₀) as ↔
      StepsMeet step PanicsUnlocked (installed s₀) as := by
  have hsafe : ∀ r : PanicSys W ω Tid, (Orderly r ∧ ∀ p, ¬ r.Caught p) → ¬ SelfBlocked r := by
    rintro r ⟨h, hfree⟩ hblocked
    obtain ⟨p, hcaught⟩ := (selfBlocked_iff h).1 hblocked
    exact hfree p hcaught
  refine always_iff_stepsMeet hsafe ?_ ?_
    ⟨orderly_boot hboot, fun p hcaught => hcaught.1 rfl⟩ hrun
  · rintro r a r' ⟨h, hfree⟩ hunlocked hstep
    exact ⟨orderly_step h (step_sound hstep), not_caught_step h hfree hunlocked (step_sound hstep)⟩
  · rintro r a r' ⟨h, -⟩ hlocked hstep hsafe
    have horderly := orderly_step h (step_sound hstep)
    exact hsafe ((selfBlocked_iff horderly).2 (caught_of_panic h hlocked (step_sound hstep)))

end Run

/-- One caller adds a sink and logs. -/
def sinkAndLog : Unit → List Call := fun _ =>
  [.write .addSink, .read [.queueLog (Scenario.log "a")]]

/-- A panic in a sink. -/
def sinkPanic : PanicHookInfo := ⟨.str "sink".toList, "src/sink.rs".toList, 3, 7⟩

/-- The entry reaches the sink, and the sink panics. -/
def sinkPanics : List (PanicAction Unit) :=
  (Scenario.callerSteps () 9 ++ Scenario.logThreadSteps 7).map
      (fun a => .program a sinkPanic "bt".toList Scenario.time) ++
    [.panic .logThread sinkPanic "bt".toList Scenario.time]

/-- The hook waits for the read guard under which the sink was called, and no other thread gets a
guard any more. -/
theorem sinkPanics_blocks :
    ∃ c, run step (installed (Scenario.start .default sinkAndLog)) sinkPanics = some c ∧
      SelfBlocked c ∧ .logThread ∈ c.sys.lock.readers ∧
      c.hooks .logThread =
        some (.write .await (panicRecord sinkPanic Scenario.time) (some "bt".toList)) ∧
      c.sys.lock.tryRead (.caller ()) = none := by
  have hend : (run step (installed (Scenario.start .default sinkAndLog)) sinkPanics).map (fun c =>
      (c.hooks .logThread, decide (.logThread ∈ c.sys.lock.readers), c.sys.lock.waiting)) =
      some (some (.write .await (panicRecord sinkPanic Scenario.time) (some "bt".toList)), true,
        [.logThread]) := by
    decide +kernel
  obtain ⟨c, hrun, hc⟩ := Option.map_eq_some_iff.1 hend
  simp only [Prod.mk.injEq, decide_eq_true_eq] at hc
  obtain ⟨hhook, hreader, hwaiting⟩ := hc
  refine ⟨c, hrun, ⟨.logThread, ?_, .inl hreader⟩, hreader, hhook,
    RwLock.tryRead_of_waiting (hwaiting ▸ List.mem_singleton_self _) _⟩
  simp only [Waits, hhook]
  exact RwLock.tryWrite_of_reader hreader _

theorem hookFree_iff_sinkPanics :
    Always step (fun r => ¬ SelfBlocked r) (installed (Scenario.start .default sinkAndLog))
        sinkPanics ↔
      StepsMeet step PanicsUnlocked (installed (Scenario.start .default sinkAndLog)) sinkPanics := by
  have hsome : (run step (installed (Scenario.start .default sinkAndLog)) sinkPanics).isSome := by
    decide +kernel
  obtain ⟨c, hrun⟩ := Option.isSome_iff_exists.1 hsome
  exact hookFree_iff (boot_disk Scenario.disk .default Scenario.logPath sinkAndLog) hrun

end PanicSys

end Paperlog
