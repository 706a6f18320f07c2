import Paperlog.Model.Scenario
import Paperlog.Model.SinkCallbacks

/-!
# May a sink log?

A callback that logs takes a read guard inside the read guard of `sink_logger::do_log`.  It gets it
unless a writer waits: the writer then waits for the outer guard, and the inner `read()` waits
behind the writer, for ever (`stuck_run`).  `sinksMayLog_iff` says which runs avoid this: no writer
waits when a callback begins to log, and none arrives before the call has its guard.
-/

namespace Paperlog

open RwLock (Role)
open Sys (boot boot_disk)

namespace CallbackSys

open Transition

variable {W ω Tid : Type} [DecidableEq Tid] {c c' : CallbackSys W ω Tid}

/-- The logging thread waits for the lock. -/
def Waits (c : CallbackSys W ω Tid) : Prop :=
  match c.nested, c.sys.logThread.pc with
  | some (.wantRead _), _ => c.sys.lock.tryRead .logThread = none
  | none, .wantRead _ => c.sys.lock.tryRead .logThread = none
  | none, .write .await _ => c.sys.lock.tryWrite .logThread = none
  | _, _ => False

/-- It waits for the lock and holds a read guard on it. -/
def BlockedReading (c : CallbackSys W ω Tid) : Prop :=
  c.Waits ∧ .logThread ∈ c.sys.lock.readers

omit [DecidableEq Tid] in
/-- A nested call that is about to read. -/
def WantsNested (c : CallbackSys W ω Tid) : Prop := ∃ log, c.nested = some (.wantRead log)

/-- No writer comes between the two read guards. -/
def NoWriterBetween (c : CallbackSys W ω Tid) : CallbackAction Tid → Prop
  | .callback _ => c.sys.lock.waiting = []
  | .program (.caller t) =>
      ∀ call, (c.sys.callers t).pc = .write .request call → ¬ c.WantsNested
  | _ => True

/-- The read guards of the logging thread are those of its own section and of the nested call, and
no writer waits in front of the call. -/
structure Clear (c : CallbackSys W ω Tid) : Prop where
  guards : c.sys.lock.readers.count .logThread =
    (c.sys.role .logThread).reads + (c.nested.elim 0 NestedPc.reads)
  inside : c.nested ≠ none → c.sys.role .logThread = .reading
  noWriter : c.WantsNested → c.sys.lock.waiting = []

theorem Clear.mem_readers (h : Clear c) (hrole : c.sys.role .logThread = .reading) :
    .logThread ∈ c.sys.lock.readers := by
  apply List.count_pos_iff.1
  rw [h.guards, hrole]
  simp only [Role.reads]
  omega

theorem not_blockedReading_of_clear (h : Clear c) : ¬ BlockedReading c := by
  rintro ⟨hwaits, hmem⟩
  have houtside : c.nested = none → c.sys.role .logThread ≠ .reading → False := by
    intro hnested hrole
    have hguards := h.guards
    have hpos := List.count_pos_iff.2 hmem
    rw [hnested] at hguards
    cases hr : c.sys.role .logThread with
    | reading => exact hrole hr
    | _ =>
        rw [hr] at hguards
        simp only [Role.reads, Option.elim] at hguards
        omega
  unfold Waits at hwaits
  split at hwaits
  · rename_i log hnested
    have hwriter : c.sys.lock.writer = none := by
      rcases c.sys.lock.excl with hnil | hnone
      · rw [hnil] at hmem
        exact absurd hmem List.not_mem_nil
      · exact hnone
    have hfree := h.noWriter ⟨log, hnested⟩
    simp [RwLock.tryRead, hwriter, hfree] at hwaits
  · rename_i hnested hpc
    exact houtside hnested (by simp [Sys.role, hpc, LogThreadPc.role])
  · rename_i hnested hpc
    exact houtside hnested (by simp [Sys.role, hpc, LogThreadPc.role])
  · exact hwaits

/-! ## Steps without a writer in between -/

omit [DecidableEq Tid] in
/-- Only the request for the write guard makes a caller a waiting writer. -/
theorem request_of_role {d d' : Caller} (hnext : Sys.CallerNext d d') (hout : d.pc.role = .out)
    (hawait : d'.pc.role = .awaiting) : ∃ call, d.pc = .write .request call := by
  cases hnext with
  | request call todo => exact ⟨call, rfl⟩
  | enter ops todo =>
      rw [Sys.role_startOp] at hawait
      cases hawait
  | next op ops todo => cases hout
  | _ => cases hawait

variable [FileIo W ω]

theorem clear_program {a : Action Tid} {sys : Sys W ω Tid} (h : Clear c)
    (hself : a.actor = .logThread → c.nested = none) (hnone : NoWriterBetween c (.program a))
    (hstep : c.sys.step a = some sys) : Clear { c with sys } := by
  obtain ⟨hmove, hrole⟩ := Sys.move_step hstep
  by_cases hactor : a.actor = .logThread
  · have hnested := hself hactor
    rw [hactor] at hmove
    refine ⟨hmove.count_self h.guards, fun hne => absurd hnested hne, ?_⟩
    rintro ⟨log, hlog⟩
    rw [hnested] at hlog
    cases hlog
  · have hsame : sys.role .logThread = c.sys.role .logThread := by
      rw [hrole, Function.update_of_ne (Ne.symm hactor)]
    refine ⟨?_, fun hne => hsame.trans (h.inside hne), fun hwants => ?_⟩
    · show sys.lock.readers.count .logThread = (sys.role .logThread).reads + _
      rw [hmove.count_of_ne (Ne.symm hactor), hsame]
      exact h.guards
    · -- A writer can only have come by a request, which the condition rules out.
      rcases hmove.waiting_nil (h.noWriter hwants) with hnil | ⟨hout, hawait⟩
      · exact hnil
      · cases Sys.step_sound hstep with
        | caller hcaller =>
            obtain ⟨call, hrequest⟩ := request_of_role hcaller.callerNext hout hawait
            exact absurd hwants (hnone call hrequest)
        | logThread hlog => exact absurd rfl hactor
        | spurious hparked =>
            have hkept : (Role.out : Role) = .awaiting := hout.symm.trans hawait
            cases hkept
        | timeout hparked hpc =>
            simp [Action.actor, Sys.role, hpc, CallerPc.role] at hout

theorem clear_step {a : CallbackAction Tid} (h : Clear c) (hnone : NoWriterBetween c a)
    (hstep : c.step a = some c') : Clear c' := by
  cases step_sound hstep with
  | program hself hsys => exact clear_program h hself hnone hsys
  | callback hnested hpc hi =>
      have hguards := h.guards
      rw [hnested] at hguards
      exact ⟨hguards, fun _ => by simp [Sys.role, hpc, LogThreadPc.role], fun _ => hnone⟩
  | enter hnested hlock =>
      have hguards := h.guards
      obtain ⟨-, -, hreaders, -, -⟩ := RwLock.tryRead_some hlock
      rw [hnested] at hguards
      refine ⟨?_, fun _ => h.inside (by simp [hnested]), ?_⟩
      · show List.count _ _ = (c.sys.role .logThread).reads + 1
        rw [hreaders, List.count_cons_self, hguards]
        rfl
      · rintro ⟨log, hlog⟩
        cases hlog
  | push hnested =>
      have hguards := h.guards
      rw [hnested] at hguards
      refine ⟨hguards, fun _ => h.inside (by simp [hnested]), ?_⟩
      rintro ⟨log, hlog⟩
      cases hlog
  | signal hnested =>
      have hguards := h.guards
      rw [hnested] at hguards
      refine ⟨hguards, fun _ => h.inside (by simp [hnested]), ?_⟩
      rintro ⟨log, hlog⟩
      cases hlog
  | leave hnested =>
      have hguards := h.guards
      rw [hnested] at hguards
      refine ⟨?_, fun hne => absurd rfl hne, ?_⟩
      · show List.count _ (c.sys.lock.releaseRead .logThread).readers =
          (c.sys.role .logThread).reads + 0
        rw [RwLock.releaseRead, List.count_erase_self, hguards]
        rfl
      · rintro ⟨log, hlog⟩
        cases hlog

/-! ## A writer in between -/

/-- The nested call waits behind a writer that waits for the logging thread. -/
structure Stuck (c : CallbackSys W ω Tid) : Prop where
  wants : c.WantsNested
  holds : .logThread ∈ c.sys.lock.readers
  writer : c.sys.lock.waiting ≠ []

omit [FileIo W ω] in
theorem blockedReading_of_stuck (h : Stuck c) : BlockedReading c := by
  obtain ⟨⟨log, hlog⟩, hholds, hwriter⟩ := h
  obtain ⟨w, hw⟩ := List.exists_mem_of_ne_nil _ hwriter
  refine ⟨?_, hholds⟩
  simp only [Waits, hlog]
  exact RwLock.tryRead_of_waiting hw .logThread

/-- A writer in between blocks the logging thread at once. -/
theorem stuck_of_step {a : CallbackAction Tid} (h : Clear c) (hwriter : ¬ NoWriterBetween c a)
    (hstep : c.step a = some c') : Stuck c' := by
  cases step_sound hstep with
  | callback hnested hpc hi =>
      have hrole : c.sys.role .logThread = .reading := by
        simp [Sys.role, hpc, LogThreadPc.role]
      exact ⟨⟨_, rfl⟩, h.mem_readers hrole, hwriter⟩
  | program hself hsys =>
      rename_i a sys
      cases a with
      | caller t =>
          simp only [NoWriterBetween, not_forall, not_not] at hwriter
          obtain ⟨call, hpc, log, hlog⟩ := hwriter
          have hmem := h.mem_readers (h.inside (by simp [hlog]))
          simp only [Sys.step, Sys.callerStep, hpc, Option.some.injEq] at hsys
          subst hsys
          exact ⟨⟨log, hlog⟩, hmem, List.cons_ne_nil _ _⟩
      | _ => exact absurd trivial hwriter
  | _ => exact absurd trivial hwriter

theorem stuck_step {a : CallbackAction Tid} (h : Stuck c) (hstep : c.step a = some c') :
    Stuck c' := by
  obtain ⟨⟨log, hlog⟩, hholds, hwriter⟩ := h
  cases step_sound hstep with
  | program hself hsys =>
      rename_i a sys
      have hactor : .logThread ≠ a.actor := by
        intro hactor
        have hnone := hself hactor.symm
        rw [hlog] at hnone
        cases hnone
      obtain ⟨hmove, -⟩ := Sys.move_step hsys
      refine ⟨⟨log, hlog⟩, ?_, hmove.waiting_ne_nil hholds hwriter⟩
      rw [← List.count_pos_iff, hmove.count_of_ne hactor, List.count_pos_iff]
      exact hholds
  | callback hnested hpc hi =>
      rw [hnested] at hlog
      cases hlog
  | enter hnested hlock => exact absurd (RwLock.tryRead_some hlock).2.1 hwriter
  | push hnested =>
      rw [hnested] at hlog
      cases hlog
  | signal hnested =>
      rw [hnested] at hlog
      cases hlog
  | leave hnested =>
      rw [hnested] at hlog
      cases hlog

/-- Once stuck, the logging thread is stuck for good. -/
theorem stuck_run {as : List (CallbackAction Tid)} (h : Stuck c) (hrun : run step c as = some c') :
    Stuck c' :=
  run_invariant (fun _ _ _ h hstep => stuck_step h hstep) h hrun

/-! ## The runs in which sinks may log -/

section Run

variable {w : W} {config : LoggerConfig} {logPath : PathBuf} {todo : Tid → List Call}
  {s₀ : Sys W ω Tid} {as : List (CallbackAction Tid)}

theorem clear_boot (hboot : boot w config logPath todo = .ok s₀) : Clear ⟨s₀, none⟩ := by
  obtain ⟨w', globalFile, rfl⟩ := Sys.boot_ok hboot
  refine ⟨rfl, fun hne => absurd rfl hne, ?_⟩
  rintro ⟨log, hlog⟩
  cases hlog

/-- **When sinks may log.**  The logging thread never waits for the lock with a read guard in its
hand exactly in the runs in which no writer comes between the two read guards. -/
theorem sinksMayLog_iff (hboot : boot w config logPath todo = .ok s₀)
    (hrun : run step (⟨s₀, none⟩ : CallbackSys W ω Tid) as = some c) :
    Always step (fun r => ¬ BlockedReading r) ⟨s₀, none⟩ as ↔
      StepsMeet step NoWriterBetween ⟨s₀, none⟩ as :=
  always_iff_stepsMeet (fun _ => not_blockedReading_of_clear)
    (fun _ _ _ h hnone hstep => clear_step h hnone hstep)
    (fun _ _ _ h hwriter hstep hsafe =>
      hsafe (blockedReading_of_stuck (stuck_of_step h hwriter hstep)))
    (clear_boot hboot) hrun

end Run

/-- One caller adds a sink, logs, and later unregisters a context. -/
def sinkAndWriter : Unit → List Call := fun _ =>
  [.write .addSink, .read [.queueLog (Scenario.log "a")], .write (.unregisterContext "T".toList)]

/-- The entry reaches the sink, the sink logs, and the caller asks for the write guard meanwhile. -/
def writerBetween : List (CallbackAction Unit) :=
  (Scenario.callerSteps () 9 ++ Scenario.logThreadSteps 7).map .program ++
    [.callback (Scenario.log "b")] ++ (Scenario.callerSteps () 2).map .program

/-- The sink's own log waits behind the caller, and the caller waits for the sink to return. -/
theorem writerBetween_blocks :
    ∃ c, run step ⟨Scenario.start .default sinkAndWriter, none⟩ writerBetween = some c ∧
      BlockedReading c ∧ Stuck c ∧
      (c.sys.callers ()).pc = .write .await (.unregisterContext "T".toList) := by
  have hend : (run step ⟨Scenario.start .default sinkAndWriter, none⟩ writerBetween).map (fun c =>
      (c.nested, decide (.logThread ∈ c.sys.lock.readers), c.sys.lock.waiting,
        (c.sys.callers ()).pc)) =
      some (some (.wantRead (Scenario.log "b")), true, [.caller ()],
        .write .await (.unregisterContext "T".toList)) := by
    decide +kernel
  obtain ⟨c, hrun, hc⟩ := Option.map_eq_some_iff.1 hend
  simp only [Prod.mk.injEq, decide_eq_true_eq] at hc
  obtain ⟨hnested, hreader, hwaiting, hcaller⟩ := hc
  have hstuck : Stuck c := ⟨⟨_, hnested⟩, hreader, by simp [hwaiting]⟩
  exact ⟨c, hrun, blockedReading_of_stuck hstuck, hstuck, hcaller⟩

theorem sinksMayLog_iff_writerBetween :
    Always step (fun r => ¬ BlockedReading r) ⟨Scenario.start .default sinkAndWriter, none⟩
        writerBetween ↔
      StepsMeet step NoWriterBetween ⟨Scenario.start .default sinkAndWriter, none⟩
        writerBetween := by
  have hsome : (run step ⟨Scenario.start .default sinkAndWriter, none⟩ writerBetween).isSome := by
    decide +kernel
  obtain ⟨c, hrun⟩ := Option.isSome_iff_exists.1 hsome
  exact sinksMayLog_iff (boot_disk Scenario.disk .default Scenario.logPath sinkAndWriter) hrun

end CallbackSys

end Paperlog
