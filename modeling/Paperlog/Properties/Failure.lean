import Paperlog.Model.LogcatSys
import Paperlog.Model.Scenario
import Paperlog.Properties.Delivery
import Paperlog.Properties.LogcatSlices

/-!
# What can end the logging thread

`log_thread` loops for ever unless one of its `?` meets an error, the split panics, or, on Android,
the slices of the logcat backend do.  `Succeeds` says of one step that no backend answers it with an
error, `NothingFails` that it does not panic either.  Both are conditions on the state before the step
and on what the environment answers.

`running_iff_nothingFails` is exact, with the logcat backend and without it: the runs in which
`log_thread` stays in its loop are those whose steps all meet the condition, because the loop is left
at the first step that does not.  Until logcat panics the program of a logger with that backend runs
as it does without (`sys_run`).
-/

namespace Paperlog

namespace Sys

open Transition LoggerThreadCtx LogThreadPc

variable {W ω Tid : Type} [FileIo W ω]

/-- No backend refuses: the batch, the flush and every sink that is called succeed. -/
structure Succeeds (s : Sys W ω Tid) (a : Action Tid) : Prop where
  batch : ∀ {result now queue logs e r}, a = .logThread result now →
    s.logThread.pc = .write .held (.batch queue logs) → doLogBatch logs (s.world, s.ctx) ≠ .error e r
  flush : ∀ {result now dying e r}, a = .logThread result now →
    s.logThread.pc = .write .held (.flush dying) → flushFiles (s.world, s.ctx) ≠ .error e r
  sink : ∀ {result now i log rest dying}, a = .logThread result now →
    s.logThread.pc = .reading (.sinks i log rest dying) → i < s.ctx.sinks.length → result = .ok ()

/-- Nor does the split panic. -/
structure NothingFails (s : Sys W ω Tid) (a : Action Tid) : Prop where
  succeeds : Succeeds s a
  split : ∀ {result now queue}, a = .logThread result now →
    s.logThread.pc = .reading (.config queue) → queue = [] ∨ s.ctx.config.maxStringLen ≠ 0

variable [DecidableEq Tid] {s s' : Sys W ω Tid}

/-- While nothing fails, `log_thread` returns no error. -/
theorem noError_of_succeeds {a : Action Tid} (h : s.logThread.pc.error = none)
    (hsucceeds : Succeeds s a) (hstep : s.step a = some s') : s'.logThread.pc.error = none := by
  cases step_sound hstep with
  | caller hcaller => rwa [hcaller.frame.logThread]
  | logThread hlog =>
      cases hlog with
      | take hpc =>
          simp only [takeQueue]
          split <;> rfl
      | enter hpc hlock => exact (sameSection_reading _).error_eq.trans (hpc ▸ h)
      | sink hpc hi hresult =>
          rw [hpc] at h
          exact h
      | sinkFailed hpc hi hresult =>
          have hok := hsucceeds.sink rfl hpc hi
          rw [hresult] at hok
          cases hok
      | errorSinkFailed hpc hi hresult =>
          have hok := hsucceeds.sink rfl hpc hi
          rw [hresult] at hok
          cases hok
      | sinksDone hpc hi => exact error_nextRecord _
      | request hpc => exact (sameSection_write _ _ _).error_eq.trans (hpc ▸ h)
      | grant hpc hlock => exact (sameSection_write _ _ _).error_eq.trans (hpc ▸ h)
      | batch hpc hio => exact error_nextRecord _
      | batchFailed hpc hio => exact absurd hio (hsucceeds.batch rfl hpc)
      | flush hpc hio =>
          rw [hpc] at h
          exact h
      | flushFailed hpc hio => exact absurd hio (hsucceeds.flush rfl hpc)
      | park hpc hflag => exact h
      | errorFlushed hpc =>
          rw [hpc] at h
          cases h
      | errorFlushFailed hpc hio => exact absurd hio (hsucceeds.flush rfl hpc)
      | errorRecord hpc hio =>
          rw [hpc] at h
          cases h
      | errorRecordFailed hpc hio =>
          rw [hpc] at h
          cases h
      | errorSinksDone hpc hi =>
          rw [hpc] at h
          cases h
      | _ => rfl
  | spurious hparked => exact h
  | timeout hparked hpc => exact h

/-- Only the split panics. -/
theorem noPanic_of_split {a : Action Tid} (h : s.logThread.pc ≠ .terminated none)
    (hsplit : ∀ result now queue, a = .logThread result now →
      s.logThread.pc = .reading (.config queue) → queue = [] ∨ s.ctx.config.maxStringLen ≠ 0)
    (hstep : s.step a = some s') : s'.logThread.pc ≠ .terminated none := by
  intro hpanic
  cases step_sound hstep with
  | caller hcaller => exact h (by rwa [hcaller.frame.logThread] at hpanic)
  | logThread hlog =>
      cases hlog with
      | take hpc =>
          simp only [takeQueue] at hpanic
          split at hpanic <;> cases hpanic
      | splitPanic hpc hnone =>
          obtain ⟨hqueue, hmax⟩ := splitStrIntoChunks_eq_none.1 hnone
          rcases hsplit _ _ _ rfl hpc with hempty | hpos
          · exact hqueue hempty
          · exact hpos hmax
      | sinksDone hpc hi => exact (running_nextRecord _).2 hpanic
      | batch hpc hio => exact (running_nextRecord _).2 hpanic
      | park hpc hflag => exact h hpanic
      | _ => cases hpanic
  | spurious hparked => exact h hpanic
  | timeout hparked hpc => exact h hpanic

/-- Where a batch is split with limit zero, the thread panics. -/
theorem panic_of_split {queue : List LogData} {result : Except LoggerError Unit} {now : DateTime}
    (hpc : s.logThread.pc = .reading (.config queue)) (hqueue : queue ≠ [])
    (hmax : s.ctx.config.maxStringLen = 0) (hstep : s.step (.logThread result now) = some s') :
    s'.logThread.pc = .terminated none := by
  have hnone := splitStrIntoChunks_eq_none.2 ⟨hqueue, hmax⟩
  cases logThreadStep_sound hstep with
  | splitPanic hpc' hsplit => rfl
  | split hpc' hsplit =>
      rw [hpc] at hpc'
      cases hpc'
      rw [hnone] at hsplit
      cases hsplit
  | _ hpc' =>
      rw [hpc] at hpc'
      cases hpc'

theorem running_of_nothingFails {a : Action Tid} (h : s.logThread.pc.Running)
    (hfine : NothingFails s a) (hstep : s.step a = some s') : s'.logThread.pc.Running :=
  ⟨noError_of_succeeds h.1 hfine.succeeds hstep,
    noPanic_of_split h.2 (fun _ _ _ => hfine.split) hstep⟩

/-- A step that fails leaves the loop. -/
theorem not_running_of_failure {a : Action Tid} (hfails : ¬ NothingFails s a)
    (hstep : s.step a = some s') : ¬ s'.logThread.pc.Running := by
  intro hrun
  refine hfails ⟨⟨?_, ?_, ?_⟩, ?_⟩
  · rintro result now queue logs e r rfl hpc hio
    cases logThreadStep_sound hstep with
    | batch hpc' hio' =>
        rw [hpc] at hpc'
        cases hpc'
        rw [hio] at hio'
        cases hio'
    | batchFailed hpc' hio' => cases hrun.1
    | _ hpc' =>
        rw [hpc] at hpc'
        cases hpc'
  · rintro result now dying e r rfl hpc hio
    cases logThreadStep_sound hstep with
    | flush hpc' hio' =>
        rw [hio] at hio'
        cases hio'
    | flushFailed hpc' hio' => cases hrun.1
    | errorFlushFailed hpc' hio' => cases hrun.1
    | _ hpc' =>
        rw [hpc] at hpc'
        cases hpc'
  · rintro result now i log rest dying rfl hpc hi
    cases logThreadStep_sound hstep with
    | sink hpc' hi' hresult => exact hresult
    | sinkFailed hpc' hi' hresult => cases hrun.1
    | errorSinkFailed hpc' hi' hresult => cases hrun.1
    | sinksDone hpc' hi' =>
        rw [hpc] at hpc'
        cases hpc'
        omega
    | errorSinksDone hpc' hi' => cases hrun.1
    | _ hpc' =>
        rw [hpc] at hpc'
        cases hpc'
  · rintro result now queue rfl hpc
    by_contra hboth
    rw [not_or, not_not] at hboth
    exact hrun.2 (panic_of_split hpc hboth.1 hboth.2 hstep)

omit [FileIo W ω] [DecidableEq Tid] in
/-- Nothing fails on a disk that never fails with sinks that never refuse. -/
theorem succeeds_disk {resolve : PathBuf → Place} {s : Sys (Disk resolve) BufWriter Tid}
    {a : Action Tid} (ha : a.SinkOk) :
    Succeeds s a where
  batch _ _ := doLogBatch_ne_error _ _ _
  flush _ _ := flushFiles_ne_error _ _
  sink heq _ _ := by
    subst heq
    exact ha

end Sys

/-! ## With the logcat backend -/

namespace LogcatSys

open Transition LogcatLogger

variable {W ω Tid : Type} [FileIo W ω] [DecidableEq Tid] {feature : LogcatFeature}
  {c c' : LogcatSys W ω Tid}

/-- `do_log` does not panic: of the record that is handed over, tag and file together are not longer
than the line with its location and message. -/
def Fits (c : LogcatSys W ω Tid) (a : LogcatAction Tid) : Prop :=
  ∀ isLoggable log, a = .logcat isLoggable → c.pending = some log → fileLen log ≤ messageLen log

/-- Neither the program nor logcat. -/
structure NothingFails (c : LogcatSys W ω Tid) (a : LogcatAction Tid) : Prop where
  program : ∀ b, a = .program b → c.sys.NothingFails b
  logcat : Fits c a

/-- Until a call panics, the steps of the program are a run of the system without the backend. -/
theorem sys_run {as : List (LogcatAction Tid)} (hfits : StepsMeet (step feature) Fits c as)
    (hrun : run (step feature) c as = some c') :
    run Sys.step c.sys (as.filterMap LogcatAction.toAction) = some c'.sys := by
  induction as generalizing c with
  | nil => exact congrArg (Option.map sys) hrun
  | cons a as ih =>
      obtain ⟨d, hstep, hrest⟩ := run_cons_some hrun
      have htail := ih (hfits.2 d hstep) hrest
      cases step_sound hstep with
      | @program b sys hself hprogram =>
          rw [List.filterMap_cons_some (show LogcatAction.toAction (.program b) = some b from rfl),
            run_cons, hprogram]
          exact htail
      | logged hfeature hpending hlog => exact htail
      | panicked hfeature hpending hlog =>
          have hshort := hfits.1 _ _ rfl hpending
          exact absurd ((doLog_eq_none_iff _ _ _ _).1 hlog) (Nat.not_lt.2 hshort)

theorem running_of_nothingFails {a : LogcatAction Tid} (h : c.sys.logThread.pc.Running)
    (hfine : NothingFails c a) (hstep : step feature c a = some c') :
    c'.sys.logThread.pc.Running := by
  cases step_sound hstep with
  | program hself hprogram => exact Sys.running_of_nothingFails h (hfine.program _ rfl) hprogram
  | logged hfeature hpending hlog => exact h
  | panicked hfeature hpending hlog =>
      have hshort := hfine.logcat _ _ rfl hpending
      exact absurd ((doLog_eq_none_iff _ _ _ _).1 hlog) (Nat.not_lt.2 hshort)

/-- A step that fails leaves the loop. -/
theorem not_running_of_failure {a : LogcatAction Tid} (hfails : ¬ NothingFails c a)
    (hstep : step feature c a = some c') : ¬ c'.sys.logThread.pc.Running := by
  cases step_sound hstep with
  | @program b sys hself hprogram =>
      refine Sys.not_running_of_failure (fun hfine => hfails ⟨?_, nofun⟩) hprogram
      rintro _ ⟨⟩
      exact hfine
  | @logged api30 isLoggable log call buffer hfeature hpending hlog =>
      refine absurd ⟨nofun, ?_⟩ hfails
      rintro _ log' - hlog'
      obtain rfl := Option.some.inj (hpending.symm.trans hlog')
      by_contra hlong
      rw [(doLog_eq_none_iff _ _ _ _).2 (Nat.lt_of_not_le hlong)] at hlog
      cases hlog
  | panicked hfeature hpending hlog => exact fun hrunning => hrunning.2 rfl

/-- On a disk that never fails, with sinks that never refuse, no step of the program fails. -/
theorem nothingFails_disk {resolve : PathBuf → Place}
    {c : LogcatSys (Disk resolve) BufWriter Tid} {as : List (Action Tid)}
    (hmax : c.sys.ctx.config.maxStringLen ≠ 0) (hsinks : ∀ a ∈ as, a.SinkOk) :
    StepsMeet (step feature) NothingFails c (as.map .program) := by
  induction as generalizing c with
  | nil => trivial
  | cons a as ih =>
      have hsucceeds : c.sys.Succeeds a := Sys.succeeds_disk (hsinks a List.mem_cons_self)
      refine ⟨⟨?_, nofun⟩, fun d hstep => ?_⟩
      · rintro _ ⟨⟩
        exact ⟨hsucceeds, fun _ _ => .inr hmax⟩
      · cases step_sound hstep with
        | program hself hprogram =>
            refine ih ?_ fun b hb => hsinks b (List.mem_cons_of_mem a hb)
            rw [show (c.arrive feature a _).sys.ctx.config = c.sys.ctx.config from
              Sys.config_step hprogram]
            exact hmax

/-- **When the loop is left.**  With the logcat backend or without, `log_thread` neither returns nor
panics in a run exactly when nothing fails in its steps. -/
theorem running_iff_nothingFails {s₀ : Sys W ω Tid} {as : List (LogcatAction Tid)}
    (hstart : s₀.logThread.pc.Running) (hrun : run (step feature) (start s₀) as = some c) :
    Always (step feature) (fun r => r.sys.logThread.pc.Running) (start s₀) as ↔
      StepsMeet (step feature) NothingFails (start s₀) as :=
  always_iff_stepsMeet (fun _ h => h)
    (fun _ _ _ h hfine hstep => running_of_nothingFails h hfine hstep)
    (fun _ _ _ _ hfails hstep => not_running_of_failure hfails hstep) hstart hrun

/-- A record whose tag is longer than its location and its message. -/
def longTag : LogData := { Scenario.log "a" with tag := some "LongContext".toList }

def logLongTag : Unit → List Call := fun _ => [.read [.queueLog longTag]]

/-- It is queued, written, and handed to logcat. -/
def longTagRun : List (LogcatAction Unit) :=
  (Scenario.callerSteps () 5 ++ Scenario.logThreadSteps 6).map .program ++ [.logcat true]

theorem running_iff_nothingFails_longTag :
    ∃ c, run (step (.on false)) (start (Scenario.start .default logLongTag)) longTagRun = some c ∧
      ¬ c.sys.logThread.pc.Running ∧
      (Always (step (.on false)) (fun r => r.sys.logThread.pc.Running)
          (start (Scenario.start .default logLongTag)) longTagRun ↔
        StepsMeet (step (.on false)) NothingFails
          (start (Scenario.start .default logLongTag)) longTagRun) := by
  have hend : (run (step (.on false)) (start (Scenario.start .default logLongTag))
      longTagRun).map (fun c => c.sys.logThread.pc) = some (.terminated none) := by
    decide +kernel
  obtain ⟨c, hrun, hpc⟩ := Option.map_eq_some_iff.1 hend
  refine ⟨c, hrun, ?_, running_iff_nothingFails ⟨rfl, nofun⟩ hrun⟩
  intro hrunning
  exact hrunning.2 hpc

end LogcatSys

end Paperlog
