import Paperlog.Model.Ffi
import Paperlog.Model.Scenario
import Paperlog.Properties.Failure

/-!
# After the death of the logging thread

Nothing tells the callers that the logging thread has ended: `inited` stays set, the queue stays
open, and `paper2_queue_log_ffi` goes on answering `true`.  `StrandsLogs` is the state in which logs
are accepted, or are waiting, that nobody will ever write; `strandsLogs_iff` says that every state
without the thread is one, and `accepted_not_stranded` that a run in whose steps nothing fails meets
none, be it a build with the logcat backend or without.

The error branch of the thread flushes first and logs its last record afterwards.  That record ends
in a line end, which stays in the buffer of the global file; nobody is left to flush it
(`lastRecord_pending`).
-/

namespace Paperlog

namespace Sys

open Transition LoggerThreadCtx LogThreadPc

variable {W ω Tid : Type}

/-! ## Accepted and stranded -/

/-- `paper2_queue_log_ffi` answers `true` to some logs, and `paper2_get_inited` does. -/
def AcceptsLogs (s : Sys W ω Tid) : Prop :=
  (∃ args now, (paper2QueueLogFfi (some s) args now).2 = true) ∧ paper2GetInited (some s) = true

/-- The logging thread has ended, but logs are still accepted, or some are still queued. -/
def StrandsLogs (s : Sys W ω Tid) : Prop :=
  (∃ error, s.logThread.pc = .terminated error) ∧ (s.AcceptsLogs ∨ s.queue ≠ [])

theorem acceptsLogs_of_inited {s : Sys W ω Tid} (h : s.ctx.inited = true) : s.AcceptsLogs := by
  have hanswer : (paper2QueueLogFfi (some s) ⟨.info, none, some [], some [], 0, 0, none⟩
      ⟨0, []⟩).2 = true := rfl
  exact ⟨⟨_, _, hanswer⟩, h⟩

theorem not_strandsLogs_of_running {s : Sys W ω Tid} (h : s.logThread.pc.Running) :
    ¬ s.StrandsLogs := by
  rintro ⟨⟨error, hpc⟩, -⟩
  rw [hpc] at h
  cases error with
  | none => exact h.2 rfl
  | some e => cases h.1

theorem running_boot [FileIo W ω] {w : W} {config : LoggerConfig} {logPath : PathBuf}
    {todo : Tid → List Call} {s₀ : Sys W ω Tid} (hboot : boot w config logPath todo = .ok s₀) :
    s₀.logThread.pc.Running ∧ s₀.ctx.inited = true := by
  obtain ⟨w', globalFile, rfl⟩ := boot_ok hboot
  exact ⟨⟨rfl, nofun⟩, rfl⟩

/-- A sink is registered, and then two entries are queued. -/
def sinkAndTwoLogs : Unit → List Call := fun _ =>
  [.write .addSink, .paper2QueueLogFfi (Scenario.log "a"), .paper2QueueLogFfi (Scenario.log "b")]

def sinkError : LoggerError := .logError "sink".toList

/-- The sink refuses the first entry. -/
def sinkRefuses : List (Action Unit) :=
  Scenario.callerSteps () 9 ++ Scenario.failingSteps sinkError 17

/-! ## The last record -/

/-- At these points the record of the error has been handed to the global file. -/
def LastRecordOut : LogThreadPc → Prop
  | .wantRead (.sinks _ _ _ dying) | .reading (.sinks _ _ _ dying) => dying ≠ none
  | .terminated error => error ≠ none
  | _ => False

theorem not_lastRecordOut_of_running {pc : LogThreadPc} (h : pc.error = none) :
    ¬ LastRecordOut pc := by
  intro hout
  unfold LastRecordOut at hout
  split at hout
  · exact hout h
  · exact hout h
  · exact hout h
  · exact hout

section Disk

variable {Tid : Type} [DecidableEq Tid] {resolve : PathBuf → Place} {disk : Disk resolve}
  {config : LoggerConfig} {logPath : PathBuf} {todo : Tid → List Call}
  {s s' s₀ : Sys (Disk resolve) BufWriter Tid} {as : List (Action Tid)}
  {e : LoggerError}

/-- From then on the buffer of the global file is not empty. -/
def LastRecordPending (s : Sys (Disk resolve) BufWriter Tid) : Prop :=
  LastRecordOut s.logThread.pc → s.ctx.globalFile.buf ≠ []

theorem lastRecordPending_step {a : Action Tid} (h : LastRecordPending s)
    (hstep : s.step a = some s') : LastRecordPending s' := by
  intro hout
  cases step_sound hstep with
  | caller hcaller =>
      rw [hcaller.frame.globalFile]
      rw [hcaller.frame.logThread] at hout
      exact h hout
  | logThread hlog =>
      cases hlog with
      | take hpc =>
          simp only [takeQueue] at hout
          split at hout <;> exact hout.elim
      | enter hpc hlock =>
          rename_i sec lock
          apply h
          rw [hpc]
          cases sec <;> exact hout
      | sink hpc hi hresult =>
          apply h
          rw [hpc]
          exact hout
      | errorSinkFailed hpc hi hresult =>
          apply h
          rw [hpc]
          exact hout
      | errorSinksDone hpc hi =>
          apply h
          rw [hpc]
          exact hout
      | splitPanic hpc hsplit => exact absurd rfl hout
      | sinksDone hpc hi => exact absurd hout (not_lastRecordOut_of_running (error_nextRecord _))
      | batch hpc hio => exact absurd hout (not_lastRecordOut_of_running (error_nextRecord _))
      | errorRecord hpc hio => exact (Logged.of_fileDoLog hio).globalFile_buf
      | errorRecordFailed hpc hio => exact absurd hio (fileDoLog_ne_error _ _ _)
      | park hpc hflag =>
          rw [hpc] at hout
          exact hout.elim
      | _ => exact hout.elim
  | spurious hparked => exact h hout
  | timeout hparked hpc => exact h hout

/-- **The last record is never flushed.**  The file system never failing, whenever the thread has
ended with an error and its error branch is over, the global file has pending bytes. -/
theorem lastRecord_pending (hboot : boot disk config logPath todo = .ok s₀)
    (hrun : run step s₀ as = some s) (hdead : s.logThread.pc = .terminated (some e)) :
    s.ctx.globalFile.buf ≠ [] := by
  have hstart : LastRecordPending s₀ := by
    obtain ⟨w, globalFile, rfl⟩ := boot_ok hboot
    exact False.elim
  apply run_invariant (fun _ _ _ h hstep => lastRecordPending_step h hstep) hstart hrun
  rw [hdead]
  exact Option.some_ne_none e

end Disk

/-- The thread has ended with the error of the sink.  The entry it wrote before is in the file; the
record of the error is not, though no file operation has failed. -/
theorem sinkRefuses_pending :
    ∃ s, run step (Scenario.start .default sinkAndTwoLogs) sinkRefuses = some s ∧
      s.logThread.pc = .terminated (some sinkError) ∧
      s.world.read Scenario.logPath = some (Scenario.log "a").ioLine ∧
      s.ctx.globalFile.buf = (errorRecord sinkError Scenario.time).ioLine := by
  have hend : (run step (Scenario.start .default sinkAndTwoLogs) sinkRefuses).map
      (fun s => (s.logThread.pc, s.world.read Scenario.logPath, s.ctx.globalFile.buf)) =
      some (.terminated (some sinkError), some (Scenario.log "a").ioLine,
        (errorRecord sinkError Scenario.time).ioLine) := by
    decide +kernel
  obtain ⟨s, hrun, hs⟩ := Option.map_eq_some_iff.1 hend
  simp only [Prod.mk.injEq] at hs
  exact ⟨s, hrun, hs⟩

theorem lastRecord_pending_sinkRefuses :
    ∃ s, run step (Scenario.start .default sinkAndTwoLogs) sinkRefuses = some s ∧
      s.ctx.globalFile.buf ≠ [] := by
  have hend : (run step (Scenario.start .default sinkAndTwoLogs) sinkRefuses).map
      (fun s => s.logThread.pc) = some (.terminated (some sinkError)) := by
    decide +kernel
  obtain ⟨s, hrun, hdead⟩ := Option.map_eq_some_iff.1 hend
  exact ⟨s, hrun, lastRecord_pending
    (boot_disk Scenario.disk .default Scenario.logPath sinkAndTwoLogs) hrun hdead⟩

end Sys

/-! ## With the logcat backend, and without -/

namespace LogcatSys

open Transition Sys

variable {W ω Tid : Type} [FileIo W ω] [DecidableEq Tid] {feature : LogcatFeature} {w : W}
  {config : LoggerConfig} {logPath : PathBuf} {todo : Tid → List Call} {s₀ : Sys W ω Tid}
  {c c' : LogcatSys W ω Tid} {as : List (LogcatAction Tid)}

theorem inited_step {a : LogcatAction Tid} (hstep : step feature c a = some c') :
    c'.sys.ctx.inited = c.sys.ctx.inited := by
  cases step_sound hstep with
  | program hself hprogram => exact Sys.inited_step hprogram
  | logged hfeature hpending hlog => rfl
  | panicked hfeature hpending hlog => rfl

/-- **Death always strands.**  In every state that can be reached, logs are stranded exactly when
the thread has ended. -/
theorem strandsLogs_iff (hboot : boot w config logPath todo = .ok s₀)
    (hrun : run (step feature) (start s₀) as = some c) :
    c.sys.StrandsLogs ↔ ∃ error, c.sys.logThread.pc = .terminated error := by
  have hinited : c.sys.ctx.inited = true :=
    (run_unchanged (fun _ _ _ => inited_step) hrun).trans (running_boot hboot).2
  exact ⟨And.left, fun hdead => ⟨hdead, .inl (acceptsLogs_of_inited hinited)⟩⟩

/-- **No log is stranded while nothing fails.**  In a run in whose steps no batch write, no flush
and no sink answers with an error, no batch is split with limit zero, and logcat, where there is one,
is handed no record whose tag and file are longer than its line, no state strands logs. -/
theorem accepted_not_stranded (hboot : boot w config logPath todo = .ok s₀)
    (hfine : StepsMeet (step feature) NothingFails (start s₀) as) :
    Always (step feature) (fun c => ¬ c.sys.StrandsLogs) (start s₀) as :=
  always_of_stepsMeet (fun _ h => not_strandsLogs_of_running h)
    (fun _ _ _ h hfine hstep => running_of_nothingFails h hfine hstep) (running_boot hboot).1 hfine

/-- Logcat and the sink take the first entry, and the thread lives on. -/
theorem accepted_not_stranded_sinkAndTwoLogs :
    Always (step (.on true)) (fun c => ¬ c.sys.StrandsLogs)
      (start (Scenario.start .default sinkAndTwoLogs))
      ((Scenario.callerSteps () 9 ++ Scenario.logThreadSteps 6).map .program ++
        .logcat true :: (Scenario.logThreadSteps 11).map .program) := by
  have hend : (run (step (.on true)) (start (Scenario.start .default sinkAndTwoLogs))
      ((Scenario.callerSteps () 9 ++ Scenario.logThreadSteps 6).map .program)).map
        (fun c => (c.sys.ctx.config.maxStringLen, c.pending)) =
      some (1024, some (Scenario.log "a")) := by
    decide +kernel
  obtain ⟨c, hrun, hc⟩ := Option.map_eq_some_iff.1 hend
  obtain ⟨hmax, hpending⟩ := Prod.mk.inj hc
  have hfits : Fits c (.logcat true) := by
    intro isLoggable log _ hlog
    obtain rfl := Option.some.inj (hpending.symm.trans hlog)
    decide
  have hsinks : ∀ a ∈ Scenario.callerSteps () 9 ++ Scenario.logThreadSteps 6, a.SinkOk := by
    rw [List.forall_mem_append]
    exact ⟨Scenario.sinkOk_callerSteps _ _, Scenario.sinkOk_logThreadSteps _⟩
  refine accepted_not_stranded
    (boot_disk Scenario.disk .default Scenario.logPath sinkAndTwoLogs)
    (stepsMeet_append (nothingFails_disk (by decide) hsinks) hrun ⟨⟨nofun, hfits⟩, ?_⟩)
  intro d hstep
  refine nothingFails_disk ?_ (Scenario.sinkOk_logThreadSteps _)
  have hsame : d.sys.ctx = c.sys.ctx := by
    cases step_sound hstep with
    | logged hfeature hpending hlog => rfl
    | panicked hfeature hpending hlog => rfl
  rw [hsame, hmax]
  decide

/-- A record with a long tag is queued, and then another one. -/
def longTagAndLog : Unit → List Call := fun _ =>
  [.paper2QueueLogFfi longTag, .paper2QueueLogFfi (Scenario.log "b")]

/-- A sink refuses the first entry, and the second comes when the thread has ended; and on Android a
record with a long tag ends the thread as well, and the next one is accepted. -/
theorem sinkRefuses_strands :
    (∃ c, run (step .off) (start (Scenario.start .default sinkAndTwoLogs))
        ((sinkRefuses ++ Scenario.callerSteps () 5).map .program) = some c ∧
      c.sys.StrandsLogs ∧ c.sys.AcceptsLogs ∧ c.sys.queue = [Scenario.log "b"]) ∧
    ∃ c, run (step (.on false)) (start (Scenario.start .default longTagAndLog))
        (longTagRun ++ (Scenario.callerSteps () 5).map .program) = some c ∧
      c.sys.StrandsLogs ∧ c.sys.AcceptsLogs ∧ c.sys.queue = [Scenario.log "b"] := by
  have strands : ∀ (error) {r : Option (LogcatSys (Disk Scenario.resolve) BufWriter Unit)},
      r.map (fun c => (c.sys.logThread.pc, c.sys.ctx.inited, c.sys.queue)) =
        some (.terminated error, true, [Scenario.log "b"]) →
      ∃ c, r = some c ∧ c.sys.StrandsLogs ∧ c.sys.AcceptsLogs ∧
        c.sys.queue = [Scenario.log "b"] := by
    intro error r hend
    obtain ⟨c, hrun, hc⟩ := Option.map_eq_some_iff.1 hend
    simp only [Prod.mk.injEq] at hc
    obtain ⟨hpc, hinited, hqueue⟩ := hc
    have haccepts := acceptsLogs_of_inited hinited
    exact ⟨c, hrun, ⟨⟨_, hpc⟩, .inl haccepts⟩, haccepts, hqueue⟩
  constructor
  · exact strands (some sinkError) (by decide +kernel)
  · exact strands none (by decide +kernel)

end LogcatSys

end Paperlog
