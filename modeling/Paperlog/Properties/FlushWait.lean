import Paperlog.Properties.Pipeline
import Paperlog.Properties.Quiescence

/-!
# What a caller of `wait_for_flush` may rely on

`wait_for_flush` returns when its caller takes the flag of the queue semaphore, and that flag is
raised by every push.  So its return says nothing about the files, and in particular a thread can
take the signal of its own `queue_log`.  `waitForFlush_flushed_iff` gives the exact condition under
which the entries the caller has pushed are nevertheless flushed, read off the journal: they must
not be among the last `queue.len() + logged` entries pushed, `logged` being the counter of
`log_thread` since its last flush.

That the history variable behind this, `flushed`, means bytes in the file is `flushed_inFile`.
-/

namespace Paperlog

namespace Sys

open Transition LoggerThreadCtx

variable {Tid : Type} [DecidableEq Tid]

section Generic

variable {W ω : Type} [FileIo W ω]

/-- In this step a `wait_for_flush` of `t` returns, in state `s'`. -/
def WaitReturns (s : Sys W ω Tid) (a : Action Tid) (t : Tid) (s' : Sys W ω Tid) : Prop :=
  a = .caller t ∧ (∃ ops, (s.callers t).pc = .waiting false ops) ∧ s.logSemaphore.mutex = true ∧
    s.step a = some s'

/-- A call's entries, at their place behind those of the calls before it, are written, and a flush
has completed since. -/
def FlushCovers (s : Sys W ω Tid) (before : List (Tid × List LogData)) (logs : List LogData) : Prop :=
  before.flatMap Prod.snd ++ logs <+: s.history.written.take s.history.flushed

/-- A `wait_for_flush` that returns finds everything its thread has queued flushed. -/
def WaitMeansFlushed (s : Sys W ω Tid) (a : Action Tid) : Prop :=
  ∀ t s', WaitReturns s a t s' →
    ∀ before logs after, s'.history.pushed = before ++ (t, logs) :: after → logs ≠ [] →
      FlushCovers s' before logs

/-- The entries of a thread whose `wait_for_flush` returns lie before the last `queue.len() +
logged` entries pushed. -/
def FlushReached (s : Sys W ω Tid) (a : Action Tid) : Prop :=
  ∀ t s', WaitReturns s a t s' →
    ∀ before logs after, s.history.pushed = before ++ (t, logs) :: after → logs ≠ [] →
      s.queue.length + s.logThread.logged ≤ (after.flatMap Prod.snd).length

variable {s s' : Sys W ω Tid} {j : Journal LogData}

omit [DecidableEq Tid] [FileIo W ω] in
/-- The journal counts what is not flushed yet. -/
theorem Tracks.flushCovers_iff (h : Tracks s j) (herror : s.logThread.pc.error = none)
    {before after : List (Tid × List LogData)} {t : Tid} {logs : List LogData}
    (hpushed : s.history.pushed = before ++ (t, logs) :: after) :
    FlushCovers s before logs ↔
      s.queue.length + s.logThread.logged ≤ (after.flatMap Prod.snd).length := by
  have hentries : before.flatMap Prod.snd ++ logs ++ after.flatMap Prod.snd = j.entries := by
    rw [← h.entries, Sys.entries, hpushed]
    simp
  have htake : s.history.written.take s.history.flushed = j.entries.take j.flushed := by
    rw [h.written, h.flushed, Journal.done, List.take_take, min_eq_left j.flushed_le]
  have hprefix : before.flatMap Prod.snd ++ logs <+: j.entries := ⟨_, hentries⟩
  have hlength := congrArg List.length hentries
  have hqueue := congrArg List.length h.queue
  have hlogged := h.logged herror
  have htaken := j.taken_le
  rw [List.length_append] at hlength
  rw [Journal.length_pending] at hqueue
  rw [FlushCovers, htake, List.prefix_take_iff, and_iff_right hprefix]
  omega

/-- The step in which the wait returns changes nothing of what the condition speaks about. -/
theorem WaitReturns.history {a : Action Tid} {t : Tid} (h : WaitReturns s a t s') :
    s'.history = s.history := by
  obtain ⟨rfl, ⟨ops, hpc⟩, hflag, hstep⟩ := h
  cases callerStep_sound hstep with
  | push hpc' =>
      rw [hpc] at hpc'
      cases hpc'
  | _ => rfl

end Generic

section Disk

variable {resolve : PathBuf → Place} {disk : Disk resolve} {config : LoggerConfig}
  {logPath : PathBuf} {todo : Tid → List Call} {s s' s₀ : Sys (Disk resolve) BufWriter Tid}
  {as : List (Action Tid)}

/-- The state implements a journal and `log_thread` has returned no error. -/
def Journaling (s : Sys (Disk resolve) BufWriter Tid) : Prop :=
  (∃ j, Tracks s j) ∧ s.logThread.pc.error = none

theorem journaling_step {a : Action Tid} (h : Journaling s) (ha : a.SinkOk)
    (hstep : s.step a = some s') : Journaling s' := by
  obtain ⟨⟨j, hj⟩, herror⟩ := h
  obtain ⟨j', -, hj'⟩ := tracks_step hj hstep
  exact ⟨⟨j', hj'⟩, noError_step herror ha hstep⟩

theorem waitMeansFlushed_iff_flushReached {a : Action Tid} (h : Journaling s) (ha : a.SinkOk) :
    WaitMeansFlushed s a ↔ FlushReached s a := by
  apply forall₃_congr
  intro t s' hreturns
  have hhistory := hreturns.history
  have hpc : s'.logThread = s.logThread := by
    obtain ⟨rfl, -, -, hstep⟩ := hreturns
    exact (callerStep_sound hstep).frame.logThread
  have hcovers : ∀ before logs, FlushCovers s' before logs ↔ FlushCovers s before logs := by
    intro before logs
    rw [FlushCovers, FlushCovers, hhistory]
  obtain ⟨⟨j, hj⟩, herror⟩ := h
  rw [hhistory]
  refine forall₄_congr fun before logs after hpushed => forall_congr' fun _ => ?_
  rw [hcovers, hj.flushCovers_iff herror hpushed]

/-- **When `wait_for_flush` means flushed.**  In a run without backend errors every return of
`wait_for_flush` finds the entries of its thread flushed exactly when at every return those entries
lie before the last `queue.len() + logged` entries pushed. -/
theorem waitForFlush_flushed_iff (hboot : boot disk config logPath todo = .ok s₀)
    (hsinks : ∀ a ∈ as, a.SinkOk) :
    StepsMeet step WaitMeansFlushed s₀ as ↔ StepsMeet step FlushReached s₀ as := by
  have hstart : Journaling s₀ := by
    refine ⟨⟨_, tracks_boot hboot⟩, ?_⟩
    obtain ⟨w, globalFile, rfl⟩ := boot_ok hboot
    rfl
  exact stepsMeet_iff (fun _ _ _ h ha hstep => journaling_step h ha hstep)
    (fun _ _ h ha => waitMeansFlushed_iff_flushReached h ha) hstart hsinks

/-! ## What is flushed is in the file -/

/-- The lines of the entries counted as flushed have been put into the global file. -/
def FlushedInFile (s : Sys (Disk resolve) BufWriter Tid) : Prop :=
  linesOf s.ctx.config.maxStringLen (s.history.written.take s.history.flushed) <+:
    s.ctx.globalFile.inner.written

/-- All that is known of a state while nothing has failed. -/
structure Undisturbed (s : Sys (Disk resolve) BufWriter Tid) : Prop where
  healthy : Healthy s
  recorded : Recorded s
  clean : CleanBeforeWait s
  tracks : ∃ j, Tracks s j

theorem undisturbed_step {a : Action Tid} (h : Undisturbed s) (ha : a.SinkOk)
    (hstep : s.step a = some s') : Undisturbed s' := by
  obtain ⟨j, hj⟩ := h.tracks
  obtain ⟨j', -, hj'⟩ := tracks_step hj hstep
  exact ⟨healthy_step h.healthy ha hstep, recorded_step h.recorded hstep,
    cleanBeforeWait_step h.clean hstep, ⟨j', hj'⟩⟩

omit [DecidableEq Tid] in
theorem undisturbed_boot (hmax : 0 < config.maxStringLen)
    (hboot : boot disk config logPath todo = .ok s₀) : Undisturbed s₀ :=
  ⟨healthy_boot hmax.ne' hboot, recorded_boot hboot, cleanBeforeWait_boot hboot,
    ⟨_, tracks_boot hboot⟩⟩

theorem undisturbed_run (hmax : 0 < config.maxStringLen)
    (hboot : boot disk config logPath todo = .ok s₀) (hsinks : ∀ a ∈ as, a.SinkOk)
    (hrun : run step s₀ as = some s) : Undisturbed s :=
  run_invariant_of_forall (fun _ _ _ h ha hstep => undisturbed_step h ha hstep)
    (undisturbed_boot hmax hboot) hsinks hrun

omit [DecidableEq Tid] in
/-- Right after a flush all lines of all entries written are in the file. -/
theorem Undisturbed.inFile (h : Undisturbed s) (hclean : s.ctx.Clean) :
    s.ctx.globalFile.inner.written = linesOf s.ctx.config.maxStringLen s.history.written := by
  have hcontents := h.healthy.contents
  rw [BufWriter.contents, hclean.1, List.append_nil] at hcontents
  rw [hcontents, linesOf, eq_flatMap_pieces_of_split h.recorded.recorded]

omit [DecidableEq Tid] in
theorem FlushedInFile.grow (h : FlushedInFile s) (hconfig : s'.ctx.config = s.ctx.config)
    (hflushed : s'.history.written.take s'.history.flushed =
      s.history.written.take s.history.flushed)
    (hfile : s.ctx.globalFile.inner.written <+: s'.ctx.globalFile.inner.written) :
    FlushedInFile s' := by
  rw [FlushedInFile, hconfig, hflushed]
  exact h.trans hfile

theorem flushedInFile_logThreadStep {result : Except LoggerError Unit} {now : DateTime}
    (h : FlushedInFile s) (hs : Undisturbed s) (hstep : LogThreadStep s result now s') :
    FlushedInFile s' := by
  have hconfig := hstep.frame.config
  cases hstep with
  | batch hpc hio =>
      rename_i queue logs world ctx
      obtain ⟨j, hj⟩ := hs.tracks
      have hle : s.history.flushed ≤ s.history.written.length := by
        rw [hj.flushed, hj.written, Journal.length_done]
        exact j.flushed_le
      refine h.grow hconfig ?_ (BatchLogged.of_doLogBatch hio).globalFile_written
      show (s.history.written ++ queue).take s.history.flushed = _
      exact List.take_append_of_le_length hle
  | flush hpc hio =>
      rw [flushFiles_disk] at hio
      cases hio
      exact h.grow hconfig rfl (BufWriter.flushBuf_appended s.world s.ctx.globalFile).written
  | flushed hpc =>
      have hlines : linesOf s.ctx.config.maxStringLen
          (s.history.written.take s.history.written.length) = s.ctx.globalFile.inner.written := by
        rw [List.take_length, hs.inFile (hs.clean.atSignal hpc)]
      exact ⟨[], (List.append_nil _).trans hlines⟩
  | errorFlushed hpc =>
      have herror := hs.healthy.running.1
      rw [hpc] at herror
      cases herror
  | batchFailed hpc hio => exact absurd hio (doLogBatch_ne_error _ _ _)
  | flushFailed hpc hio => exact absurd hio (flushFiles_ne_error _ _)
  | errorFlushFailed hpc hio => exact absurd hio (flushFiles_ne_error _ _)
  | errorRecord hpc hio =>
      exact h.grow hconfig rfl (Logged.of_fileDoLog hio).globalFile_written
  | errorRecordFailed hpc hio => exact absurd hio (fileDoLog_ne_error _ _ _)
  | _ => exact h.grow hconfig rfl List.prefix_rfl

theorem flushedInFile_step {a : Action Tid} (h : FlushedInFile s) (hs : Undisturbed s)
    (hstep : s.step a = some s') : FlushedInFile s' := by
  cases step_sound hstep with
  | caller hcaller =>
      have hframe := hcaller.frame
      have hflushed : s'.history.written.take s'.history.flushed =
          s.history.written.take s.history.flushed := by
        rw [hframe.history]
      exact h.grow hframe.config hflushed (hframe.globalFile ▸ List.prefix_rfl)
  | logThread hlog => exact flushedInFile_logThreadStep h hs hlog
  | spurious hparked => exact h
  | timeout hparked hpc => exact h

/-- **What `flushed` counts is in the file.**  In every state of a run without backend errors the
lines of the first `flushed` entries have been put into the global file, in their order. -/
theorem flushed_inFile (hmax : 0 < config.maxStringLen)
    (hboot : boot disk config logPath todo = .ok s₀) (hsinks : ∀ a ∈ as, a.SinkOk)
    (hrun : run step s₀ as = some s) : FlushedInFile s := by
  have hstart : Undisturbed s₀ ∧ FlushedInFile s₀ := by
    refine ⟨undisturbed_boot hmax hboot, ?_⟩
    obtain ⟨w, globalFile, rfl⟩ := boot_ok hboot
    exact List.nil_prefix
  have hkeep : ∀ (r : Sys (Disk resolve) BufWriter Tid) (a : Action Tid)
      (r' : Sys (Disk resolve) BufWriter Tid), Undisturbed r ∧ FlushedInFile r → a.SinkOk →
      r.step a = some r' → Undisturbed r' ∧ FlushedInFile r' := fun _ _ _ h ha hstep =>
    ⟨undisturbed_step h.1 ha hstep, flushedInFile_step h.2 h.1 hstep⟩
  exact (run_invariant_of_forall hkeep hstart hsinks hrun).2

/-- One thread logs, and then waits for the flush. -/
def logThenWait : Unit → List Call := fun _ =>
  [.read [.queueLog (Scenario.log "a")], .read [.waitForFlush]]

/-- The thread takes the signal of its own `queue_log`: the wait returns before the logging thread
has taken a single step. -/
theorem ownSignal_not_flushed :
    ∃ s, run step (Scenario.start .default logThenWait) (Scenario.callerSteps () 7) = some s ∧
      s.history.written = [] ∧ ¬ WaitMeansFlushed s (.caller ()) := by
  have hend : (run step (Scenario.start .default logThenWait) (Scenario.callerSteps () 7)).map
      (fun s => (s.history.written, s.history.pushed, (s.callers ()).pc, s.logSemaphore.mutex,
        (s.step (.caller ())).isSome)) =
      some ([], [((), [Scenario.log "a"])], .waiting false [], true, true) := by
    decide +kernel
  obtain ⟨s, hrun, hs⟩ := Option.map_eq_some_iff.1 hend
  simp only [Prod.mk.injEq] at hs
  obtain ⟨hwritten, hpushed, hpc, hflag, hsome⟩ := hs
  obtain ⟨s', hstep⟩ := Option.isSome_iff_exists.1 hsome
  refine ⟨s, hrun, hwritten, fun hflushed => ?_⟩
  have hreturns : WaitReturns s (.caller ()) () s' := ⟨rfl, ⟨[], hpc⟩, hflag, hstep⟩
  have hcovers := hflushed () s' hreturns [] [Scenario.log "a"] []
    (by rw [hreturns.history, hpushed]; rfl) (by simp)
  rw [FlushCovers, hreturns.history, hwritten] at hcovers
  simp at hcovers

theorem waitForFlush_flushed_iff_logThenWait :
    StepsMeet step WaitMeansFlushed (Scenario.start .default logThenWait)
        (Scenario.callerSteps () 5 ++ Scenario.logThreadSteps 13 ++ Scenario.callerSteps () 3) ↔
      StepsMeet step FlushReached (Scenario.start .default logThenWait)
        (Scenario.callerSteps () 5 ++ Scenario.logThreadSteps 13 ++ Scenario.callerSteps () 3) := by
  refine waitForFlush_flushed_iff
    (boot_disk Scenario.disk .default Scenario.logPath logThenWait) ?_
  simp only [List.forall_mem_append]
  exact ⟨⟨Scenario.sinkOk_callerSteps _ _, Scenario.sinkOk_logThreadSteps _⟩,
    Scenario.sinkOk_callerSteps _ _⟩

end Disk

end Sys

end Paperlog
