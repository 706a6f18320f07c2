import Mathlib.Algebra.Order.BigOperators.Group.List
import Mathlib.Data.List.DropRight
import Paperlog.Framework.Utf8
import Paperlog.Properties.FlushWait
import Paperlog.Properties.Splitting

/-!
# How much output is unflushed

The comment in `log_thread` promises a flush every 100 lines, but `logged` counts the entries
fetched from the queue, before they are split.  An entry is written as as many records as its
message has chunks, so the check `logged >= 100` lets any number of lines pass while the queue is not
empty.
`underHundred_iff` says which runs keep the promise all the same: those in which, whenever the check
does not flush, the entries it has counted are less than 100 lines long.
-/

namespace Paperlog

/-! ## The lines of an entry -/

/-- The line ends in the record of an entry without a message: the one behind it, and those of its
other fields. -/
def recordLines (log : LogData) : ℕ := { log with message := [] }.ioPieces.flatten.count '\n'

/-- The lines an entry takes in the global file. -/
def entryLines (maxStrLen : ℕ) (log : LogData) : ℕ :=
  chunkCount maxStrLen log.message * recordLines log

theorem count_ioLine (log : LogData) : log.ioLine.count 10 = log.ioPieces.flatten.count '\n' := by
  have hflat : log.ioLine = log.ioPieces.flatten.flatMap String.utf8EncodeChar := by
    rw [LogData.ioLine, List.flatten_eq_flatMap, List.flatMap_assoc]
    rfl
  rw [hflat, String.count_flatMap_utf8EncodeChar (by decide)]
  rfl

/-- A message without line ends adds none. -/
theorem count_ioLine_chunk (log : LogData) {chunk : Str} (h : '\n' ∉ chunk) :
    { log with message := chunk }.ioLine.count 10 = recordLines log := by
  have hzero : chunk.count '\n' = 0 := List.count_eq_zero.mpr h
  rw [count_ioLine, recordLines]
  simp only [LogData.ioPieces, LogData.locationPieces, List.flatten_append, List.flatten_cons,
    List.count_append, List.count_nil, hzero]

/-- **The lines of an entry.** -/
theorem count_pieces {maxStrLen : ℕ} (h : 0 < maxStrLen) (log : LogData) :
    ((pieces maxStrLen log).flatMap LogData.ioLine).count 10 = entryLines maxStrLen log := by
  have hrecord : ∀ r ∈ pieces maxStrLen log, r.ioLine.count 10 = recordLines log := by
    intro r hr
    obtain ⟨line, hline, hr⟩ := List.mem_flatMap.mp hr
    have hgroup := lineGroup_exact h log (List.not_mem_of_mem_splitOn _ _ line hline)
    rw [hgroup.fields r hr]
    exact count_ioLine_chunk log (hgroup.oneLine r hr)
  have hconst : (pieces maxStrLen log).map (fun r => r.ioLine.count 10) =
      (pieces maxStrLen log).map fun _ => recordLines log := List.map_congr_left hrecord
  rw [List.count_flatMap]
  show ((pieces maxStrLen log).map fun r => r.ioLine.count 10).sum = _
  rw [hconst, List.map_const', List.sum_replicate_nat, length_pieces h, entryLines]

namespace Sys

open Transition LoggerThreadCtx

theorem count_linesOf {maxStrLen : ℕ} (h : 0 < maxStrLen) (entries : List LogData) :
    (linesOf maxStrLen entries).count 10 = (entries.map (entryLines maxStrLen)).sum := by
  rw [linesOf, List.flatMap_assoc, List.count_flatMap]
  congr 1
  exact List.map_congr_left fun log _ => count_pieces h log

variable {Tid : Type} {resolve : PathBuf → Place} {s s' : Sys (Disk resolve) BufWriter Tid}

/-! ## What is unflushed -/

/-- What the global file has been given behind the lines of the entries that had been written when
the last completed flush ran. -/
def unflushed (s : Sys (Disk resolve) BufWriter Tid) : Bytes :=
  s.ctx.globalFile.contents.drop
    (linesOf s.ctx.config.maxStringLen (s.history.written.take s.history.flushed)).length

/-- The logging thread has ended an iteration, or is about to. -/
def BetweenIterations (s : Sys (Disk resolve) BufWriter Tid) : Prop :=
  s.logThread.pc = .checkWait ∨ s.logThread.pc = .waiting ∨ s.logThread.pc = .take

/-- **The promise**: at the end of an iteration fewer than 100 lines are unflushed. -/
def UnderHundred (s : Sys (Disk resolve) BufWriter Tid) : Prop :=
  s.BetweenIterations → s.unflushed.count 10 < 100

/-- If the check in this step does not flush, the `logged` entries it has counted are less than 100
lines. -/
def FewLines (s : Sys (Disk resolve) BufWriter Tid) (a : Action Tid) : Prop :=
  ∀ result now, a = .logThread result now → s.logThread.pc = .checkFlush →
    s.queue ≠ [] → s.logThread.logged < 100 →
      ((s.history.written.rtake s.logThread.logged).map
        (entryLines s.ctx.config.maxStringLen)).sum < 100

/-- The lines unflushed are those of the entries written since. -/
theorem Undisturbed.unflushed_eq (h : Undisturbed s) :
    s.unflushed =
      linesOf s.ctx.config.maxStringLen (s.history.written.drop s.history.flushed) := by
  have hcontents : s.ctx.globalFile.contents =
      linesOf s.ctx.config.maxStringLen s.history.written := by
    rw [h.healthy.contents, linesOf, eq_flatMap_pieces_of_split h.recorded.recorded]
  have hsplit : linesOf s.ctx.config.maxStringLen s.history.written =
      linesOf s.ctx.config.maxStringLen (s.history.written.take s.history.flushed) ++
        linesOf s.ctx.config.maxStringLen (s.history.written.drop s.history.flushed) := by
    rw [linesOf, linesOf, linesOf, ← List.flatMap_append, ← List.flatMap_append,
      List.take_append_drop]
  rw [unflushed, hcontents, hsplit, List.drop_left]

/-- The lines of the entries written since the last flush. -/
def pendingLines (s : Sys (Disk resolve) BufWriter Tid) : ℕ :=
  ((s.history.written.drop s.history.flushed).map (entryLines s.ctx.config.maxStringLen)).sum

/-- They can be counted entry by entry. -/
theorem Undisturbed.count_unflushed (h : Undisturbed s) :
    s.unflushed.count 10 = s.pendingLines := by
  rw [h.unflushed_eq, count_linesOf (Nat.pos_of_ne_zero h.healthy.maxStringLen), pendingLines]

theorem Undisturbed.underHundred_iff_pendingLines (h : Undisturbed s) :
    UnderHundred s ↔ (s.BetweenIterations → s.pendingLines < 100) := by
  rw [UnderHundred, h.count_unflushed]

/-- At the check, `logged` counts the entries written since the last flush. -/
theorem Undisturbed.rtake_logged (h : Undisturbed s) (hpc : s.logThread.pc = .checkFlush) :
    s.history.written.rtake s.logThread.logged = s.history.written.drop s.history.flushed := by
  obtain ⟨j, hj⟩ := h.tracks
  have hhand : j.hand = [] := by
    rw [← hj.inHand h.healthy.running, hpc]
    rfl
  have hlogged := hj.logged h.healthy.running.1
  have hwritten := j.written_eq_taken hhand
  have hlength : s.history.written.length = j.written := by
    rw [hj.written, Journal.length_done]
  have hflushed := hj.flushed
  have hdrop : s.history.written.length - s.logThread.logged = s.history.flushed := by omega
  rw [List.rtake, hdrop]

theorem pendingLines_congr (hhistory : s'.history.written = s.history.written)
    (hflushed : s'.history.flushed = s.history.flushed)
    (hconfig : s'.ctx.config = s.ctx.config) : s'.pendingLines = s.pendingLines := by
  rw [pendingLines, pendingLines, hhistory, hflushed, hconfig]

theorem not_betweenIterations_nextRecord {logs : List LogData}
    (hpc : s.logThread.pc = nextRecord logs) : ¬ s.BetweenIterations := by
  rw [BetweenIterations, hpc]
  cases logs with
  | nil => simp [nextRecord]
  | cons log logs => simp [nextRecord]

variable [DecidableEq Tid]

/-! ## One step -/

/-- An iteration is left with what it was ended with; the check decides about that. -/
theorem pendingLines_logThreadStep {result : Except LoggerError Unit} {now : DateTime}
    (hstep : LogThreadStep s result now s')
    (hfew : s.logThread.pc = .checkFlush → s.queue ≠ [] → s.logThread.logged < 100 →
      s.pendingLines < 100)
    (h : s.BetweenIterations → s.pendingLines < 100) :
    s'.BetweenIterations → s'.pendingLines < 100 := by
  intro hbetween
  cases hstep with
  | flushLater hpc hqueue hlogged => exact hfew hpc hqueue hlogged
  | flushed hpc => simp [pendingLines]
  | sleep hpc hqueue => exact h (.inl hpc)
  | again hpc hqueue => exact h (.inl hpc)
  | wake hpc hflag => exact h (.inr (.inl hpc))
  | park hpc hflag => exact h (.inr (.inl hpc))
  | take hpc =>
      simp only [BetweenIterations, takeQueue] at hbetween
      split at hbetween <;> simp at hbetween
  | batch hpc hio => exact absurd hbetween (not_betweenIterations_nextRecord rfl)
  | sinksDone hpc hi => exact absurd hbetween (not_betweenIterations_nextRecord rfl)
  | _ => simp [BetweenIterations] at hbetween

theorem pendingLines_step {a : Action Tid} (hstep : s.step a = some s')
    (hfew : ∀ result now, a = .logThread result now → s.logThread.pc = .checkFlush →
      s.queue ≠ [] → s.logThread.logged < 100 → s.pendingLines < 100)
    (h : s.BetweenIterations → s.pendingLines < 100) :
    s'.BetweenIterations → s'.pendingLines < 100 := by
  cases step_sound hstep with
  | caller hcaller =>
      have hframe := hcaller.frame
      have hpending : s'.pendingLines = s.pendingLines :=
        pendingLines_congr (by rw [hframe.history]) (by rw [hframe.history]) hframe.config
      rw [BetweenIterations, hframe.logThread, hpending]
      exact h
  | logThread hlog => exact pendingLines_logThreadStep hlog (hfew _ _ rfl) h
  | spurious hparked => exact h
  | timeout hparked hpc => exact h

omit [DecidableEq Tid] in
theorem Undisturbed.fewLines_iff (h : Undisturbed s) (a : Action Tid) :
    FewLines s a ↔ ∀ result now, a = .logThread result now → s.logThread.pc = .checkFlush →
      s.queue ≠ [] → s.logThread.logged < 100 → s.pendingLines < 100 := by
  apply forall₄_congr
  intro result now _ hpc
  rw [h.rtake_logged hpc]
  rfl

/-! ## Runs -/

variable {disk : Disk resolve} {config : LoggerConfig} {logPath : PathBuf} {todo : Tid → List Call}
  {s₀ : Sys (Disk resolve) BufWriter Tid} {as : List (Action Tid)}

/-- **When fewer than 100 lines stay unflushed.**  In a run without backend errors, at the end of
every iteration, exactly when no check goes on without a flush while the entries it has counted are
100 lines or more. -/
theorem underHundred_iff (hmax : 0 < config.maxStringLen)
    (hboot : boot disk config logPath todo = .ok s₀) (hsinks : ∀ a ∈ as, a.SinkOk)
    (hrun : run step s₀ as = some s) :
    Always step UnderHundred s₀ as ↔ StepsMeet step FewLines s₀ as := by
  have hstart : Undisturbed s₀ ∧ UnderHundred s₀ := by
    have hundisturbed := undisturbed_boot hmax hboot
    refine ⟨hundisturbed, hundisturbed.underHundred_iff_pendingLines.mpr fun _ => ?_⟩
    obtain ⟨w, globalFile, rfl⟩ := boot_ok hboot
    exact Nat.zero_lt_succ 99
  refine always_iff_stepsMeet_of_forall (fun _ => And.right) ?_ ?_ hstart hsinks hrun
  · rintro r a r' ⟨hr, hunder⟩ ha hfew hstep
    have hr' := undisturbed_step hr ha hstep
    refine ⟨hr', hr'.underHundred_iff_pendingLines.mpr ?_⟩
    exact pendingLines_step hstep ((hr.fewLines_iff a).mp hfew)
      (hr.underHundred_iff_pendingLines.mp hunder)
  · rintro r a r' ⟨hr, -⟩ ha hmany hstep hunder
    have hr' := undisturbed_step hr ha hstep
    rw [hr.fewLines_iff] at hmany
    push Not at hmany
    obtain ⟨result, now, rfl, hpc, hqueue, hlogged, hlines⟩ := hmany
    have hgo : r.step (.logThread result now) = some (r.goLog .checkWait) := by
      simp [step, logThreadStep, hpc, hqueue, Nat.not_le.mpr hlogged]
    obtain rfl := Option.some.inj (hgo.symm.trans hstep)
    have hfew : r.pendingLines < 100 := hr'.underHundred_iff_pendingLines.mp hunder (.inl rfl)
    omega

theorem underHundred_iff_logThenWait :
    Always step UnderHundred (Scenario.start .default logThenWait)
        (Scenario.callerSteps () 5 ++ Scenario.logThreadSteps 13) ↔
      StepsMeet step FewLines (Scenario.start .default logThenWait)
        (Scenario.callerSteps () 5 ++ Scenario.logThreadSteps 13) := by
  obtain ⟨s, hrun⟩ : ∃ s, run step (Scenario.start .default logThenWait)
      (Scenario.callerSteps () 5 ++ Scenario.logThreadSteps 13) = some s :=
    Option.isSome_iff_exists.mp (by decide +kernel)
  refine underHundred_iff (by decide)
    (boot_disk Scenario.disk .default Scenario.logPath logThenWait) ?_ hrun
  rw [List.forall_mem_append]
  exact ⟨Scenario.sinkOk_callerSteps _ _, Scenario.sinkOk_logThreadSteps _⟩

omit [DecidableEq Tid] in
/-- Entries of one line each are as many lines as they are entries. -/
theorem fewLines_of_oneLine (h : ∀ log ∈ s.history.written,
    entryLines s.ctx.config.maxStringLen log ≤ 1) (a : Action Tid) : FewLines s a := by
  intro result now _ _ _ hlogged
  have hone : ∀ n ∈ (s.history.written.rtake s.logThread.logged).map
      (entryLines s.ctx.config.maxStringLen), n ≤ 1 := by
    intro n hn
    obtain ⟨log, hlog, rfl⟩ := List.mem_map.mp hn
    exact h log (List.mem_of_mem_drop hlog)
  have hsum := List.sum_le_card_nsmul _ 1 hone
  have hlength : (s.history.written.rtake s.logThread.logged).length ≤ s.logThread.logged := by
    rw [List.rtake, List.length_drop]
    omega
  rw [List.length_map, smul_eq_mul, Nat.mul_one] at hsum
  omega

/-! ## A batch nobody comes between -/

/-- What working through a batch leaves alone, apart from what has been written. -/
structure BatchFrame (s s' : Sys (Disk resolve) BufWriter Tid) : Prop where
  queue : s'.queue = s.queue
  logged : s'.logThread.logged = s.logThread.logged
  flushed : s'.history.flushed = s.history.flushed
  setup : SameSetup s.ctx s'.ctx

omit [DecidableEq Tid] in
theorem BatchFrame.trans {r : Sys (Disk resolve) BufWriter Tid} (h : BatchFrame r s)
    (h' : BatchFrame s s') :
    BatchFrame r s' :=
  ⟨h'.queue.trans h.queue, h'.logged.trans h.logged, h'.flushed.trans h.flushed,
    h.setup.trans h'.setup⟩

/-- One more step of the logging thread, its sinks answering `Ok`. -/
theorem run_logThreadSteps_succ {r : Sys (Disk resolve) BufWriter Tid} {n : ℕ}
    (hstep : s.step (.logThread (.ok ()) Scenario.time) = some s')
    (hrun : run step s' (Scenario.logThreadSteps n) = some r) :
    run step s (Scenario.logThreadSteps (n + 1)) = some r := by
  rw [Scenario.logThreadSteps, List.replicate_succ, run_cons, hstep]
  exact hrun

/-- Without sinks a record takes two steps. -/
theorem run_records (logs : List LogData) (hpc : s.logThread.pc = nextRecord logs)
    (hlock : s.lock = .free) (hsinks : s.ctx.sinks = []) :
    ∃ s', run step s (Scenario.logThreadSteps (2 * logs.length)) = some s' ∧
      s'.logThread.pc = .checkFlush ∧ s'.history.written = s.history.written ∧
      BatchFrame s s' := by
  induction logs generalizing s with
  | nil => exact ⟨s, rfl, hpc, rfl, ⟨rfl, rfl, rfl, .rfl⟩⟩
  | cons log rest ih =>
      obtain ⟨lock, hread, hrelease⟩ := RwLock.tryRead_free (.logThread : Party Tid)
      have henter : s.step (.logThread (.ok ()) Scenario.time) =
          some ({ s with lock }.goLog (.reading (.sinks 0 log rest none))) := by
        simp [step, logThreadStep, hpc, hlock, hread, nextRecord]
      have hleave : ({ s with lock }.goLog (.reading (.sinks 0 log rest none))).step
          (.logThread (.ok ()) Scenario.time) =
          some ({ s with
            lock := .free
            history := { s.history with dispatched := s.history.dispatched ++ [log] } }.goLog
              (nextRecord rest)) := by
        simp [step, logThreadStep, sinkStep, hsinks, goLog, hrelease]
      obtain ⟨s', hrun, hpc', hwritten, hframe⟩ := ih (s := { s with
        lock := .free
        history := { s.history with dispatched := s.history.dispatched ++ [log] } }.goLog
          (nextRecord rest)) rfl rfl hsinks
      refine ⟨s', ?_, hpc', hwritten, ⟨hframe.queue, hframe.logged, hframe.flushed, hframe.setup⟩⟩
      exact run_logThreadSteps_succ henter (run_logThreadSteps_succ hleave hrun)

/-- **A batch is written and dispatched** before the check is reached. -/
theorem run_batch {queue logs : List LogData} (hpc : s.logThread.pc = .wantRead (.config queue))
    (hlock : s.lock = .free) (hsinks : s.ctx.sinks = [])
    (hsplit : splitStrIntoChunks queue s.ctx.config.maxStringLen = some logs) :
    ∃ s', run step s (Scenario.logThreadSteps (2 * logs.length + 5)) = some s' ∧
      s'.logThread.pc = .checkFlush ∧ s'.history.written = s.history.written ++ queue ∧
      BatchFrame s s' := by
  obtain ⟨readLock, hread, hreleaseRead⟩ := RwLock.tryRead_free (.logThread : Party Tid)
  obtain ⟨writeLock, hwrite, hreleaseWrite⟩ := RwLock.tryWrite_free (.logThread : Party Tid)
  obtain ⟨world, ctx, hio, -⟩ := doLogBatch_disk logs s.world s.ctx
  have hsetup := (filesOnly_doLogBatch logs).ok hio
  have henter : s.step (.logThread (.ok ()) Scenario.time) =
      some ({ s with lock := readLock }.goLog (.reading (.config queue))) := by
    simp [step, logThreadStep, hpc, hlock, hread]
  have hsplitStep : ({ s with lock := readLock }.goLog (.reading (.config queue))).step
      (.logThread (.ok ()) Scenario.time) =
      some ({ s with lock := .free }.goLog (.write .request (.batch queue logs))) := by
    simp [step, logThreadStep, readConfig, goLog, hsplit, hreleaseRead]
  have hrequest : ({ s with lock := .free }.goLog (.write .request (.batch queue logs))).step
      (.logThread (.ok ()) Scenario.time) =
      some ({ s with lock := RwLock.free.requestWrite .logThread }.goLog
        (.write .await (.batch queue logs))) := by
    simp [step, logThreadStep, goLog]
  have hgrant : ({ s with lock := RwLock.free.requestWrite .logThread }.goLog
      (.write .await (.batch queue logs))).step (.logThread (.ok ()) Scenario.time) =
      some ({ s with lock := writeLock }.goLog (.write .held (.batch queue logs))) := by
    simp [step, logThreadStep, goLog, hwrite]
  have hbatch : ({ s with lock := writeLock }.goLog (.write .held (.batch queue logs))).step
      (.logThread (.ok ()) Scenario.time) =
      some ({ s with
        world, ctx
        lock := .free
        history :=
          { s.history with
            written := s.history.written ++ queue
            recorded := s.history.recorded ++ logs } }.goLog (nextRecord logs)) := by
    simp [step, logThreadStep, writeSection, goLog, hio, hreleaseWrite]
  obtain ⟨s', hrun, hpc', hwritten, hframe⟩ := run_records (s := { s with
    world, ctx
    lock := .free
    history :=
      { s.history with
        written := s.history.written ++ queue
        recorded := s.history.recorded ++ logs } }.goLog (nextRecord logs)) logs rfl rfl
    (hsetup.sinks.trans hsinks)
  refine ⟨s', ?_, hpc', hwritten,
    ⟨hframe.queue, hframe.logged, hframe.flushed, hsetup.trans hframe.setup⟩⟩
  exact run_logThreadSteps_succ henter (run_logThreadSteps_succ hsplitStep
    (run_logThreadSteps_succ hrequest (run_logThreadSteps_succ hgrant
      (run_logThreadSteps_succ hbatch hrun))))

/-- **An iteration without a flush**: the batch, and then the check finds entries in the queue and
has not counted to 100. -/
theorem run_iteration {queue logs : List LogData} (hpc : s.logThread.pc = .wantRead (.config queue))
    (hlock : s.lock = .free) (hsinks : s.ctx.sinks = [])
    (hsplit : splitStrIntoChunks queue s.ctx.config.maxStringLen = some logs)
    (hqueue : s.queue ≠ []) (hlogged : s.logThread.logged < 100) :
    ∃ s', run step s (Scenario.logThreadSteps (2 * logs.length + 6)) = some s' ∧
      s'.logThread.pc = .checkWait ∧ s'.history.written = s.history.written ++ queue ∧
      BatchFrame s s' := by
  obtain ⟨s', hrun, hpc', hwritten, hframe⟩ := run_batch hpc hlock hsinks hsplit
  rw [← hframe.queue] at hqueue
  rw [← hframe.logged, ← Nat.not_le] at hlogged
  have hgo : s'.step (.logThread (.ok ()) Scenario.time) = some (s'.goLog .checkWait) := by
    simp [step, logThreadStep, hpc', hqueue, hlogged]
  have hlast : run step s' (Scenario.logThreadSteps 1) = some (s'.goLog .checkWait) :=
    run_logThreadSteps_succ hgo (run_nil _)
  refine ⟨s'.goLog .checkWait, ?_, rfl, hwritten,
    ⟨hframe.queue, hframe.logged, hframe.flushed, hframe.setup⟩⟩
  rw [Scenario.logThreadSteps, List.replicate_succ', ← Scenario.logThreadSteps, run_append, hrun,
    Option.bind_some]
  exact hlast

/-! ## A long message -/

/-- A message of 100 lines. -/
def longMessage : LogData :=
  { LogData.default Scenario.time with message := (List.replicate 100 ['a', '\n']).flatten }

/-- One thread logs it, and then one line more. -/
def longThenShort : Unit → List Call := fun _ =>
  [.read [.queueLog longMessage], .read [.queueLog (Scenario.log "b")]]

/-- The thread pushes both; in between, the logging thread has fetched the first. -/
def overtaken : List (Action Unit) :=
  Scenario.callerSteps () 5 ++ Scenario.logThreadSteps 1 ++ Scenario.callerSteps () 5

/-- It is left with the message in hand, and the other entry in the queue. -/
theorem run_overtaken :
    ∃ s, run step (Scenario.start .default longThenShort) overtaken = some s ∧
      s.logThread.pc = .wantRead (.config [longMessage]) ∧ s.queue = [Scenario.log "b"] ∧
      s.logThread.logged = 1 ∧ s.history.written = [] ∧ s.history.flushed = 0 ∧
      s.lock = .free ∧ s.ctx.sinks = [] := by
  have hpoint : (run step (Scenario.start .default longThenShort) overtaken).map
      (fun s => (s.logThread.pc, s.queue, s.logThread.logged, s.history.written,
        s.history.flushed)) =
      some (.wantRead (.config [longMessage]), [Scenario.log "b"], 1, [], 0) := by
    decide +kernel
  have hfree : (run step (Scenario.start .default longThenShort) overtaken).map
      (fun s => (s.lock.readers, s.lock.writer, s.lock.waiting, s.ctx.sinks)) =
      some ([], none, [], []) := by
    decide +kernel
  obtain ⟨s, hrun, hs⟩ := Option.map_eq_some_iff.mp hpoint
  rw [hrun, Option.map_some, Option.some.injEq] at hfree
  simp only [Prod.mk.injEq] at hs hfree
  obtain ⟨hpc, hqueue, hlogged, hwritten, hflushed⟩ := hs
  obtain ⟨hreaders, hwriter, hwaiting, hsinks⟩ := hfree
  exact ⟨s, hrun, hpc, hqueue, hlogged, hwritten, hflushed,
    RwLock.ext hreaders hwriter hwaiting, hsinks⟩

/-- **All lines of the message stay unflushed** as the logging thread goes on to the next entry. -/
theorem longMessage_unflushed :
    ∃ as s, (∀ a ∈ as, a.SinkOk) ∧
      run step (Scenario.start .default longThenShort) as = some s ∧
      s.unflushed.count 10 = 100 ∧ ¬ UnderHundred s := by
  obtain ⟨s₁, hrun₁, hpc, hqueue, hlogged, hwritten, hflushed, hlock, hsinks⟩ := run_overtaken
  have hconfig : s₁.ctx.config = .default := config_run hrun₁
  have hsplit : splitStrIntoChunks [longMessage] s₁.ctx.config.maxStringLen =
      some ([longMessage].flatMap (pieces 1024)) := by
    rw [hconfig]
    exact splitStrIntoChunks_of_ne_zero (by decide) _
  obtain ⟨s₂, hrun₂, hpc₂, hwritten₂, hframe⟩ :=
    run_iteration hpc hlock hsinks hsplit (by simp [hqueue]) (by omega)
  have hrun : run step (Scenario.start .default longThenShort) (overtaken ++
      Scenario.logThreadSteps (2 * ([longMessage].flatMap (pieces 1024)).length + 6)) =
      some s₂ := by
    rw [run_append, hrun₁, Option.bind_some, hrun₂]
  have hsinkOk : ∀ a ∈ overtaken ++ Scenario.logThreadSteps
      (2 * ([longMessage].flatMap (pieces 1024)).length + 6), a.SinkOk := by
    simp only [overtaken, List.forall_mem_append]
    exact ⟨⟨⟨Scenario.sinkOk_callerSteps _ _, Scenario.sinkOk_logThreadSteps _⟩,
      Scenario.sinkOk_callerSteps _ _⟩, Scenario.sinkOk_logThreadSteps _⟩
  have hundisturbed := undisturbed_run (by decide)
    (boot_disk Scenario.disk .default Scenario.logPath longThenShort) hsinkOk hrun
  have hpending : s₂.pendingLines = entryLines 1024 longMessage := by
    rw [pendingLines, hwritten₂, hwritten, hframe.flushed, hflushed, hframe.setup.config, hconfig]
    rfl
  have hlines : s₂.unflushed.count 10 = 100 := by
    rw [hundisturbed.count_unflushed, hpending]
    decide +kernel
  refine ⟨_, _, hsinkOk, hrun, hlines, fun hunder => ?_⟩
  have hfew := hunder (.inl hpc₂)
  omega

end Sys

end Paperlog
