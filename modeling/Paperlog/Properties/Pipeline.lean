import Paperlog.Model.Scenario
import Paperlog.Properties.Failure

/-!
# The pipeline from the producers to the global file

Nothing is lost, repeated or reordered between `queue_log` and the global file.  `Delivery` gives
the split of everything pushed; this module adds the two ends.  On the side of the file, `Recorded`
says that the records written are the pieces of the entries written, and `FileHolds` that the
global file has been given exactly their lines.  On the side of the producers, `InProgramOrder` says
that what a thread has pushed so far is the beginning of what its program pushes.

`pipeline_in_order` puts the three together for a disk that never fails and sinks that never
refuse.
-/

namespace Paperlog

/-! ## What a program pushes -/

def GuardedOp.pushes : GuardedOp → List (List LogData)
  | .queueLogs logs => [logs]
  | _ => []

/-- The calls of `queue_log` and `queue_logs` in a call, each with its entries. -/
def Call.pushes : Call → List (List LogData)
  | .read ops => ops.flatMap GuardedOp.pushes
  | .write _ => []

/-- Those a caller has still to make before it is idle. -/
def CallerPc.pushes : CallerPc → List (List LogData)
  | .wantRead ops | .holding ops | .signalling ops | .waiting _ ops => ops.flatMap GuardedOp.pushes
  | .pushing logs ops => logs :: ops.flatMap GuardedOp.pushes
  | .idle | .write _ _ => []

def Caller.remaining (c : Caller) : List (List LogData) := c.pc.pushes ++ c.todo.flatMap Call.pushes

theorem pushes_startOp (ops : List GuardedOp) :
    (Sys.startOp ops).pushes = ops.flatMap GuardedOp.pushes := by
  rcases ops with _ | ⟨op, ops⟩
  · rfl
  · cases op <;> rfl

namespace Sys

open LogThreadPc LoggerThreadCtx

variable {Tid : Type} [DecidableEq Tid]

section Generic

variable {W ω : Type} [FileIo W ω] {s s' : Sys W ω Tid}

/-- The entries `t` has pushed, call by call. -/
def pushedBy (s : Sys W ω Tid) (t : Tid) : List (List LogData) :=
  (s.history.pushed.filter fun push => push.1 = t).map Prod.snd

/-! ## The records are the pieces of the entries -/

/-- The records written are those of the entries written, and a batch on its way to the files has
been split already. -/
structure Recorded (s : Sys W ω Tid) : Prop where
  recorded : splitStrIntoChunks s.history.written s.ctx.config.maxStringLen = some s.history.recorded
  split : ∀ phase queue logs, s.logThread.pc = .write phase (.batch queue logs) →
    splitStrIntoChunks queue s.ctx.config.maxStringLen = some logs

omit [DecidableEq Tid] [FileIo W ω] in
theorem Recorded.move (h : Recorded s) (hwritten : s'.history.written = s.history.written)
    (hrecorded : s'.history.recorded = s.history.recorded) (hconfig : s'.ctx.config = s.ctx.config)
    (hpc : ∀ phase queue logs, s'.logThread.pc = .write phase (.batch queue logs) →
      splitStrIntoChunks queue s.ctx.config.maxStringLen = some logs) : Recorded s' where
  recorded := by rw [hwritten, hrecorded, hconfig]; exact h.recorded
  split phase queue logs hpc' := by rw [hconfig]; exact hpc phase queue logs hpc'

theorem splitStrIntoChunks_append {queue queue' logs logs' : List LogData} {maxStrLen : ℕ}
    (h : splitStrIntoChunks queue maxStrLen = some logs)
    (h' : splitStrIntoChunks queue' maxStrLen = some logs') :
    splitStrIntoChunks (queue ++ queue') maxStrLen = some (logs ++ logs') := by
  have hsplit := eq_flatMap_pieces_of_split h
  have hsplit' := eq_flatMap_pieces_of_split h'
  by_cases hzero : maxStrLen = 0
  · subst hzero
    have hnil : queue = [] := by
      by_contra hne
      rw [splitStrIntoChunks_zero hne] at h
      cases h
    subst hnil
    rw [hsplit]
    exact h'
  · rw [splitStrIntoChunks_of_ne_zero hzero, List.flatMap_append, hsplit, hsplit']

theorem recorded_step {a : Action Tid} (h : Recorded s) (hstep : s.step a = some s') :
    Recorded s' := by
  cases step_sound hstep with
  | caller hcaller =>
      have hframe := hcaller.frame
      have hhistory := hframe.history
      refine h.move (by rw [hhistory]) (by rw [hhistory]) hframe.config ?_
      rw [hframe.logThread]
      exact h.split
  | logThread hlog =>
      have hconfig := hlog.frame.config
      cases hlog with
      | split hpc hsplit =>
          refine h.move rfl rfl hconfig fun phase queue logs hpc' => ?_
          cases hpc'
          exact hsplit
      | request hpc =>
          refine h.move rfl rfl hconfig fun phase queue logs hpc' => ?_
          cases hpc'
          exact h.split _ _ _ hpc
      | grant hpc hlock =>
          refine h.move rfl rfl hconfig fun phase queue logs hpc' => ?_
          cases hpc'
          exact h.split _ _ _ hpc
      | batch hpc hio =>
          rename_i queue logs world ctx
          refine ⟨?_, fun phase queue' logs' hpc' => ?_⟩
          · rw [hconfig]
            exact splitStrIntoChunks_append h.recorded (h.split _ _ _ hpc)
          · rcases logs with _ | ⟨log, logs⟩ <;> cases hpc'
      | sinksDone hpc hi =>
          rename_i i log rest
          refine h.move rfl rfl hconfig fun phase queue logs hpc' => ?_
          rcases rest with _ | ⟨log', rest⟩ <;> cases hpc'
      | take hpc =>
          refine h.move rfl rfl hconfig fun phase queue logs hpc' => ?_
          simp only [takeQueue] at hpc'
          split at hpc' <;> cases hpc'
      | wake hpc hflag =>
          exact h.move rfl rfl hconfig fun phase queue logs hpc' => by cases hpc'
      | park hpc hflag =>
          exact h.move rfl rfl hconfig fun phase queue logs hpc' => h.split phase queue logs hpc'
      | _ => exact h.move rfl rfl hconfig fun phase queue logs hpc' => by cases hpc'
  | spurious hparked => exact h.move rfl rfl rfl h.split
  | timeout hparked hpc => exact h.move rfl rfl rfl h.split

end Generic

/-! ## The end at the files -/

section Disk

variable {resolve : PathBuf → Place} {s s' : Sys (Disk resolve) BufWriter Tid}

/-- On a disk that never fails, with sinks that never refuse, `log_thread` returns no error. -/
theorem noError_step {a : Action Tid} (h : s.logThread.pc.error = none) (ha : a.SinkOk)
    (hstep : s.step a = some s') : s'.logThread.pc.error = none :=
  noError_of_succeeds h (succeeds_disk ha) hstep

/-- With a limit that is not zero, it does not panic either. -/
theorem running_step {a : Action Tid} (h : s.logThread.pc.Running)
    (hmax : s.ctx.config.maxStringLen ≠ 0) (ha : a.SinkOk) (hstep : s.step a = some s') :
    s'.logThread.pc.Running :=
  running_of_nothingFails h ⟨succeeds_disk ha, fun _ _ => .inr hmax⟩ hstep

/-- The logging thread is at work, and the global file has been given exactly the lines of the
records written. -/
structure Healthy (s : Sys (Disk resolve) BufWriter Tid) : Prop where
  running : s.logThread.pc.Running
  maxStringLen : s.ctx.config.maxStringLen ≠ 0
  contents : s.ctx.globalFile.contents = s.history.recorded.flatMap LogData.ioLine

theorem healthy_step {a : Action Tid} (h : Healthy s) (ha : a.SinkOk)
    (hstep : s.step a = some s') : Healthy s' := by
  have hrunning := running_step h.running h.maxStringLen ha hstep
  cases step_sound hstep with
  | caller hcaller =>
      have hframe := hcaller.frame
      refine ⟨hrunning, by rw [hframe.config]; exact h.maxStringLen, ?_⟩
      rw [hframe.globalFile, hframe.history]
      exact h.contents
  | logThread hlog =>
      have hconfig : s'.ctx.config.maxStringLen ≠ 0 := by
        rw [hlog.frame.config]
        exact h.maxStringLen
      refine ⟨hrunning, hconfig, ?_⟩
      cases hlog with
      | batch hpc hio =>
          have hcontents := (BatchLogged.of_doLogBatch hio).globalFile_contents
          rw [h.contents] at hcontents
          simpa using hcontents
      | flush hpc hio =>
          rw [flushFiles_disk] at hio
          cases hio
          have hcontents := (BufWriter.flushBuf_appended s.world s.ctx.globalFile).contents
          rw [h.contents] at hcontents
          simpa using hcontents
      | batchFailed hpc hio => exact absurd hio (doLogBatch_ne_error _ _ _)
      | flushFailed hpc hio => exact absurd hio (flushFiles_ne_error _ _)
      | errorFlushFailed hpc hio => exact absurd hio (flushFiles_ne_error _ _)
      | errorRecord hpc hio =>
          have herror := h.running.1
          rw [hpc] at herror
          cases herror
      | errorRecordFailed hpc hio => exact absurd hio (fileDoLog_ne_error _ _ _)
      | _ => exact h.contents
  | spurious hparked => exact ⟨hrunning, h.maxStringLen, h.contents⟩
  | timeout hparked hpc => exact ⟨hrunning, h.maxStringLen, h.contents⟩

/-! ## The end at the producers -/

/-- What `t` has pushed, followed by what it is still going to push. -/
def promised (s : Sys (Disk resolve) BufWriter Tid) (t : Tid) : List (List LogData) :=
  s.pushedBy t ++ (s.callers t).remaining

theorem promised_congr {t : Tid} (hpushed : s'.history.pushed = s.history.pushed)
    (hremaining : (s'.callers t).remaining = (s.callers t).remaining) :
    s'.promised t = s.promised t := by
  rw [promised, promised, pushedBy, pushedBy, hpushed, hremaining]

theorem remaining_goCaller (s : Sys (Disk resolve) BufWriter Tid) (t : Tid) (pc : CallerPc) :
    ((s.goCaller t pc).callers t).remaining =
      pc.pushes ++ (s.callers t).todo.flatMap Call.pushes := by
  simp [Caller.remaining]

/-- Pushing takes a call from the program and puts it behind what has been pushed. -/
theorem promised_push {t : Tid} {logs : List LogData} {ops : List GuardedOp}
    (hpc : (s.callers t).pc = .pushing logs ops) {r : Sys (Disk resolve) BufWriter Tid}
    (hcallers : r.callers = s.callers)
    (hpushed : r.history.pushed = s.history.pushed ++ [(t, logs)]) :
    (r.goCaller t (.signalling ops)).promised t = s.promised t := by
  have hleft : (r.goCaller t (.signalling ops)).pushedBy t = s.pushedBy t ++ [logs] := by
    simp [pushedBy, hpushed]
  have hright : (s.callers t).remaining =
      logs :: ((CallerPc.signalling ops).pushes ++ (s.callers t).todo.flatMap Call.pushes) := by
    simp [Caller.remaining, hpc, CallerPc.pushes]
  rw [promised, promised, hleft, hright, remaining_goCaller, hcallers]
  simp

theorem promised_callerStep {t : Tid} (h : CallerStep s t s') (u : Tid) :
    s'.promised u = s.promised u := by
  by_cases hu : u = t
  · subst hu
    have keep : ∀ {r : Sys (Disk resolve) BufWriter Tid} {pc : CallerPc}, r.callers = s.callers →
        r.history.pushed = s.history.pushed → pc.pushes = (s.callers u).pc.pushes →
        (r.goCaller u pc).promised u = s.promised u := by
      intro r pc hcallers hpushed hpc
      refine promised_congr hpushed ?_
      rw [remaining_goCaller, hcallers, hpc, Caller.remaining]
    cases h with
    | beginRead hpc htodo =>
        refine promised_congr rfl ?_
        simp [Caller.remaining, hpc, htodo, CallerPc.pushes, Call.pushes]
    | beginWrite hpc htodo =>
        refine promised_congr rfl ?_
        simp [Caller.remaining, hpc, htodo, CallerPc.pushes, Call.pushes]
    | enter hpc hlock => exact keep rfl rfl (by rw [pushes_startOp, hpc, CallerPc.pushes])
    | next hpc => exact keep rfl rfl (by rw [pushes_startOp, hpc, CallerPc.pushes])
    | push hpc => exact promised_push hpc rfl rfl
    | registerFailed hpc hadd => exact absurd hadd (addContext_ne_error _ _ _)
    | _ hpc => exact keep rfl rfl (by simp [hpc, CallerPc.pushes])
  · have hframe := h.frame
    have hcaller := hframe.others u hu
    rcases hframe.queue with ⟨-, hhistory⟩ | ⟨logs, -, hhistory⟩
    · exact promised_congr (by rw [hhistory]) (by rw [hcaller])
    · have hpushed : s'.pushedBy u = s.pushedBy u := by
        have hne : ¬ t = u := fun heq => hu heq.symm
        simp [pushedBy, hhistory, hne]
      rw [promised, promised, hpushed, hcaller]

theorem promised_step {a : Action Tid} (hstep : s.step a = some s') (t : Tid) :
    s'.promised t = s.promised t := by
  cases step_sound hstep with
  | caller hcaller => exact promised_callerStep hcaller t
  | logThread hlog => exact promised_congr hlog.frame.pushed (by rw [hlog.frame.callers])
  | spurious hparked => rfl
  | timeout hparked hpc =>
      rename_i u ops
      by_cases ht : t = u
      · subst ht
        refine promised_congr rfl ?_
        simp [Caller.remaining, hpc, CallerPc.pushes]
      · exact promised_congr rfl (by rw [goCaller_callers_of_ne _ _ _ ht])

/-! ## The whole pipeline -/

section Run

variable {disk : Disk resolve} {config : LoggerConfig} {logPath : PathBuf} {todo : Tid → List Call}
  {as : List (Action Tid)}

omit [DecidableEq Tid] in
theorem recorded_boot (hboot : boot disk config logPath todo = .ok s) : Recorded s := by
  obtain ⟨w, globalFile, rfl⟩ := boot_ok hboot
  exact ⟨rfl, nofun⟩

omit [DecidableEq Tid] in
theorem healthy_boot (hmax : config.maxStringLen ≠ 0)
    (hboot : boot disk config logPath todo = .ok s) : Healthy s := by
  rw [boot_disk] at hboot
  obtain rfl := Except.ok.inj hboot
  exact ⟨⟨rfl, nofun⟩, hmax, rfl⟩

theorem promised_run {s₀ : Sys (Disk resolve) BufWriter Tid}
    (hboot : boot disk config logPath todo = .ok s₀)
    (hrun : Transition.run step s₀ as = some s) (t : Tid) :
    s.promised t = (todo t).flatMap Call.pushes := by
  rw [boot_disk] at hboot
  have hstart : s₀.promised t = (todo t).flatMap Call.pushes := by
    obtain rfl := Except.ok.inj hboot
    simp [promised, pushedBy, start, Caller.remaining, CallerPc.pushes]
  exact (Transition.run_unchanged (fun _ _ _ hstep => promised_step hstep t) hrun).trans hstart

/-- The lines of the records that the splitting makes of the entries. -/
def linesOf (maxStrLen : ℕ) (entries : List LogData) : Bytes :=
  (entries.flatMap (pieces maxStrLen)).flatMap LogData.ioLine

/-- **No loss, no duplication, order kept.**  In every state a run can reach, whatever the threads
do and in whatever order: everything pushed is written, in hand or queued; the global file has been
given the lines of exactly the written entries' pieces; what each thread has pushed is the beginning
of its program; and the entries of one call, once written, stand next to each other in the file. -/
theorem pipeline_in_order {s₀ : Sys (Disk resolve) BufWriter Tid} (hmax : 0 < config.maxStringLen)
    (hboot : boot disk config logPath todo = .ok s₀) (hsinks : ∀ a ∈ as, a.SinkOk)
    (hrun : Transition.run step s₀ as = some s) :
    s.entries = s.history.written ++ s.logThread.pc.inHand ++ s.queue ∧
    (∃ records, splitStrIntoChunks s.history.written config.maxStringLen = some records ∧
      s.ctx.globalFile.contents = records.flatMap LogData.ioLine) ∧
    (∀ t, s.pushedBy t ++ (s.callers t).remaining = (todo t).flatMap Call.pushes) ∧
    (∀ before t logs after, s.history.pushed = before ++ (t, logs) :: after →
      (before.flatMap Prod.snd ++ logs).length ≤ s.history.written.length →
      ∃ rest, s.ctx.globalFile.contents = linesOf config.maxStringLen (before.flatMap Prod.snd) ++
        linesOf config.maxStringLen logs ++ linesOf config.maxStringLen rest) := by
  have hconfig : s.ctx.config = config := by
    rw [config_run hrun]
    rw [boot_disk] at hboot
    exact (Except.ok.inj hboot) ▸ rfl
  obtain ⟨j, -, htracks⟩ := tracks_run hboot hrun
  have hhealthy : Healthy s :=
    Transition.run_invariant_of_forall (fun _ _ _ h ha hstep => healthy_step h ha hstep)
      (healthy_boot hmax.ne' hboot) hsinks hrun
  have hrecorded : Recorded s :=
    Transition.run_invariant (fun _ _ _ h hstep => recorded_step h hstep) (recorded_boot hboot) hrun
  have hsplit := hconfig ▸ hrecorded.recorded
  have hentries := htracks.entries_eq hhealthy.running
  refine ⟨hentries, ⟨_, hsplit, hhealthy.contents⟩, promised_run hboot hrun, ?_⟩
  intro before t logs after hpushed hlength
  -- The entries of the call and those before it are a prefix of the written ones.
  have hprefix : before.flatMap Prod.snd ++ logs <+: s.history.written := by
    have hall : before.flatMap Prod.snd ++ logs <+: s.entries := by
      refine ⟨after.flatMap Prod.snd, ?_⟩
      simp [Sys.entries, hpushed]
    have hwritten : s.history.written <+: s.entries := by
      rw [hentries, List.append_assoc]
      exact List.prefix_append _ _
    exact List.prefix_of_prefix_length_le hall hwritten hlength
  obtain ⟨rest, hrest⟩ := hprefix
  refine ⟨rest, ?_⟩
  rw [hhealthy.contents, eq_flatMap_pieces_of_split hsplit, ← hrest]
  simp [linesOf]

/-- Two threads that log at the same time, one of them a message of two lines. -/
def spam : Bool → List Call
  | false => [.read [.queueLogs [Scenario.log "a\nb", Scenario.log "c"]]]
  | true => [.read [.queueLogs [Scenario.log "d"]]]

/-- The pushes overlap; then the logging thread works through them and goes to sleep. -/
def spamRun : List (Action Bool) :=
  Scenario.callerSteps false 3 ++ Scenario.callerSteps true 5 ++ Scenario.callerSteps false 2 ++
    Scenario.logThreadSteps 25

theorem pipeline_in_order_spam :
    ∃ s, Transition.run step (Scenario.start .default spam) spamRun = some s ∧
      s.history.written.length = 3 ∧
      s.entries = s.history.written ++ s.logThread.pc.inHand ++ s.queue := by
  have hend : (Transition.run step (Scenario.start .default spam) spamRun).map
      (fun s => s.history.written.length) = some 3 := by
    decide +kernel
  obtain ⟨s, hrun, hwritten⟩ := Option.map_eq_some_iff.1 hend
  have hsinks : ∀ a ∈ spamRun, a.SinkOk := by
    simp only [spamRun, List.forall_mem_append]
    exact ⟨⟨⟨Scenario.sinkOk_callerSteps _ _, Scenario.sinkOk_callerSteps _ _⟩,
      Scenario.sinkOk_callerSteps _ _⟩, Scenario.sinkOk_logThreadSteps _⟩
  have hresult := pipeline_in_order (by decide)
    (boot_disk Scenario.disk .default Scenario.logPath spam) hsinks hrun
  exact ⟨s, hrun, hwritten, hresult.1⟩

end Run

end Disk

end Sys

end Paperlog
