import Paperlog.Framework.Journal
import Paperlog.Model.Frames

/-!
# The logger refines a journal

What the queue, the logging thread and the files are for is stated by `Journal`: entries come in at
the end, one consumer fetches, writes and flushes them.  `Tracks s j` relates a state of the system
to the journal it implements: the queue is what is pending, the batch between the swap and the end
of `do_log_batch` is what is in hand, and `logged` counts what has been fetched since the last
flush.  `tracks_step` is the simulation: every step of every thread is matched by a step of the
journal or by none, whatever the writers and the sinks answer.  An entry is lost only with the
thread: once `log_thread` has returned an error or panicked, the relation no longer says what was in
hand.

`tracks_run` carries the simulation to whole runs, and `Tracks.entries_eq` reads off it how everything
ever pushed splits into written, in hand and queued.
-/

namespace Paperlog

/-! ## What a program point holds -/

namespace LogThreadPc

/-- The error `log_thread` has returned, at the points of the error branch. -/
def error : LogThreadPc → Option LoggerError
  | .wantRead (.sinks _ _ _ dying) | .reading (.sinks _ _ _ dying) => dying
  | .write _ (.flush dying) => dying
  | .write _ (.errorRecord _ e) => some e
  | .signalFlush dying => dying
  | .terminated error => error
  | _ => none

/-- `log_thread` has neither returned nor panicked. -/
def Running (pc : LogThreadPc) : Prop := pc.error = none ∧ pc ≠ .terminated none

/-- The batch that has left the queue and is not written yet. -/
def inHand : LogThreadPc → List LogData
  | .wantRead (.config queue) | .reading (.config queue) => queue
  | .write _ (.batch queue _) => queue
  | _ => []

end LogThreadPc

namespace Sys

open LogThreadPc LoggerThreadCtx

@[simp] theorem error_nextRecord (logs : List LogData) : (nextRecord logs).error = none := by
  cases logs <;> rfl

@[simp] theorem inHand_nextRecord (logs : List LogData) : (nextRecord logs).inHand = [] := by
  cases logs <;> rfl

theorem running_nextRecord (logs : List LogData) : (nextRecord logs).Running := by
  cases logs <;> simp [nextRecord, Running, LogThreadPc.error]

variable {W ω Tid : Type}

/-- Everything pushed so far, entry by entry. -/
def entries (s : Sys W ω Tid) : List LogData := s.history.pushed.flatMap Prod.snd

/-- The state implements the journal `j`. -/
structure Tracks (s : Sys W ω Tid) (j : Journal LogData) : Prop where
  entries : s.entries = j.entries
  queue : s.queue = j.pending
  written : s.history.written = j.done
  flushed : s.history.flushed = j.flushed
  inHand : s.logThread.pc.Running → s.logThread.pc.inHand = j.hand
  logged : s.logThread.pc.error = none → s.logThread.logged + j.flushed = j.taken
  pool : s.logThread.logPool.AllEmpty

/-- What `Tracks` reads off a state, the program point apart. -/
def journalView (s : Sys W ω Tid) :=
  (s.history.pushed, s.queue, s.history.written, s.history.flushed, s.logThread.logged,
    s.logThread.logPool)

/-- A move of the logging thread that leaves its batch alone. -/
def Follows (pc pc' : LogThreadPc) : Prop :=
  (pc'.error = none → pc.error = none) ∧ (pc'.Running → pc.Running ∧ pc'.inHand = pc.inHand)

/-- A move to another point of the same section. -/
structure SameSection (pc pc' : LogThreadPc) : Prop where
  error_eq : pc'.error = pc.error
  inHand_eq : pc'.inHand = pc.inHand
  running : pc'.Running → pc.Running

theorem sameSection_reading (sec : ReadSection) : SameSection (.wantRead sec) (.reading sec) := by
  cases sec <;> exact ⟨rfl, rfl, fun h => ⟨h.1, nofun⟩⟩

theorem sameSection_write (phase phase' : WritePhase) (sec : WriteSection) :
    SameSection (.write phase sec) (.write phase' sec) := by
  cases sec <;> exact ⟨rfl, rfl, fun h => ⟨h.1, nofun⟩⟩

theorem SameSection.follows {pc pc' : LogThreadPc} (h : SameSection pc pc') : Follows pc pc' :=
  ⟨fun herror => h.error_eq ▸ herror, fun hrun => ⟨h.running hrun, h.inHand_eq⟩⟩

variable {s s' : Sys W ω Tid} {j : Journal LogData}

theorem Tracks.move (h : Tracks s j) (hview : s'.journalView = s.journalView)
    (hpc : Follows s.logThread.pc s'.logThread.pc) : Tracks s' j := by
  simp only [journalView, Prod.mk.injEq] at hview
  obtain ⟨hpushed, hqueue, hwritten, hflushed, hlogged, hpool⟩ := hview
  refine ⟨?_, hqueue.trans h.queue, hwritten.trans h.written, hflushed.trans h.flushed,
    fun hrun => ?_, fun herror => ?_, hpool ▸ h.pool⟩
  · rw [Sys.entries, hpushed]
    exact h.entries
  · obtain ⟨hrun', heq⟩ := hpc.2 hrun
    rw [heq]
    exact h.inHand hrun'
  · rw [hlogged]
    exact h.logged (hpc.1 herror)

theorem Tracks.push (h : Tracks s j) {t : Tid} {logs : List LogData}
    (hthread : s'.logThread = s.logThread) (hqueue : s'.queue = s.queue ++ logs)
    (hhistory : s'.history = { s.history with pushed := s.history.pushed ++ [(t, logs)] }) :
    Tracks s' (j.push logs) where
  entries := by
    have hentries := h.entries
    rw [Sys.entries] at hentries ⊢
    simp [hhistory, hentries, Journal.push]
  queue := by rw [hqueue, h.queue, Journal.pending_push]
  written := by rw [hhistory, Journal.done_push, ← h.written]
  flushed := by rw [hhistory]; exact h.flushed
  inHand hrun := by
    rw [hthread] at hrun ⊢
    rw [Journal.hand_push]
    exact h.inHand hrun
  logged herror := by
    rw [hthread] at herror ⊢
    exact h.logged herror
  pool := by rw [hthread]; exact h.pool

theorem Tracks.takeQueue (h : Tracks s j) (hpc : s.logThread.pc = .take) :
    j.hand = [] ∧ Tracks s.takeQueue j.take := by
  have hhand : j.hand = [] := by
    rw [← h.inHand (by simp [hpc, Running, LogThreadPc.error]), hpc]
    rfl
  have hlogged := h.logged (by rw [hpc]; rfl)
  have hlength := congrArg List.length h.queue
  have hle := j.taken_le
  rw [Journal.length_pending] at hlength
  refine ⟨hhand, h.entries, ?_, h.written, h.flushed, fun _ => ?_, fun _ => ?_, h.pool.takeVec⟩
  · rw [Journal.pending_take]
    exact h.pool.takeVec_items
  · rw [Journal.hand_take j hhand, ← h.queue]
    by_cases hqueue : s.queue = []
    · simp [Sys.takeQueue, hqueue, LogThreadPc.inHand]
    · simp [Sys.takeQueue, hqueue, LogThreadPc.inHand]
  · show s.logThread.logged + s.queue.length + j.flushed = j.entries.length
    omega

theorem Tracks.endIteration (h : Tracks s j) (hrun : s.logThread.pc.Running)
    (hhand : s.logThread.pc.inHand = []) : Tracks s.endIteration j where
  entries := h.entries
  queue := h.queue
  written := h.written
  flushed := h.flushed
  inHand _ := by rw [← h.inHand hrun, hhand]; rfl
  logged _ := h.logged hrun.1
  pool := h.pool.returnVec _

section Step

variable [DecidableEq Tid] [FileIo W ω]

theorem tracks_logThreadStep {result : Except LoggerError Unit} {now : DateTime}
    (h : Tracks s j) (hstep : LogThreadStep s result now s') :
    ∃ j', Relation.ReflTransGen Journal.Step j j' ∧ Tracks s' j' := by
  -- Most steps only move the thread: the journal does not notice them.
  have quiet : s'.journalView = s.journalView → Follows s.logThread.pc s'.logThread.pc →
      ∃ j', Relation.ReflTransGen Journal.Step j j' ∧ Tracks s' j' := fun hview hpc =>
    ⟨j, .refl, h.move hview hpc⟩
  cases hstep with
  | take hpc =>
      obtain ⟨hhand, htake⟩ := h.takeQueue hpc
      exact ⟨j.take, .single (.take j hhand), htake⟩
  | batch hpc hio =>
      rename_i queue logs world ctx
      have hrun : s.logThread.pc.Running := by simp [hpc, Running, LogThreadPc.error]
      have hhand : queue = j.hand := by
        rw [← h.inHand hrun, hpc]
        rfl
      refine ⟨j.write, .single (.write j), h.entries, h.queue, ?_, h.flushed, fun _ => ?_,
        fun _ => h.logged hrun.1, h.pool⟩
      · rw [Journal.done_write, ← h.written, ← hhand]
        rfl
      · rw [Journal.hand_write]
        exact inHand_nextRecord logs
  | flushed hpc =>
      have hrun : s.logThread.pc.Running := by simp [hpc, Running, LogThreadPc.error]
      have hhand : j.hand = [] := by
        rw [← h.inHand hrun, hpc]
        rfl
      refine ⟨j.flush, .single (.flush j), h.entries, h.queue, h.written, ?_, fun _ => ?_,
        fun _ => ?_, h.pool⟩
      · show s.history.written.length = j.written
        rw [h.written, Journal.length_done]
      · exact hhand.symm
      · have hcursors := j.written_eq_taken hhand
        show 0 + j.written = j.taken
        omega
  | errorFlushed hpc =>
      refine ⟨j.flush, .single (.flush j), h.entries, h.queue, h.written, ?_, fun hrun => ?_,
        fun herror => ?_, h.pool⟩
      · show s.history.written.length = j.written
        rw [h.written, Journal.length_done]
      · exact absurd hrun.1 (by simp [LogThreadPc.error])
      · exact absurd herror (by simp [LogThreadPc.error])
  | again hpc hqueue =>
      exact ⟨j, .refl, h.endIteration (by simp [hpc, Running, LogThreadPc.error]) (by rw [hpc]; rfl)⟩
  | wake hpc hflag =>
      have hchecked : Tracks { s with
          logSemaphore := { s.logSemaphore with mutex := false } } j :=
        h.move rfl ⟨id, fun hrun => ⟨hrun, rfl⟩⟩
      exact ⟨j, .refl, hchecked.endIteration (by simp [hpc, Running, LogThreadPc.error])
        (by simp [hpc, LogThreadPc.inHand])⟩
  | enter hpc hlock => exact quiet rfl (hpc ▸ (sameSection_reading _).follows)
  | request hpc => exact quiet rfl (hpc ▸ (sameSection_write _ _ _).follows)
  | grant hpc hlock => exact quiet rfl (hpc ▸ (sameSection_write _ _ _).follows)
  | sinksDone hpc hi =>
      have hrun : s.logThread.pc.Running := by simp [hpc, Running, LogThreadPc.error]
      have hnone : s.logThread.pc.inHand = [] := by rw [hpc]; rfl
      refine quiet rfl ⟨fun _ => hrun.1, fun _ => ⟨hrun, ?_⟩⟩
      rw [hnone]
      exact inHand_nextRecord _
  | _ hpc => exact quiet rfl (by simp [Follows, hpc, Running, LogThreadPc.error,
      LogThreadPc.inHand])

/-- **The simulation.**  Every step of the system is a step of the journal, or none. -/
theorem tracks_step {a : Action Tid} (h : Tracks s j) (hstep : s.step a = some s') :
    ∃ j', Relation.ReflTransGen Journal.Step j j' ∧ Tracks s' j' := by
  have quiet : s'.journalView = s.journalView → s'.logThread.pc = s.logThread.pc →
      ∃ j', Relation.ReflTransGen Journal.Step j j' ∧ Tracks s' j' := fun hview hpc =>
    ⟨j, .refl, h.move hview (by rw [hpc]; exact ⟨id, fun hrun => ⟨hrun, rfl⟩⟩)⟩
  cases step_sound hstep with
  | caller hcaller =>
      have hframe := hcaller.frame
      rcases hframe.queue with ⟨hqueue, hhistory⟩ | ⟨logs, hqueue, hhistory⟩
      · exact quiet (by simp [journalView, hqueue, hhistory, hframe.logThread])
          (by rw [hframe.logThread])
      · exact ⟨j.push logs, .single (.push j logs), h.push hframe.logThread hqueue hhistory⟩
  | logThread hlog => exact tracks_logThreadStep h hlog
  | spurious hparked => exact quiet rfl rfl
  | timeout hparked hpc => exact quiet rfl rfl

omit [DecidableEq Tid] in
theorem tracks_boot {w : W} {config : LoggerConfig} {logPath : PathBuf} {todo : Tid → List Call}
    (hboot : boot w config logPath todo = .ok s) : Tracks s Journal.empty := by
  obtain ⟨w', globalFile, rfl⟩ := boot_ok hboot
  exact ⟨rfl, rfl, rfl, rfl, fun _ => rfl, fun _ => rfl, VecPool.allEmpty_withInitialAmount 2 1024⟩

/-- Every reachable state implements a journal that has grown from the empty one. -/
theorem tracks_run {w : W} {config : LoggerConfig} {logPath : PathBuf} {todo : Tid → List Call}
    {as : List (Action Tid)} (hboot : boot w config logPath todo = .ok s)
    (hrun : Transition.run step s as = some s') :
    ∃ j, Relation.ReflTransGen Journal.Step Journal.empty j ∧ Tracks s' j :=
  Transition.run_refines (fun _ _ _ _ hR hstep => tracks_step hR hstep) (tracks_boot hboot) hrun

end Step

/-- Everything pushed is written, in hand, or in the queue, in this order. -/
theorem Tracks.entries_eq (h : Tracks s j) (hrun : s.logThread.pc.Running) :
    s.entries = s.history.written ++ s.logThread.pc.inHand ++ s.queue := by
  rw [h.entries, h.written, h.inHand hrun, h.queue, j.done_append_hand_append_pending]

end Sys

end Paperlog
