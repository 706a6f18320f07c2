import Paperlog.Model.Scenario
import Paperlog.Properties.Delivery

/-!
# What a sink receives

A batch goes to the files first and is then handed to the sinks record by record, each record under
a read guard of its own.  Sinks can be registered between two records, so each of them has its own
starting point in the stream; from there on it is handed every record once and in order.

`Dispatches` is the invariant: what has been written is what has been dispatched followed by what
the loop over the batch still has in front of it, and every sink has received what has been
dispatched since it was registered, up to the record the loop over the sinks has just handed it.
`sees_stream` reads the property of a single sink off it.  Nothing is assumed of the file output; an
error of the backend only adds the record of the error at the very end.
-/

namespace Paperlog

namespace LogThreadPc

/-- The written records that are not dispatched yet. -/
def remaining : LogThreadPc → List LogData
  | .wantRead (.sinks _ log rest none) | .reading (.sinks _ log rest none) => log :: rest
  | _ => []

/-- What the `k`-th sink has already been handed of the record being dispatched. -/
def given (k : ℕ) : LogThreadPc → List LogData
  | .reading (.sinks i log _ _) => if k < i then [log] else []
  | _ => []

/-- The loop over the sinks starts at the first one, and a dying thread dispatches the record of its
error. -/
def Orderly : LogThreadPc → Prop
  | .wantRead (.sinks i log _ dying) => i = 0 ∧ ∀ e, dying = some e → ∃ now, log = errorRecord e now
  | .reading (.sinks _ log _ dying) => ∀ e, dying = some e → ∃ now, log = errorRecord e now
  | .write _ (.errorRecord log e) => ∃ now, log = errorRecord e now
  | _ => True

end LogThreadPc

namespace Sys

open Transition LoggerThreadCtx LogThreadPc

@[simp] theorem remaining_nextRecord (logs : List LogData) : (nextRecord logs).remaining = logs := by
  cases logs <;> rfl

@[simp] theorem given_nextRecord (k : ℕ) (logs : List LogData) : (nextRecord logs).given k = [] := by
  cases logs <;> rfl

theorem orderly_nextRecord (logs : List LogData) : (nextRecord logs).Orderly := by
  cases logs with
  | nil => trivial
  | cons log rest => exact ⟨rfl, nofun⟩

theorem orderly_write {phase phase' : WritePhase} {sec : WriteSection}
    (h : (LogThreadPc.write phase sec).Orderly) : (LogThreadPc.write phase' sec).Orderly := by
  cases sec <;> exact h

variable {W ω Tid : Type}

/-- What the loops have handed to the `k`-th sink since the start of the run, had it been there from
the start. -/
def dispatchedTo (s : Sys W ω Tid) (k : ℕ) : List LogData :=
  match s.logThread.pc with
  | .reading (.sinks i log _ none) =>
      if k < i then s.history.dispatched ++ [log] else s.history.dispatched
  | _ => s.history.dispatched

/-- The `k`-th sink has received everything since its registration; after the end of the thread it
may have the record of the error as well. -/
def Received (pc : LogThreadPc) (dispatched : List LogData) (k : ℕ) (sink : Sink) : Prop :=
  sink.received = dispatched.drop sink.since ++ pc.given k ∨
    ∃ e now, pc = .terminated (some e) ∧
      sink.received = dispatched.drop sink.since ++ [errorRecord e now]

structure Dispatches (s : Sys W ω Tid) : Prop where
  orderly : s.logThread.pc.Orderly
  cursor : ∀ {i log rest dying}, s.logThread.pc = .reading (.sinks i log rest dying) →
    i ≤ s.ctx.sinks.length
  recorded : s.history.recorded = s.history.dispatched ++ s.logThread.pc.remaining
  sinks : ∀ {k sink}, s.ctx.sinks[k]? = some sink → sink.since ≤ s.history.dispatched.length ∧
    Received s.logThread.pc s.history.dispatched k sink

variable {s s' : Sys W ω Tid}

/-- A move of the logging thread between points at which no sink has been handed anything of the
current record. -/
def Quiet (pc pc' : LogThreadPc) : Prop :=
  (∀ e, pc ≠ .terminated (some e)) ∧ (∀ k, pc.given k = [] ∧ pc'.given k = []) ∧
    pc'.Orderly ∧ pc'.remaining = pc.remaining

theorem Dispatches.move (h : Dispatches s) (hpc : Quiet s.logThread.pc s'.logThread.pc)
    (hsinks : s'.ctx.sinks = s.ctx.sinks) (hdispatched : s'.history.dispatched = s.history.dispatched)
    (hrecorded : s'.history.recorded = s.history.recorded) : Dispatches s' := by
  obtain ⟨hended, hgiven, horderly, hremaining⟩ := hpc
  refine ⟨horderly, ?_, ?_, ?_⟩
  · intro i log rest dying hread
    by_contra hlt
    have hnil := (hgiven 0).2
    rw [hread, given, if_pos (by omega)] at hnil
    cases hnil
  · rw [hrecorded, hdispatched, hremaining]
    exact h.recorded
  · intro k sink hk
    rw [hsinks] at hk
    obtain ⟨hsince, hreceived⟩ := h.sinks hk
    rw [hdispatched]
    refine ⟨hsince, ?_⟩
    rcases hreceived with hexact | ⟨e, -, hend, -⟩
    · rw [(hgiven k).1] at hexact
      exact .inl ((hgiven k).2 ▸ hexact)
    · exact absurd hend (hended e)

/-- A step that leaves the logging thread where it is and, perhaps, registers a sink. -/
theorem Dispatches.caller (h : Dispatches s) (hthread : s'.logThread = s.logThread)
    (hhistory : s'.history = { s.history with pushed := s'.history.pushed })
    (hsinks : s'.ctx.sinks = s.ctx.sinks ∨
      s'.ctx.sinks = s.ctx.sinks ++ [⟨[], s.history.dispatched.length⟩]) : Dispatches s' := by
  have hdispatched : s'.history.dispatched = s.history.dispatched := by rw [hhistory]
  have hrecorded : s'.history.recorded = s.history.recorded := by rw [hhistory]
  have hgrows : s.ctx.sinks.length ≤ s'.ctx.sinks.length := by
    rcases hsinks with heq | heq
    · rw [heq]
    · rw [heq, List.length_append]
      omega
  refine ⟨by rw [hthread]; exact h.orderly, ?_, ?_, ?_⟩
  · intro i log rest dying hread
    rw [hthread] at hread
    exact (h.cursor hread).trans hgrows
  · rw [hrecorded, hdispatched, hthread]
    exact h.recorded
  · intro k sink hk
    rw [hdispatched, hthread]
    rcases hsinks with heq | heq
    · rw [heq] at hk
      exact h.sinks hk
    · rw [heq, List.getElem?_append] at hk
      split at hk
      · exact h.sinks hk
      · rename_i hnew
        have hlength := Nat.le_of_not_lt hnew
        -- The new sink: the loop over the sinks has not come to it.
        have hgiven : s.logThread.pc.given k = [] := by
          unfold given
          split
          · rename_i hread
            have hle := h.cursor hread
            rw [if_neg (by omega)]
          · rfl
        obtain rfl := List.mem_singleton.1 (List.mem_of_getElem? hk)
        exact ⟨le_rfl, .inl (by simp [hgiven])⟩

/-- The sink at the cursor receives the record, and the cursor moves past it. -/
theorem Dispatches.sink (h : Dispatches s) {i : ℕ} {log : LogData} {rest : List LogData}
    {dying : Option LoggerError} (hpc : s.logThread.pc = .reading (.sinks i log rest dying))
    (hi : i < s.ctx.sinks.length) :
    Dispatches ((s.callSink i log).goLog (.reading (.sinks (i + 1) log rest dying))) := by
  have horderly := h.orderly
  have hrecorded := h.recorded
  rw [hpc] at horderly hrecorded
  refine ⟨horderly, ?_, ?_, ?_⟩
  · intro i' log' rest' dying' hread
    cases hread
    show i + 1 ≤ (s.ctx.sinks.modify i _).length
    rwa [List.length_modify]
  · cases dying with
    | none => exact hrecorded
    | some e => exact hrecorded
  · intro k sink hk
    simp only [goLog_ctx, callSink, List.getElem?_modify] at hk
    obtain ⟨sink₀, hk₀, rfl⟩ := Option.map_eq_some_iff.1 hk
    obtain ⟨hsince, hreceived⟩ := h.sinks hk₀
    have hexact : sink₀.received = s.history.dispatched.drop sink₀.since ++
        if k < i then [log] else [] := by
      rcases hreceived with hexact | ⟨e, -, hend, -⟩
      · rwa [hpc] at hexact
      · rw [hpc] at hend
        cases hend
    by_cases hik : i = k
    · subst hik
      rw [if_neg (lt_irrefl i), List.append_nil] at hexact
      rw [if_pos rfl]
      refine ⟨hsince, .inl ?_⟩
      show sink₀.received ++ [log] = _
      rw [hexact]
      exact congrArg _ (if_pos (Nat.lt_succ_self i)).symm
    · have hlt : k < i + 1 ↔ k < i := by omega
      rw [if_neg hik]
      refine ⟨hsince, .inl ?_⟩
      rw [hexact]
      exact congrArg _ (if_congr hlt.symm rfl rfl)

/-- The loop over the sinks is over: every sink has the record. -/
theorem Dispatches.sinksDone (h : Dispatches s) {i : ℕ} {log : LogData} {rest : List LogData}
    (hpc : s.logThread.pc = .reading (.sinks i log rest none)) (hi : s.ctx.sinks.length ≤ i)
    (hsinks : s'.ctx.sinks = s.ctx.sinks)
    (hdispatched : s'.history.dispatched = s.history.dispatched ++ [log])
    (hrecorded : s'.history.recorded = s.history.recorded)
    (hpc' : s'.logThread.pc = nextRecord rest) : Dispatches s' := by
  have hstream := h.recorded
  rw [hpc] at hstream
  refine ⟨hpc' ▸ orderly_nextRecord rest, ?_, ?_, ?_⟩
  · intro i' log' rest' dying' hread
    rw [hpc'] at hread
    cases rest <;> cases hread
  · rw [hrecorded, hdispatched, hpc', remaining_nextRecord, hstream, List.append_assoc]
    rfl
  · intro k sink hk
    rw [hsinks] at hk
    obtain ⟨hsince, hreceived⟩ := h.sinks hk
    have hlt : k < i := (List.getElem?_eq_some_iff.1 hk).1.trans_le hi
    rcases hreceived with hexact | ⟨e, -, hend, -⟩
    · rw [hpc] at hexact
      rw [hdispatched, hpc', List.length_append]
      refine ⟨by omega, .inl ?_⟩
      rw [given_nextRecord, List.append_nil, List.drop_append_of_le_length hsince, hexact]
      exact congrArg _ (if_pos hlt)
    · rw [hpc] at hend
      cases hend

/-- A batch that has been written is what remains to be dispatched. -/
theorem Dispatches.batch (h : Dispatches s) {queue logs : List LogData}
    (hpc : s.logThread.pc = .write .held (.batch queue logs)) (hsinks : s'.ctx.sinks = s.ctx.sinks)
    (hdispatched : s'.history.dispatched = s.history.dispatched)
    (hrecorded : s'.history.recorded = s.history.recorded ++ logs)
    (hpc' : s'.logThread.pc = nextRecord logs) : Dispatches s' := by
  have hstream := h.recorded
  rw [hpc] at hstream
  refine ⟨hpc' ▸ orderly_nextRecord logs, ?_, ?_, ?_⟩
  · intro i log rest dying hread
    rw [hpc'] at hread
    cases logs <;> cases hread
  · rw [hrecorded, hdispatched, hpc', remaining_nextRecord, hstream]
    exact congrArg (· ++ logs) (List.append_nil _)
  · intro k sink hk
    rw [hsinks] at hk
    obtain ⟨hsince, hreceived⟩ := h.sinks hk
    rw [hdispatched, hpc']
    refine ⟨hsince, ?_⟩
    rcases hreceived with hexact | ⟨e, -, hend, -⟩
    · rw [hpc] at hexact
      apply Or.inl
      rw [hexact, given_nextRecord]
      rfl
    · rw [hpc] at hend
      cases hend

/-- The end of the thread, by a panic or at the end of the error branch. -/
theorem Dispatches.terminate (h : Dispatches s) {error : Option LoggerError}
    (hsinks : s'.ctx.sinks = s.ctx.sinks) (hhistory : s'.history = s.history)
    (hremaining : s.logThread.pc.remaining = []) (hpc' : s'.logThread.pc = .terminated error)
    (hgiven : ∀ k sink, s.ctx.sinks[k]? = some sink → s.logThread.pc.given k = [] ∨
      ∃ e now, error = some e ∧ s.logThread.pc.given k = [errorRecord e now])
    (hpc : ∀ e, s.logThread.pc ≠ .terminated (some e)) : Dispatches s' := by
  refine ⟨by rw [hpc']; trivial, ?_, ?_, ?_⟩
  · intro i log rest dying hread
    rw [hpc'] at hread
    cases hread
  · rw [hhistory, h.recorded, hremaining, hpc']
    rfl
  · intro k sink hk
    rw [hsinks] at hk
    obtain ⟨hsince, hreceived⟩ := h.sinks hk
    rw [hhistory, hpc']
    refine ⟨hsince, ?_⟩
    rcases hreceived with hexact | ⟨e, -, hend, -⟩
    · rcases hgiven k sink hk with hnil | ⟨e, now, rfl, hlast⟩
      · rw [hnil] at hexact
        exact .inl hexact
      · rw [hlast] at hexact
        exact .inr ⟨e, now, rfl, hexact⟩
    · exact absurd hend (hpc e)

variable [DecidableEq Tid] [FileIo W ω]

theorem CallerStep.sinks {t : Tid} (h : CallerStep s t s') :
    s'.ctx.sinks = s.ctx.sinks ∨
      s'.ctx.sinks = s.ctx.sinks ++ [⟨[], s.history.dispatched.length⟩] := by
  cases h with
  | register hpc hadd =>
      obtain ⟨contextMap, rfl⟩ := addContext_ok hadd
      exact .inl rfl
  | registerFailed hpc hadd =>
      obtain rfl := addContext_error hadd
      exact .inl rfl
  | addSink hpc => exact .inr rfl
  | _ => exact .inl rfl

theorem dispatches_logThreadStep {result : Except LoggerError Unit} {now : DateTime}
    (h : Dispatches s) (hresult : result = .ok ()) (hstep : LogThreadStep s result now s') :
    Dispatches s' := by
  have horderly := h.orderly
  cases hstep with
  | take hpc =>
      refine h.move ?_ rfl rfl rfl
      simp only [takeQueue]
      split <;> simp [Quiet, hpc, given, remaining, Orderly]
  | enter hpc hlock =>
      rename_i sec lock
      refine h.move ?_ rfl rfl rfl
      rw [hpc] at horderly
      cases sec with
      | config queue => simp [Quiet, hpc, given, remaining, Orderly]
      | sinks i log rest dying =>
          obtain ⟨rfl, hlast⟩ := horderly
          refine ⟨by simp [hpc], by simp [hpc, given], hlast, ?_⟩
          rw [hpc]
          cases dying <;> rfl
  | splitPanic hpc hsplit =>
      exact h.terminate rfl rfl (by rw [hpc]; rfl) rfl (fun k _ _ => .inl (by rw [hpc]; rfl))
        (by simp [hpc])
  | sink hpc hi hok => exact h.sink hpc hi
  | sinkFailed hpc hi herror => cases herror.symm.trans hresult
  | errorSinkFailed hpc hi herror => cases herror.symm.trans hresult
  | sinksDone hpc hi => exact h.sinksDone hpc hi rfl rfl rfl rfl
  | errorSinksDone hpc hi =>
      rename_i i log rest e
      rw [hpc] at horderly
      obtain ⟨now', rfl⟩ := horderly e rfl
      refine h.terminate rfl rfl (by rw [hpc]; rfl) rfl (fun k sink hk => .inr ⟨e, now', rfl, ?_⟩)
        (by simp [hpc])
      have hlt : k < i := (List.getElem?_eq_some_iff.1 hk).1.trans_le hi
      rw [hpc]
      exact if_pos hlt
  | batch hpc hio =>
      rename_i queue logs world ctx
      exact h.batch hpc ((filesOnly_doLogBatch logs).ok hio).sinks rfl rfl rfl
  | batchFailed hpc hio =>
      refine h.move ?_ ((filesOnly_doLogBatch _).error hio).sinks rfl rfl
      simp [Quiet, hpc, given, remaining, Orderly]
  | flush hpc hio =>
      refine h.move ?_ (filesOnly_flushFiles.ok hio).sinks rfl rfl
      simp [Quiet, hpc, given, remaining, Orderly]
  | flushFailed hpc hio =>
      refine h.move ?_ (filesOnly_flushFiles.error hio).sinks rfl rfl
      simp [Quiet, hpc, given, remaining, Orderly]
  | errorFlushFailed hpc hio =>
      refine h.move ?_ (filesOnly_flushFiles.error hio).sinks rfl rfl
      exact ⟨by simp [hpc], by simp [hpc, given], ⟨now, rfl⟩, by rw [hpc]; rfl⟩
  | errorFlushed hpc =>
      refine h.move ?_ rfl rfl rfl
      exact ⟨by simp [hpc], by simp [hpc, given], ⟨now, rfl⟩, by rw [hpc]; rfl⟩
  | errorRecord hpc hio =>
      refine h.move ?_ ((filesOnly_fileDoLog _).ok hio).sinks rfl rfl
      rw [hpc] at horderly
      refine ⟨by simp [hpc], by simp [hpc, given], ⟨rfl, ?_⟩, by rw [hpc]; rfl⟩
      rintro e' ⟨⟩
      exact horderly
  | errorRecordFailed hpc hio =>
      refine h.move ?_ ((filesOnly_fileDoLog _).error hio).sinks rfl rfl
      simp [Quiet, hpc, given, remaining, Orderly]
  | request hpc =>
      refine h.move ?_ rfl rfl rfl
      rw [hpc] at horderly
      exact ⟨by simp [hpc], by simp [hpc, given], orderly_write horderly, by rw [hpc]; rfl⟩
  | grant hpc hlock =>
      refine h.move ?_ rfl rfl rfl
      rw [hpc] at horderly
      exact ⟨by simp [hpc], by simp [hpc, given], orderly_write horderly, by rw [hpc]; rfl⟩
  | _ hpc =>
      refine h.move ?_ rfl rfl rfl
      simp [Quiet, hpc, given, remaining, Orderly]

theorem dispatches_step {a : Action Tid} (h : Dispatches s) (ha : a.SinkOk)
    (hstep : s.step a = some s') : Dispatches s' := by
  cases step_sound hstep with
  | caller hcaller => exact h.caller hcaller.frame.logThread hcaller.frame.history hcaller.sinks
  | logThread hlog => exact dispatches_logThreadStep h ha hlog
  | spurious hparked => exact h.caller rfl rfl (.inl rfl)
  | timeout hparked hpc => exact h.caller rfl rfl (.inl rfl)

/-- What can be said of the `k`-th sink in state `s`. -/
structure SeesStream (s : Sys W ω Tid) (k : ℕ) (sink : Sink) : Prop where
  /-- It starts somewhere in the stream. -/
  since_le : sink.since ≤ s.history.dispatched.length
  /-- What has been dispatched is the stream of the records written, up to some point. -/
  written : s.dispatchedTo k <+: s.history.recorded
  /-- While `log_thread` has returned no error, the sink has received all of it since its start. -/
  received : s.logThread.pc.error = none → sink.received = (s.dispatchedTo k).drop sink.since
  /-- Between two records the stream has come equally far for all sinks. -/
  boundary : (∀ i log rest dying, s.logThread.pc ≠ .reading (.sinks i log rest dying)) →
    s.dispatchedTo k = s.history.dispatched
  /-- After an error at most the record of that error comes behind. -/
  lastRecord : ∀ e, s.logThread.pc.error = some e →
    sink.received = s.history.dispatched.drop sink.since ∨
      ∃ now, sink.received = s.history.dispatched.drop sink.since ++ [errorRecord e now]

omit [DecidableEq Tid] [FileIo W ω] in
theorem dispatchedTo_eq (herror : s.logThread.pc.error = none) (k : ℕ) :
    s.dispatchedTo k = s.history.dispatched ++ s.logThread.pc.given k := by
  unfold dispatchedTo
  split
  · rename_i hpc
    rw [hpc, given]
    split
    · rfl
    · rw [List.append_nil]
  · rename_i hother
    have hgiven : s.logThread.pc.given k = [] := by
      unfold given
      split
      · rename_i i log rest dying hpc
        rw [hpc] at herror
        obtain rfl : dying = none := herror
        exact absurd hpc (hother i log rest)
      · rfl
    rw [hgiven, List.append_nil]

omit [DecidableEq Tid] [FileIo W ω] in
/-- What a sink has of a record in a dying thread is the record of the error. -/
theorem given_of_error {e : LoggerError} (horderly : s.logThread.pc.Orderly)
    (herror : s.logThread.pc.error = some e) (k : ℕ) :
    s.logThread.pc.given k = [] ∨ ∃ now, s.logThread.pc.given k = [errorRecord e now] := by
  cases hpc : s.logThread.pc with
  | reading sec =>
      rw [hpc] at horderly herror
      cases sec with
      | config queue => exact .inl rfl
      | sinks i log rest dying =>
          obtain ⟨now, rfl⟩ := horderly e herror
          rw [given]
          split
          · exact .inr ⟨now, rfl⟩
          · exact .inl rfl
  | _ => exact .inl rfl

omit [DecidableEq Tid] [FileIo W ω] in
theorem Dispatches.seesStream (h : Dispatches s) {k : ℕ} {sink : Sink}
    (hk : s.ctx.sinks[k]? = some sink) : SeesStream s k sink := by
  obtain ⟨hsince, hreceived⟩ := h.sinks hk
  have hstream := h.recorded
  refine ⟨hsince, ?_, ?_, ?_, ?_⟩
  · unfold dispatchedTo
    split
    · rename_i i log rest hpc
      rw [hstream, hpc]
      split
      · exact ⟨rest, by simp [remaining]⟩
      · exact List.prefix_append _ _
    · rw [hstream]
      exact List.prefix_append _ _
  · intro herror
    rcases hreceived with hexact | ⟨e, now, hend, -⟩
    · rw [hexact, dispatchedTo_eq herror, List.drop_append_of_le_length hsince]
    · rw [hend] at herror
      cases herror
  · intro hbetween
    unfold dispatchedTo
    split
    · rename_i hpc
      exact absurd hpc (hbetween _ _ _ _)
    · rfl
  · intro e herror
    rcases hreceived with hexact | ⟨e', now, hend, hlast⟩
    · rcases given_of_error h.orderly herror k with hnil | ⟨now, hlast⟩
      · exact .inl (by rw [hexact, hnil, List.append_nil])
      · exact .inr ⟨now, by rw [hexact, hlast]⟩
    · rw [hend] at herror
      cases herror
      exact .inr ⟨now, hlast⟩

/-- **All sinks see the same stream.**  In every state of a run in which no sink refuses, whatever
the callers and the file output do, each sink has received the contiguous piece of the stream of
written records that begins with the first record dispatched after its registration. -/
theorem sinks_see_stream {w : W} {config : LoggerConfig} {logPath : PathBuf}
    {todo : Tid → List Call} {s₀ : Sys W ω Tid} {as : List (Action Tid)}
    (hboot : boot w config logPath todo = .ok s₀) (hsinks : ∀ a ∈ as, a.SinkOk)
    (hrun : run step s₀ as = some s) {k : ℕ} {sink : Sink} (hk : s.ctx.sinks[k]? = some sink) :
    SeesStream s k sink := by
  have hstart : Dispatches s₀ := by
    obtain ⟨w', globalFile, rfl⟩ := boot_ok hboot
    exact ⟨trivial, nofun, rfl, nofun⟩
  exact (run_invariant_of_forall (fun _ _ _ h ha hstep => dispatches_step h ha hstep) hstart hsinks
    hrun).seesStream hk

/-- One thread queues two entries; another one registers a sink between their records. -/
def lateSink : Bool → List Call
  | false => [.read [.queueLogs [Scenario.log "a", Scenario.log "b"]]]
  | true => [.write .addSink]

/-- The sink comes when the batch is written and its first record dispatched. -/
def midBatch : List (Action Bool) :=
  Scenario.callerSteps false 5 ++ Scenario.logThreadSteps 8 ++ Scenario.callerSteps true 4 ++
    Scenario.logThreadSteps 3

theorem sinks_see_stream_midBatch :
    ∃ s, run step (Scenario.start .default lateSink) midBatch = some s ∧
      SeesStream s 0 ⟨[Scenario.log "b"], 1⟩ := by
  have hend : (run step (Scenario.start .default lateSink) midBatch).map
      (fun s => s.ctx.sinks[0]?) = some (some ⟨[Scenario.log "b"], 1⟩) := by
    decide +kernel
  obtain ⟨s, hrun, hk⟩ := Option.map_eq_some_iff.1 hend
  refine ⟨s, hrun, sinks_see_stream
    (boot_disk Scenario.disk .default Scenario.logPath lateSink) ?_ hrun hk⟩
  simp only [midBatch, List.forall_mem_append]
  exact ⟨⟨⟨Scenario.sinkOk_callerSteps _ _, Scenario.sinkOk_logThreadSteps _⟩,
    Scenario.sinkOk_callerSteps _ _⟩, Scenario.sinkOk_logThreadSteps _⟩

end Sys

end Paperlog
