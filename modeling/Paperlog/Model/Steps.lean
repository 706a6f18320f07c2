import Paperlog.Model.System

/-!
# What one step can do

`CallerStep` and `LogThreadStep` list the steps of a caller and of the logging thread, one
constructor for each outcome, with its guard and the state it leads to.  `callerStep_sound` and
`logThreadStep_sound` say that the step functions do nothing else; every invariant is proved by
cases on these relations and never unfolds the step functions again.
-/

namespace Paperlog

namespace Sys

open LoggerThreadCtx

variable {W ω Tid : Type} [DecidableEq Tid] [FileIo W ω]

/-- The steps of caller `t`. -/
inductive CallerStep (s : Sys W ω Tid) (t : Tid) : Sys W ω Tid → Prop
  | beginRead {ops todo} (hpc : (s.callers t).pc = .idle)
      (htodo : (s.callers t).todo = .read ops :: todo) :
      CallerStep s t { s with callers := Function.update s.callers t ⟨.wantRead ops, todo⟩ }
  | beginWrite {call todo} (hpc : (s.callers t).pc = .idle)
      (htodo : (s.callers t).todo = .write call :: todo) :
      CallerStep s t { s with callers := Function.update s.callers t ⟨.write .request call, todo⟩ }
  | enter {ops lock} (hpc : (s.callers t).pc = .wantRead ops)
      (hlock : s.lock.tryRead (.caller t) = some lock) :
      CallerStep s t ({ s with lock }.goCaller t (startOp ops))
  | leave (hpc : (s.callers t).pc = .holding []) :
      CallerStep s t ({ s with lock := s.lock.releaseRead (.caller t) }.goCaller t .idle)
  | next {op ops} (hpc : (s.callers t).pc = .holding (op :: ops)) :
      CallerStep s t (s.goCaller t (startOp (op :: ops)))
  | push {logs ops} (hpc : (s.callers t).pc = .pushing logs ops) :
      CallerStep s t ({ s with
        queue := s.queue ++ logs
        history := { s.history with pushed := s.history.pushed ++ [(t, logs)] } }.goCaller t
          (.signalling ops))
  | signal {ops} (hpc : (s.callers t).pc = .signalling ops) :
      CallerStep s t ({ s with logSemaphore := s.logSemaphore.signal }.goCaller t (.holding ops))
  | takeSignal {timed ops} (hpc : (s.callers t).pc = .waiting timed ops)
      (hflag : s.logSemaphore.mutex = true) :
      CallerStep s t ({ s with
        logSemaphore := { s.logSemaphore with mutex := false } }.goCaller t (.holding ops))
  | park {timed ops} (hpc : (s.callers t).pc = .waiting timed ops)
      (hflag : s.logSemaphore.mutex = false) :
      CallerStep s t ({ s with
        logSemaphore := { s.logSemaphore with condVar := .caller t :: s.logSemaphore.condVar }
          }.goCaller t (.waiting timed ops))
  | request {call} (hpc : (s.callers t).pc = .write .request call) :
      CallerStep s t ({ s with lock := s.lock.requestWrite (.caller t) }.goCaller t
        (.write .await call))
  | grant {call lock} (hpc : (s.callers t).pc = .write .await call)
      (hlock : s.lock.tryWrite (.caller t) = some lock) :
      CallerStep s t ({ s with lock }.goCaller t (.write .held call))
  | register {tag now world ctx} (hpc : (s.callers t).pc = .write .held (.registerContext tag now))
      (hadd : addContext tag (s.world, s.ctx) = .ok () (world, ctx)) :
      CallerStep s t ({ s with world, ctx, lock := s.lock.releaseWrite }.goCaller t .idle)
  | registerFailed {tag now e world ctx}
      (hpc : (s.callers t).pc = .write .held (.registerContext tag now))
      (hadd : addContext tag (s.world, s.ctx) = .error e (world, ctx)) :
      CallerStep s t ({ s with world, ctx, lock := s.lock.releaseWrite }.goCaller t
        (.wantRead [.queueLog (contextErrorLog tag e now)]))
  | unregister {tag} (hpc : (s.callers t).pc = .write .held (.unregisterContext tag)) :
      CallerStep s t ({ s with
        world := (removeContext tag s.world s.ctx).1
        ctx := (removeContext tag s.world s.ctx).2
        lock := s.lock.releaseWrite }.goCaller t .idle)
  | addSink (hpc : (s.callers t).pc = .write .held .addSink) :
      CallerStep s t ({ s with
        ctx := s.ctx.addSink s.history.dispatched.length
        lock := s.lock.releaseWrite }.goCaller t .idle)

lemma callerStep_sound {s s' : Sys W ω Tid} {t : Tid} (h : s.callerStep t = some s') :
    CallerStep s t s' := by
  unfold callerStep at h
  cases hpc : (s.callers t).pc with
  | idle =>
      rw [hpc] at h
      cases htodo : (s.callers t).todo with
      | nil => simp [htodo] at h
      | cons call todo =>
          cases call with
          | read ops =>
              simp only [htodo, Option.some.injEq] at h
              exact h ▸ .beginRead hpc htodo
          | write call =>
              simp only [htodo, Option.some.injEq] at h
              exact h ▸ .beginWrite hpc htodo
  | wantRead ops =>
      rw [hpc] at h
      obtain ⟨lock, hlock, rfl⟩ := Option.map_eq_some_iff.1 h
      exact .enter hpc hlock
  | holding ops =>
      rw [hpc] at h
      cases ops with
      | nil => exact Option.some.inj h ▸ .leave hpc
      | cons op ops => exact Option.some.inj h ▸ .next hpc
  | pushing logs ops =>
      rw [hpc] at h
      exact Option.some.inj h ▸ .push hpc
  | signalling ops =>
      rw [hpc] at h
      exact Option.some.inj h ▸ .signal hpc
  | waiting timed ops =>
      rw [hpc] at h
      simp only [Option.ite_none_left_eq_some, Option.some.injEq] at h
      obtain ⟨-, rfl⟩ := h
      cases hflag : s.logSemaphore.mutex with
      | true => simpa [SemaphoreLite.check_of_mutex hflag] using .takeSignal hpc hflag
      | false => simpa [SemaphoreLite.check_of_not_mutex hflag] using .park hpc hflag
  | write phase call =>
      rw [hpc] at h
      cases phase with
      | request => exact Option.some.inj h ▸ .request hpc
      | await =>
          obtain ⟨lock, hlock, rfl⟩ := Option.map_eq_some_iff.1 h
          exact .grant hpc hlock
      | held =>
          obtain rfl := Option.some.inj h
          cases call with
          | registerContext tag now =>
              simp only [writeCall]
              split
              · rename_i hadd
                exact .register hpc hadd
              · rename_i hadd
                exact .registerFailed hpc hadd
          | unregisterContext tag => exact .unregister hpc
          | addSink => exact .addSink hpc

/-- The steps of the logging thread. -/
inductive LogThreadStep (s : Sys W ω Tid) (result : Except LoggerError Unit) (now : DateTime) :
    Sys W ω Tid → Prop
  | take (hpc : s.logThread.pc = .take) : LogThreadStep s result now s.takeQueue
  | enter {sec lock} (hpc : s.logThread.pc = .wantRead sec)
      (hlock : s.lock.tryRead .logThread = some lock) :
      LogThreadStep s result now ({ s with lock }.goLog (.reading sec))
  | split {queue logs} (hpc : s.logThread.pc = .reading (.config queue))
      (hsplit : splitStrIntoChunks queue s.ctx.config.maxStringLen = some logs) :
      LogThreadStep s result now ({ s with lock := s.lock.releaseRead .logThread }.goLog
        (.write .request (.batch queue logs)))
  | splitPanic {queue} (hpc : s.logThread.pc = .reading (.config queue))
      (hsplit : splitStrIntoChunks queue s.ctx.config.maxStringLen = none) :
      LogThreadStep s result now ({ s with lock := s.lock.releaseRead .logThread }.goLog
        (.terminated none))
  | sink {i log rest dying} (hpc : s.logThread.pc = .reading (.sinks i log rest dying))
      (hi : i < s.ctx.sinks.length) (hresult : result = .ok ()) :
      LogThreadStep s result now
        ((s.callSink i log).goLog (.reading (.sinks (i + 1) log rest dying)))
  | sinkFailed {i log rest e} (hpc : s.logThread.pc = .reading (.sinks i log rest none))
      (hi : i < s.ctx.sinks.length) (hresult : result = .error e) :
      LogThreadStep s result now
        (({ s with lock := s.lock.releaseRead .logThread }.callSink i log).goLog
          (.write .request (.flush (some e))))
  | errorSinkFailed {i log rest e e'}
      (hpc : s.logThread.pc = .reading (.sinks i log rest (some e)))
      (hi : i < s.ctx.sinks.length) (hresult : result = .error e') :
      LogThreadStep s result now
        (({ s with lock := s.lock.releaseRead .logThread }.callSink i log).goLog
          (.terminated (some e)))
  | sinksDone {i log rest} (hpc : s.logThread.pc = .reading (.sinks i log rest none))
      (hi : s.ctx.sinks.length ≤ i) :
      LogThreadStep s result now ({ s with
        lock := s.lock.releaseRead .logThread
        history := { s.history with dispatched := s.history.dispatched ++ [log] } }.goLog
          (nextRecord rest))
  | errorSinksDone {i log rest e} (hpc : s.logThread.pc = .reading (.sinks i log rest (some e)))
      (hi : s.ctx.sinks.length ≤ i) :
      LogThreadStep s result now ({ s with lock := s.lock.releaseRead .logThread }.goLog
        (.terminated (some e)))
  | request {sec} (hpc : s.logThread.pc = .write .request sec) :
      LogThreadStep s result now ({ s with lock := s.lock.requestWrite .logThread }.goLog
        (.write .await sec))
  | grant {sec lock} (hpc : s.logThread.pc = .write .await sec)
      (hlock : s.lock.tryWrite .logThread = some lock) :
      LogThreadStep s result now ({ s with lock }.goLog (.write .held sec))
  | batch {queue logs world ctx} (hpc : s.logThread.pc = .write .held (.batch queue logs))
      (hio : doLogBatch logs (s.world, s.ctx) = .ok () (world, ctx)) :
      LogThreadStep s result now ({ s with
        world, ctx
        lock := s.lock.releaseWrite
        history :=
          { s.history with
            written := s.history.written ++ queue
            recorded := s.history.recorded ++ logs } }.goLog (nextRecord logs))
  | batchFailed {queue logs e world ctx} (hpc : s.logThread.pc = .write .held (.batch queue logs))
      (hio : doLogBatch logs (s.world, s.ctx) = .error e (world, ctx)) :
      LogThreadStep s result now ({ s with world, ctx, lock := s.lock.releaseWrite }.goLog
        (.write .request (.flush (some (.ioError e)))))
  | flush {dying world ctx} (hpc : s.logThread.pc = .write .held (.flush dying))
      (hio : flushFiles (s.world, s.ctx) = .ok () (world, ctx)) :
      LogThreadStep s result now ({ s with world, ctx, lock := s.lock.releaseWrite }.goLog
        (.signalFlush dying))
  | flushFailed {e world ctx} (hpc : s.logThread.pc = .write .held (.flush none))
      (hio : flushFiles (s.world, s.ctx) = .error e (world, ctx)) :
      LogThreadStep s result now ({ s with world, ctx, lock := s.lock.releaseWrite }.goLog
        (.write .request (.flush (some (.flushError e)))))
  | errorFlushFailed {e e' world ctx} (hpc : s.logThread.pc = .write .held (.flush (some e)))
      (hio : flushFiles (s.world, s.ctx) = .error e' (world, ctx)) :
      LogThreadStep s result now ({ s with world, ctx, lock := s.lock.releaseWrite }.goLog
        (.write .request (.errorRecord (Paperlog.errorRecord e now) e)))
  | errorRecord {log e world ctx} (hpc : s.logThread.pc = .write .held (.errorRecord log e))
      (hio : fileDoLog log (s.world, s.ctx) = .ok () (world, ctx)) :
      LogThreadStep s result now ({ s with world, ctx, lock := s.lock.releaseWrite }.goLog
        (.wantRead (.sinks 0 log [] (some e))))
  | errorRecordFailed {log e e' world ctx} (hpc : s.logThread.pc = .write .held (.errorRecord log e))
      (hio : fileDoLog log (s.world, s.ctx) = .error e' (world, ctx)) :
      LogThreadStep s result now ({ s with world, ctx, lock := s.lock.releaseWrite }.goLog
        (.terminated (some e)))
  | flushDue (hpc : s.logThread.pc = .checkFlush)
      (hdue : s.queue = [] ∨ 100 ≤ s.logThread.logged) :
      LogThreadStep s result now (s.goLog (.write .request (.flush none)))
  | flushLater (hpc : s.logThread.pc = .checkFlush) (hqueue : s.queue ≠ [])
      (hlogged : s.logThread.logged < 100) :
      LogThreadStep s result now (s.goLog .checkWait)
  | flushed (hpc : s.logThread.pc = .signalFlush none) :
      LogThreadStep s result now { s with
        flushSemaphore := s.flushSemaphore.signal
        logThread := { s.logThread with pc := .checkWait, logged := 0 }
        history := { s.history with flushed := s.history.written.length } }
  | errorFlushed {e} (hpc : s.logThread.pc = .signalFlush (some e)) :
      LogThreadStep s result now ({ s with
        flushSemaphore := s.flushSemaphore.signal
        history := { s.history with flushed := s.history.written.length } }.goLog
          (.write .request (.errorRecord (Paperlog.errorRecord e now) e)))
  | sleep (hpc : s.logThread.pc = .checkWait) (hqueue : s.queue = []) :
      LogThreadStep s result now (s.goLog .waiting)
  | again (hpc : s.logThread.pc = .checkWait) (hqueue : s.queue ≠ []) :
      LogThreadStep s result now s.endIteration
  | wake (hpc : s.logThread.pc = .waiting) (hflag : s.logSemaphore.mutex = true) :
      LogThreadStep s result now
        { s with logSemaphore := { s.logSemaphore with mutex := false } }.endIteration
  | park (hpc : s.logThread.pc = .waiting) (hflag : s.logSemaphore.mutex = false) :
      LogThreadStep s result now { s with
        logSemaphore :=
          { s.logSemaphore with condVar := .logThread :: s.logSemaphore.condVar } }

lemma logThreadStep_sound {s s' : Sys W ω Tid} {result : Except LoggerError Unit} {now : DateTime}
    (h : s.logThreadStep result now = some s') : LogThreadStep s result now s' := by
  unfold logThreadStep at h
  cases hpc : s.logThread.pc with
  | take =>
      rw [hpc] at h
      exact Option.some.inj h ▸ .take hpc
  | wantRead sec =>
      rw [hpc] at h
      obtain ⟨lock, hlock, rfl⟩ := Option.map_eq_some_iff.1 h
      exact .enter hpc hlock
  | reading sec =>
      rw [hpc] at h
      cases sec with
      | config queue =>
          obtain rfl := Option.some.inj h
          simp only [readConfig]
          split
          · rename_i hsplit
            exact .splitPanic hpc hsplit
          · rename_i hsplit
            exact .split hpc hsplit
      | sinks i log rest dying =>
          obtain rfl := Option.some.inj h
          simp only [sinkStep]
          split
          · rename_i hi
            split
            · exact .sink hpc hi rfl
            · exact .sinkFailed hpc hi rfl
            · exact .errorSinkFailed hpc hi rfl
          · rename_i hi
            split
            · exact .sinksDone hpc (Nat.le_of_not_lt hi)
            · exact .errorSinksDone hpc (Nat.le_of_not_lt hi)
  | write phase sec =>
      rw [hpc] at h
      cases phase with
      | request => exact Option.some.inj h ▸ .request hpc
      | await =>
          obtain ⟨lock, hlock, rfl⟩ := Option.map_eq_some_iff.1 h
          exact .grant hpc hlock
      | held =>
          obtain rfl := Option.some.inj h
          cases sec with
          | batch queue logs =>
              simp only [writeSection]
              split
              · rename_i hio
                exact .batch hpc hio
              · rename_i hio
                exact .batchFailed hpc hio
          | flush dying =>
              simp only [writeSection]
              split
              · rename_i hio
                exact .flush hpc hio
              · rename_i hio
                cases dying with
                | none => exact .flushFailed hpc hio
                | some e => exact .errorFlushFailed hpc hio
          | errorRecord log e =>
              simp only [writeSection]
              split
              · rename_i hio
                exact .errorRecord hpc hio
              · rename_i hio
                exact .errorRecordFailed hpc hio
  | checkFlush =>
      rw [hpc] at h
      obtain rfl := Option.some.inj h
      split
      · rename_i hdue
        exact .flushDue hpc hdue
      · rename_i hdue
        rw [not_or, Nat.not_le] at hdue
        exact .flushLater hpc hdue.1 hdue.2
  | signalFlush dying =>
      rw [hpc] at h
      cases dying with
      | none => exact Option.some.inj h ▸ .flushed hpc
      | some e => exact Option.some.inj h ▸ .errorFlushed hpc
  | checkWait =>
      rw [hpc] at h
      obtain rfl := Option.some.inj h
      split
      · rename_i hqueue
        exact .sleep hpc hqueue
      · rename_i hqueue
        exact .again hpc hqueue
  | waiting =>
      rw [hpc] at h
      simp only [Option.ite_none_left_eq_some, Option.some.injEq] at h
      obtain ⟨-, rfl⟩ := h
      cases hflag : s.logSemaphore.mutex with
      | true => simpa [SemaphoreLite.check_of_mutex hflag] using .wake hpc hflag
      | false => simpa [SemaphoreLite.check_of_not_mutex hflag] using .park hpc hflag
  | terminated error =>
      rw [hpc] at h
      cases h

variable {s s' : Sys W ω Tid}

/-- A caller inside `wait` has no step while it is parked. -/
theorem awake_of_callerStep {t : Tid} {timed : Bool} {ops : List GuardedOp}
    (hpc : (s.callers t).pc = .waiting timed ops) (hstep : s.callerStep t = some s') :
    .caller t ∉ s.logSemaphore.condVar := by
  simp only [callerStep, hpc, Option.ite_none_left_eq_some] at hstep
  exact hstep.1

theorem awake_of_logThreadStep {result : Except LoggerError Unit} {now : DateTime}
    (hpc : s.logThread.pc = .waiting) (hstep : s.logThreadStep result now = some s') :
    .logThread ∉ s.logSemaphore.condVar := by
  simp only [logThreadStep, hpc, Option.ite_none_left_eq_some] at hstep
  exact hstep.1

end Sys

end Paperlog
