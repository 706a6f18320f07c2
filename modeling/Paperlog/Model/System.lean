import Paperlog.Framework.RwLock
import Paperlog.Framework.Transition
import Paperlog.Model.LoggerThreadCtx
import Paperlog.Model.SemaphoreLite
import Paperlog.Model.VecPool

/-!
# The running logger: `log_thread`, its callers, and every interleaving

The state `Sys` holds what the threads share (the `RwLock` and the context behind it, the queue,
the two semaphores) and where every thread is.  `log_thread` and the closure around it are a
program counter `LogThreadPc`; each of arbitrarily many caller threads, named by a type `Tid`, works
through a list of calls with a `CallerPc`.  One step is one critical section or one local decision
of one thread, and the `Action` says whose; it also carries what the code cannot determine (the
answer of a sink, the clock, a spurious wake-up, a time-out).  A thread that is blocked has no
step.

Every section under the `RwLock` is entered by a step of its own, so a thread can be found between
its request and its guard.  A caller holds one read guard over a list of operations
(`logger.read()` bound to a variable); the FFI functions are the lists of length one.

`History` is not part of the program: it remembers what went in and how far it got, for the
theorems to speak about.
-/

namespace Paperlog

/-- The threads of the process that can touch the logger. -/
inductive Party (Tid : Type)
  | logThread
  | caller (t : Tid)
  deriving DecidableEq

/-- Where a thread stands with a write section: before `write()`, waiting in it, or inside. -/
inductive WritePhase
  | request
  | await
  | held
  deriving DecidableEq

/-! ## Program points -/

/-- The methods called through a read guard.  `queue_log` pushes one entry, `queue_logs` the
entries of its iterator, under one lock of the queue and with one signal. -/
inductive GuardedOp
  | queueLogs (logs : List LogData)
  | waitForFlush
  | waitForFlushTimeout
  deriving DecidableEq

/-- `LoggerThreadCtx::queue_log`. -/
def GuardedOp.queueLog (log : LogData) : GuardedOp := .queueLogs [log]

/-- The FFI functions that take the write guard. -/
inductive WriteCall
  | registerContext (tag : Str) (now : DateTime)
  | unregisterContext (tag : Str)
  | addSink
  deriving DecidableEq

inductive Call
  | read (ops : List GuardedOp)
  | write (call : WriteCall)
  deriving DecidableEq

inductive CallerPc
  | idle
  /-- Blocked in, or about to enter, `read()`. -/
  | wantRead (ops : List GuardedOp)
  /-- Holds the guard, between two operations. -/
  | holding (ops : List GuardedOp)
  /-- Inside `queue_log`, before the push. -/
  | pushing (logs : List LogData) (ops : List GuardedOp)
  /-- Inside `queue_log`, between the push and the signal. -/
  | signalling (ops : List GuardedOp)
  /-- Inside `wait` or, when `timed`, `wait_timeout` of the queue semaphore. -/
  | waiting (timed : Bool) (ops : List GuardedOp)
  | write (phase : WritePhase) (call : WriteCall)
  deriving DecidableEq

structure Caller where
  pc : CallerPc
  todo : List Call

/-- The read sections of the logging thread. -/
inductive ReadSection
  /-- `logger_thread.read().config.max_string_len`. -/
  | config (queue : List LogData)
  /-- `sink_logger::do_log` before its `i`-th sink; `rest` are the records still to dispatch.  With
  `dying`, the call is the one for the error record. -/
  | sinks (i : ℕ) (log : LogData) (rest : List LogData) (dying : Option LoggerError)
  deriving DecidableEq

/-- The write sections of the logging thread. -/
inductive WriteSection
  | batch (queue logs : List LogData)
  /-- `LoggerThreadCtx::flush`, of the loop or, with `dying`, of the error branch. -/
  | flush (dying : Option LoggerError)
  /-- `file_logger::do_log` of the error record. -/
  | errorRecord (log : LogData) (e : LoggerError)
  deriving DecidableEq

/-- The program points of the logging thread: the loop of `log_thread` from `take` to `waiting`,
and the error branch after it. -/
inductive LogThreadPc
  | take
  | wantRead (sec : ReadSection)
  | reading (sec : ReadSection)
  | write (phase : WritePhase) (sec : WriteSection)
  /-- Before `if is_empty || logged >= 100`. -/
  | checkFlush
  /-- Before `flush_semaphore.signal()`. -/
  | signalFlush (dying : Option LoggerError)
  /-- Before `if log_mutex.lock().is_empty()`. -/
  | checkWait
  /-- Inside `log_semaphore_lite.wait()`. -/
  | waiting
  /-- The thread has ended: after the error branch, or (`none`) by a panic. -/
  | terminated (error : Option LoggerError)
  deriving DecidableEq

/-- The logging thread with the locals of `log_thread`; `vec` is the guard's vector. -/
structure LogThread where
  pc : LogThreadPc
  logged : ℕ
  logPool : VecPool LogData
  vec : Vec LogData

/-- What happened so far. -/
structure History (Tid : Type) where
  /-- The calls that pushed, in the order of the queue mutex, with their entries. -/
  pushed : List (Tid × List LogData)
  /-- The entries the logging thread has written. -/
  written : List LogData
  /-- The records it has handed to the global file. -/
  recorded : List LogData
  /-- The records it has dispatched to the sinks. -/
  dispatched : List LogData
  /-- How many entries had been written when the last completed `flush` ran. -/
  flushed : ℕ

structure Sys (W ω Tid : Type) where
  world : W
  ctx : LoggerThreadCtx ω
  lock : RwLock (Party Tid)
  queue : List LogData
  logSemaphore : SemaphoreLite (Party Tid)
  flushSemaphore : SemaphoreLite (Party Tid)
  logThread : LogThread
  callers : Tid → Caller
  history : History Tid

inductive Action (Tid : Type)
  /-- The next step of a caller. -/
  | caller (t : Tid)
  /-- The next step of the logging thread; `result` answers a sink call, `now` is the clock. -/
  | logThread (result : Except LoggerError Unit) (now : DateTime)
  /-- A parked thread wakes up for no reason. -/
  | spurious (p : Party Tid)
  /-- The time of a parked `wait_timeout` is over. -/
  | timeout (t : Tid)

/-- The thread that takes the step. -/
def Action.actor {Tid : Type} : Action Tid → Party Tid
  | .caller t => .caller t
  | .logThread _ _ => .logThread
  | .spurious p => p
  | .timeout t => .caller t

/-- The sink answers nothing but `Ok`. -/
def Action.SinkOk {Tid : Type} : Action Tid → Prop
  | .logThread result _ => result = .ok ()
  | _ => True

/-! ## The records the code itself writes -/

/-- The record the error branch of the logging thread logs. -/
def errorRecord (e : LoggerError) (now : DateTime) : LogData :=
  { level := .error
    tag := some "Paper2".toList
    message := "Error occurred in logging thread: ".toList ++ e.display
    timestamp := now
    file := "src/logger/logger_thread_ctx.rs".toList
    line := 168
    column := 17
    functionName := none }

/-- The entry `paper2_register_context_id` queues when `add_context` fails. -/
def contextErrorLog (tag : Str) (e : LoggerError) (now : DateTime) : LogData :=
  { LogData.default now with
    level := .info
    tag := none
    message := "Error creating context ".toList ++ tag ++ ":\n".toList ++ e.display
    file := "src/ffi.rs".toList
    line := 108
    column := 21
    functionName := none }

namespace Sys

open LoggerThreadCtx

variable {W ω Tid : Type}

/-- The state after `init`: the logging thread is at the top of its loop, nothing is queued. -/
def start (world : W) (ctx : LoggerThreadCtx ω) (todo : Tid → List Call) : Sys W ω Tid :=
  { world, ctx
    lock := .free
    queue := []
    logSemaphore := .new
    flushSemaphore := .new
    logThread :=
      { pc := .take, logged := 0, logPool := .withInitialAmount 2 1024, vec := .withCapacity 0 }
    callers := fun t => { pc := .idle, todo := todo t }
    history := { pushed := [], written := [], recorded := [], dispatched := [], flushed := 0 } }

/-- `LoggerThreadCtx::new` and `init`: the state in which the thread has just been spawned.  That the
vector of the queue can be allocated is for `GlobalLogger.create` to say. -/
def boot [FileIo W ω] (world : W) (config : LoggerConfig) (logPath : PathBuf)
    (todo : Tid → List Call) : Except LoggerError (Sys W ω Tid) :=
  match LoggerThreadCtx.new config logPath world with
  | .error e _ => .error e
  | .ok ctx world => ctx.init.map fun ctx => start world ctx todo

/-! ## Steps of a caller -/

variable [DecidableEq Tid]

/-- Moves caller `t` to another program point. -/
def goCaller (s : Sys W ω Tid) (t : Tid) (pc : CallerPc) : Sys W ω Tid :=
  { s with callers := Function.update s.callers t { s.callers t with pc } }

section

variable (s : Sys W ω Tid) (t : Tid) (pc : CallerPc)

@[simp] lemma goCaller_history : (s.goCaller t pc).history = s.history := rfl

@[simp] lemma goCaller_callers_self :
    (s.goCaller t pc).callers t = { s.callers t with pc } := by
  simp [goCaller]

lemma goCaller_callers_of_ne {u : Tid} (h : u ≠ t) :
    (s.goCaller t pc).callers u = s.callers u := by
  simp [goCaller, h]

end

/-- The program point at the start of the next operation under a read guard. -/
def startOp : List GuardedOp → CallerPc
  | [] => .holding []
  | .queueLogs logs :: ops => .pushing logs ops
  | .waitForFlush :: ops => .waiting false ops
  | .waitForFlushTimeout :: ops => .waiting true ops

section CallerStep

variable [FileIo W ω]

/-- The write section of a caller; the guard is dropped at its end. -/
def writeCall (s : Sys W ω Tid) (t : Tid) : WriteCall → Sys W ω Tid
  | .registerContext tag now =>
      match addContext tag (s.world, s.ctx) with
      | .ok _ (world, ctx) =>
          { s with world, ctx, lock := s.lock.releaseWrite }.goCaller t .idle
      | .error e (world, ctx) =>
          { s with world, ctx, lock := s.lock.releaseWrite }.goCaller t
            (.wantRead [.queueLog (contextErrorLog tag e now)])
  | .unregisterContext tag =>
      let (world, ctx) := removeContext tag s.world s.ctx
      { s with world, ctx, lock := s.lock.releaseWrite }.goCaller t .idle
  | .addSink =>
      { s with
        ctx := s.ctx.addSink s.history.dispatched.length
        lock := s.lock.releaseWrite }.goCaller t .idle

def callerStep (s : Sys W ω Tid) (t : Tid) : Option (Sys W ω Tid) :=
  match (s.callers t).pc with
  | .idle =>
      match (s.callers t).todo with
      | [] => none
      | .read ops :: todo =>
          some { s with callers := Function.update s.callers t { pc := .wantRead ops, todo } }
      | .write call :: todo =>
          some { s with callers := Function.update s.callers t { pc := .write .request call, todo } }
  | .wantRead ops =>
      (s.lock.tryRead (.caller t)).map fun lock => { s with lock }.goCaller t (startOp ops)
  | .holding [] =>
      some ({ s with lock := s.lock.releaseRead (.caller t) }.goCaller t .idle)
  | .holding (op :: ops) => some (s.goCaller t (startOp (op :: ops)))
  | .pushing logs ops =>
      some ({ s with
        queue := s.queue ++ logs
        history := { s.history with pushed := s.history.pushed ++ [(t, logs)] } }.goCaller t
          (.signalling ops))
  | .signalling ops =>
      some ({ s with logSemaphore := s.logSemaphore.signal }.goCaller t (.holding ops))
  | .waiting timed ops =>
      if .caller t ∈ s.logSemaphore.condVar then none
      else
        let (sem, taken) := s.logSemaphore.check (.caller t)
        some ({ s with logSemaphore := sem }.goCaller t
          (if taken then .holding ops else .waiting timed ops))
  | .write .request call =>
      some ({ s with lock := s.lock.requestWrite (.caller t) }.goCaller t (.write .await call))
  | .write .await call =>
      (s.lock.tryWrite (.caller t)).map fun lock => { s with lock }.goCaller t (.write .held call)
  | .write .held call => some (s.writeCall t call)

end CallerStep

/-! ## Steps of the logging thread -/

omit [DecidableEq Tid] in
/-- Moves the logging thread to another program point. -/
def goLog (s : Sys W ω Tid) (pc : LogThreadPc) : Sys W ω Tid :=
  { s with logThread := { s.logThread with pc } }

section

variable (s : Sys W ω Tid) (pc : LogThreadPc)

omit [DecidableEq Tid]

@[simp] lemma goLog_ctx : (s.goLog pc).ctx = s.ctx := rfl
@[simp] lemma goLog_queue : (s.goLog pc).queue = s.queue := rfl
@[simp] lemma goLog_history : (s.goLog pc).history = s.history := rfl
@[simp] lemma goLog_logThread : (s.goLog pc).logThread = { s.logThread with pc } := rfl

end

omit [DecidableEq Tid] in
/-- The end of an iteration: the pool guard is dropped. -/
def endIteration (s : Sys W ω Tid) : Sys W ω Tid :=
  { s with
    logThread :=
      { s.logThread with
        pc := .take
        logPool := s.logThread.logPool.returnVec s.logThread.vec
        vec := .withCapacity 0 } }

omit [DecidableEq Tid] in
@[simp] lemma endIteration_pc (s : Sys W ω Tid) : s.endIteration.logThread.pc = .take := rfl

/-- `for log in &logs_vec`. -/
def nextRecord : List LogData → LogThreadPc
  | [] => .checkFlush
  | log :: rest => .wantRead (.sinks 0 log rest none)

omit [DecidableEq Tid] in
/-- The swap at the top of the loop. -/
def takeQueue (s : Sys W ω Tid) : Sys W ω Tid :=
  let (vec, logPool) := s.logThread.logPool.takeVec
  { s with
    queue := vec.items
    logThread :=
      { pc := if s.queue = [] then .checkFlush else .wantRead (.config s.queue)
        logged := s.logThread.logged + s.queue.length
        logPool, vec } }

/-- Reads `max_string_len`, drops the guard and splits the batch. -/
def readConfig (s : Sys W ω Tid) (queue : List LogData) : Sys W ω Tid :=
  { s with lock := s.lock.releaseRead .logThread }.goLog
    (match splitStrIntoChunks queue s.ctx.config.maxStringLen with
    | none => .terminated none
    | some logs => .write .request (.batch queue logs))

omit [DecidableEq Tid] in
/-- A sink has been called with `log`. -/
def callSink (s : Sys W ω Tid) (i : ℕ) (log : LogData) : Sys W ω Tid :=
  { s with
    ctx :=
      { s.ctx with
        sinks := s.ctx.sinks.modify i fun sink => { sink with received := sink.received ++ [log] } } }

/-- One pass of the loop of `sink_logger::do_log`. -/
def sinkStep (s : Sys W ω Tid) (result : Except LoggerError Unit) (i : ℕ) (log : LogData)
    (rest : List LogData) (dying : Option LoggerError) : Sys W ω Tid :=
  let unlocked := { s with lock := s.lock.releaseRead .logThread }
  if i < s.ctx.sinks.length then
    match result, dying with
    | .ok _, dying => (s.callSink i log).goLog (.reading (.sinks (i + 1) log rest dying))
    | .error e, none => (unlocked.callSink i log).goLog (.write .request (.flush (some e)))
    | .error _, some e => (unlocked.callSink i log).goLog (.terminated (some e))
  else
    match dying with
    | none =>
        { unlocked with
          history := { s.history with dispatched := s.history.dispatched ++ [log] } }.goLog
            (nextRecord rest)
    | some e => unlocked.goLog (.terminated (some e))

section LogThreadStep

variable [FileIo W ω]

omit [DecidableEq Tid] in
/-- The write sections of the logging thread; the guard is dropped at their end. -/
def writeSection (s : Sys W ω Tid) (now : DateTime) : WriteSection → Sys W ω Tid
  | .batch queue logs =>
      match doLogBatch logs (s.world, s.ctx) with
      | .ok _ (world, ctx) =>
          { s with
            world, ctx
            lock := s.lock.releaseWrite
            history :=
              { s.history with
                written := s.history.written ++ queue
                recorded := s.history.recorded ++ logs } }.goLog (nextRecord logs)
      | .error e (world, ctx) =>
          { s with world, ctx, lock := s.lock.releaseWrite }.goLog
            (.write .request (.flush (some (.ioError e))))
  | .flush dying =>
      match flushFiles (s.world, s.ctx) with
      | .ok _ (world, ctx) =>
          { s with world, ctx, lock := s.lock.releaseWrite }.goLog (.signalFlush dying)
      | .error e (world, ctx) =>
          { s with world, ctx, lock := s.lock.releaseWrite }.goLog
            (match dying with
            | none => .write .request (.flush (some (.flushError e)))
            | some e => .write .request (.errorRecord (errorRecord e now) e))
  | .errorRecord log e =>
      match fileDoLog log (s.world, s.ctx) with
      | .ok _ (world, ctx) =>
          { s with world, ctx, lock := s.lock.releaseWrite }.goLog
            (.wantRead (.sinks 0 log [] (some e)))
      | .error _ (world, ctx) =>
          { s with world, ctx, lock := s.lock.releaseWrite }.goLog (.terminated (some e))

/-- The next step of the logging thread, in a build with the features `file`, `sinks` and `ffi`.  The
call of the logcat backend, which Android builds make, is a step of `LogcatSys`; `stdout` and
`tracing` are off. -/
def logThreadStep (s : Sys W ω Tid) (result : Except LoggerError Unit) (now : DateTime) :
    Option (Sys W ω Tid) :=
  match s.logThread.pc with
  | .take => some s.takeQueue
  | .wantRead sec =>
      (s.lock.tryRead .logThread).map fun lock => { s with lock }.goLog (.reading sec)
  | .reading (.config queue) => some (s.readConfig queue)
  | .reading (.sinks i log rest dying) => some (s.sinkStep result i log rest dying)
  | .write .request sec =>
      some ({ s with lock := s.lock.requestWrite .logThread }.goLog (.write .await sec))
  | .write .await sec =>
      (s.lock.tryWrite .logThread).map fun lock => { s with lock }.goLog (.write .held sec)
  | .write .held sec => some (s.writeSection now sec)
  | .checkFlush =>
      some (s.goLog
        (if s.queue = [] ∨ 100 ≤ s.logThread.logged then .write .request (.flush none)
        else .checkWait))
  | .signalFlush none =>
      some { s with
        flushSemaphore := s.flushSemaphore.signal
        logThread := { s.logThread with pc := .checkWait, logged := 0 }
        history := { s.history with flushed := s.history.written.length } }
  | .signalFlush (some e) =>
      some ({ s with
        flushSemaphore := s.flushSemaphore.signal
        history := { s.history with flushed := s.history.written.length } }.goLog
          (.write .request (.errorRecord (errorRecord e now) e)))
  | .checkWait => some (if s.queue = [] then s.goLog .waiting else s.endIteration)
  | .waiting =>
      if .logThread ∈ s.logSemaphore.condVar then none
      else
        let (sem, taken) := s.logSemaphore.check .logThread
        let checked := { s with logSemaphore := sem }
        some (if taken then checked.endIteration else checked)
  | .terminated _ => none

/-- One step of the system. -/
def step (s : Sys W ω Tid) : Action Tid → Option (Sys W ω Tid)
  | .caller t => s.callerStep t
  | .logThread result now => s.logThreadStep result now
  | .spurious p =>
      if p ∈ s.logSemaphore.condVar then some { s with logSemaphore := s.logSemaphore.unpark p }
      else none
  | .timeout t =>
      if .caller t ∈ s.logSemaphore.condVar then
        match (s.callers t).pc with
        | .waiting true ops =>
            some ({ s with logSemaphore := s.logSemaphore.unpark (.caller t) }.goCaller t
              (.holding ops))
        | _ => none
      else none

end LogThreadStep

end Sys

end Paperlog
