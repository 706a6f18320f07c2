import Paperlog.Framework.Progress
import Paperlog.Model.Scenario
import Paperlog.Properties.Delivery
import Mathlib.Algebra.Order.BigOperators.Group.Finset
import Mathlib.Data.Prod.Lex

/-!
# The logger does only finitely much by itself

The logging thread loops for ever, but it goes round only when it is given something to do.
`Sys.logWork` bounds the steps it can still take when it is left alone: the records that the queue
and the batch in hand are split into, each with a call for every sink, the flush at the end of the
turn, one more turn when the flag of its semaphore is up, and the error branch, which any of these
may end in.  Every step it takes lowers the bound (`logWork_lt`), whatever the writers, the clock
and the sinks answer, so it parks, ends, or waits for the lock within so many steps
(`length_le_logWork`).  The sinks only answer: a sink that itself logs whatever it is handed, as
`CallbackSys` has it, keeps the thread busy for ever.

The program of a caller is a list of calls, so only so many steps are left in it (`Caller.work`).
But a caller can raise the bound of the logging thread, and it can park without getting on.  So the
measure of the whole system orders first by what the callers have left, then by the callers that are
awake and the work of the logging thread.  `no_endless_schedule` says that finitely many callers and
the logging thread come to a stop in every schedule, as long as nobody is woken for no reason.
-/

namespace Paperlog

/-! ## The steps left to a caller -/

/-- How many steps a caller is away from `idle`, parking apart.  An operation under the read guard
takes at most three, a failed registration is followed by one such operation. -/
def CallerPc.work : CallerPc → ℕ
  | .idle => 0
  | .holding ops => 3 * ops.length + 1
  | .wantRead ops | .signalling ops | .waiting _ ops => 3 * ops.length + 2
  | .pushing _ ops => 3 * ops.length + 3
  | .write .held _ => 6
  | .write .await _ => 7
  | .write .request _ => 8

def Call.work : Call → ℕ
  | .read ops => 3 * ops.length + 3
  | .write _ => 9

/-- The steps left to a caller in its whole program, parking apart. -/
def Caller.work (c : Caller) : ℕ := c.pc.work + (c.todo.map Call.work).sum

/-- A step that the code takes: everything but a wake-up for no reason. -/
def Action.Genuine {Tid : Type} : Action Tid → Prop
  | .spurious _ => False
  | _ => True

theorem work_startOp_le (ops : List GuardedOp) :
    (Sys.startOp ops).work ≤ (CallerPc.holding ops).work := by
  rcases ops with _ | ⟨op, ops⟩
  · exact Nat.le_refl _
  · cases op <;> simp only [Sys.startOp, CallerPc.work, List.length_cons] <;> omega

theorem work_startOp_lt (op : GuardedOp) (ops : List GuardedOp) :
    (Sys.startOp (op :: ops)).work < (CallerPc.holding (op :: ops)).work := by
  cases op <;> simp only [Sys.startOp, CallerPc.work, List.length_cons] <;> omega

/-- A step takes a caller on in its program, unless it parks. -/
theorem work_callerNext {c c' : Caller} (h : Sys.CallerNext c c') :
    c'.work < c.work ∨ c' = c ∧ ∃ timed ops, c.pc = .waiting timed ops := by
  have lt : ∀ {pc pc' : CallerPc} {todo : List Call}, pc'.work < pc.work →
      (⟨pc', todo⟩ : Caller).work < (⟨pc, todo⟩ : Caller).work := by
    intro pc pc' todo hpc
    simp only [Caller.work]
    omega
  cases h with
  | beginRead ops todo =>
      left
      simp only [Caller.work, CallerPc.work, Call.work, List.map_cons, List.sum_cons]
      omega
  | beginWrite call todo =>
      left
      simp only [Caller.work, CallerPc.work, Call.work, List.map_cons, List.sum_cons]
      omega
  | enter ops todo =>
      have hle := work_startOp_le ops
      exact .inl (lt (by simp only [CallerPc.work] at hle ⊢; omega))
  | next op ops todo => exact .inl (lt (work_startOp_lt op ops))
  | park timed ops todo => exact .inr ⟨rfl, timed, ops, rfl⟩
  | _ => exact .inl (lt (by simp [CallerPc.work]))

/-! ## The steps left to the logging thread -/

/-- What the bound reads off a state besides the program point. -/
structure Load where
  sinks : ℕ
  maxStringLen : ℕ
  queue : List LogData
  /-- The flag of the queue semaphore. -/
  flag : Bool
  /-- The thread is parked on it. -/
  parked : Bool

namespace Load

variable (l : Load)

/-- The error branch, from the request of its flush on. -/
def errorWork : ℕ := l.sinks + 9

/-- One record on its way to the sinks. -/
def recordWork : ℕ := l.sinks + 2

/-- A batch of entries, from the end of the swap to the check for a flush. -/
def batchWork (queue : List LogData) : ℕ :=
  5 + (queue.flatMap (pieces l.maxStringLen)).length * l.recordWork

/-- What is left inside `wait` once the queue is empty: park, or one more turn and then park. -/
def sleepWork : ℕ := if l.flag then l.errorWork + 14 else 1

/-- A turn of the loop that starts with this queue, and what comes after it. -/
def turnWork (queue : List LogData) : ℕ := l.batchWork queue + l.errorWork + 7 + l.sleepWork

/-- From the check whether to wait. -/
def checkWaitWork : ℕ := 1 + if l.queue = [] then l.sleepWork else l.turnWork l.queue

/-- From the check whether to flush. -/
def checkFlushWork : ℕ := l.errorWork + 5 + l.checkWaitWork

/-- Inside `wait`. -/
def waitingWork : ℕ :=
  if l.flag then 1 + { l with flag := false }.turnWork l.queue else if l.parked then 0 else 1

variable {l}

/-- With an empty queue the thread is about to park, or about to go round once more and park. -/
theorem waitingWork_le_of_nil (hqueue : l.queue = []) : l.waitingWork ≤ l.sleepWork := by
  simp only [waitingWork, sleepWork, hqueue]
  by_cases hflag : l.flag = true
  · simp only [hflag, if_true, turnWork, batchWork, sleepWork, errorWork, List.flatMap_nil,
      List.length_nil]
    simp
    omega
  · rw [if_neg hflag, if_neg hflag]
    split <;> omega

end Load

/-- A bound on the steps of the logging thread from this point on, when nobody else moves. -/
def LogThreadPc.work (l : Load) : LogThreadPc → ℕ
  | .take => l.turnWork l.queue
  | .wantRead (.config queue) => l.batchWork queue + l.checkFlushWork
  | .reading (.config queue) => l.batchWork queue - 1 + l.checkFlushWork
  | .write .request (.batch _ logs) => 3 + logs.length * l.recordWork + l.checkFlushWork
  | .write .await (.batch _ logs) => 2 + logs.length * l.recordWork + l.checkFlushWork
  | .write .held (.batch _ logs) => 1 + logs.length * l.recordWork + l.checkFlushWork
  | .wantRead (.sinks i _ rest none) =>
      l.sinks - i + 2 + rest.length * l.recordWork + l.checkFlushWork
  | .reading (.sinks i _ rest none) =>
      l.sinks - i + 1 + rest.length * l.recordWork + l.checkFlushWork
  | .checkFlush => l.checkFlushWork
  | .write .request (.flush none) => l.errorWork + 4 + l.checkWaitWork
  | .write .await (.flush none) => l.errorWork + 3 + l.checkWaitWork
  | .write .held (.flush none) => l.errorWork + 2 + l.checkWaitWork
  | .signalFlush none => 1 + l.checkWaitWork
  | .checkWait => l.checkWaitWork
  | .waiting => l.waitingWork
  -- The error branch: flush, signal, the error record, the sinks, the end.
  | .write .request (.flush (some _)) => l.errorWork
  | .write .await (.flush (some _)) => l.sinks + 8
  | .write .held (.flush (some _)) => l.sinks + 7
  | .signalFlush (some _) => l.sinks + 6
  | .write .request (.errorRecord _ _) => l.sinks + 5
  | .write .await (.errorRecord _ _) => l.sinks + 4
  | .write .held (.errorRecord _ _) => l.sinks + 3
  | .wantRead (.sinks i _ _ (some _)) => l.sinks - i + 2
  | .reading (.sinks i _ _ (some _)) => l.sinks - i + 1
  | .terminated _ => 0

namespace Sys

open Transition LoggerThreadCtx

variable {W ω Tid : Type} [DecidableEq Tid]

def load (s : Sys W ω Tid) : Load :=
  { sinks := s.ctx.sinks.length
    maxStringLen := s.ctx.config.maxStringLen
    queue := s.queue
    flag := s.logSemaphore.mutex
    parked := s.logSemaphore.condVar.contains .logThread }

/-- A bound on the steps of the logging thread, when nobody else moves. -/
def logWork (s : Sys W ω Tid) : ℕ := s.logThread.pc.work s.load

theorem work_nextRecord (l : Load) (logs : List LogData) :
    (nextRecord logs).work l = logs.length * l.recordWork + l.checkFlushWork := by
  rcases logs with _ | ⟨log, rest⟩
  · simp [nextRecord, LogThreadPc.work]
  · simp only [nextRecord, LogThreadPc.work, List.length_cons, Nat.add_mul, Load.recordWork]
    omega

variable {s s' : Sys W ω Tid}

omit [DecidableEq Tid] in
theorem goLog_pc (s : Sys W ω Tid) (pc : LogThreadPc) : (s.goLog pc).logThread.pc = pc := rfl

theorem logWork_lt_of_load {pc pc' : LogThreadPc} (hpc : s.logThread.pc = pc)
    (hpc' : s'.logThread.pc = pc') (hload : s'.load = s.load)
    (hwork : pc'.work s.load < pc.work s.load) : s'.logWork < s.logWork := by
  subst hpc hpc'
  rw [logWork, hload]
  exact hwork

/-- A sink that has been called is still one sink. -/
theorem load_callSink (s : Sys W ω Tid) (i : ℕ) (log : LogData) :
    (s.callSink i log).load = s.load := by
  have hlength : (s.callSink i log).ctx.sinks.length = s.ctx.sinks.length :=
    List.length_modify _ _ _
  rw [load, hlength]
  rfl

/-- The operations on the files leave the load alone. -/
theorem load_of_sameSetup (h : SameSetup s.ctx s'.ctx) (hqueue : s'.queue = s.queue)
    (hsemaphore : s'.logSemaphore = s.logSemaphore) : s'.load = s.load := by
  simp only [load, h.config, h.sinks, hqueue, hsemaphore]

theorem load_callerPark (s : Sys W ω Tid) (t : Tid) (pc : CallerPc) :
    ({ s with
      logSemaphore := { s.logSemaphore with condVar := .caller t :: s.logSemaphore.condVar }
        }.goCaller t pc).load = s.load := by
  simp [load, goCaller]

/-- The swap leaves an empty queue behind, since the pool holds empty vectors. -/
theorem logWork_takeQueue_lt (hpool : s.logThread.logPool.AllEmpty)
    (hpc : s.logThread.pc = .take) : s.takeQueue.logWork < s.logWork := by
  have hload : s.takeQueue.load = { s.load with queue := [] } := by
    have hitems : s.takeQueue.queue = [] := hpool.takeVec_items
    simp only [load, hitems]
    rfl
  rw [logWork, logWork, hload, hpc]
  by_cases hqueue : s.queue = []
  · have hnext : s.takeQueue.logThread.pc = .checkFlush := by simp [takeQueue, hqueue]
    rw [hnext]
    simp only [LogThreadPc.work, Load.checkFlushWork, Load.checkWaitWork, Load.turnWork,
      Load.sleepWork, Load.errorWork, if_pos]
    omega
  · have hnext : s.takeQueue.logThread.pc = .wantRead (.config s.queue) := by
      simp [takeQueue, hqueue]
    rw [hnext]
    simp only [LogThreadPc.work, Load.checkFlushWork, Load.checkWaitWork, Load.turnWork,
      Load.sleepWork, Load.errorWork, Load.batchWork, Load.recordWork, if_pos]
    have hsame : s.load.queue = s.queue := rfl
    rw [hsame]
    omega

variable [FileIo W ω]

/-- **Every step of the logging thread lowers the bound.** -/
theorem logWork_lt {result : Except LoggerError Unit} {now : DateTime}
    (hpool : s.logThread.logPool.AllEmpty)
    (hawake : s.logThread.pc = .waiting → .logThread ∉ s.logSemaphore.condVar)
    (hstep : LogThreadStep s result now s') : s'.logWork < s.logWork := by
  have hsinks : s.load.sinks = s.ctx.sinks.length := rfl
  cases hstep with
  | take hpc => exact logWork_takeQueue_lt hpool hpc
  | enter hpc hlock =>
      rename_i sec lock
      refine logWork_lt_of_load hpc (goLog_pc _ _) rfl ?_
      rcases sec with queue | ⟨i, log, rest, dying⟩
      · simp only [LogThreadPc.work, Load.batchWork]
        omega
      · cases dying <;> simp only [LogThreadPc.work] <;> omega
  | split hpc hsplit =>
      refine logWork_lt_of_load hpc (goLog_pc _ _) rfl ?_
      rw [eq_flatMap_pieces_of_split hsplit]
      have hmax : s.load.maxStringLen = s.ctx.config.maxStringLen := rfl
      simp only [LogThreadPc.work, Load.batchWork, hmax]
      omega
  | splitPanic hpc hsplit =>
      refine logWork_lt_of_load hpc (goLog_pc _ _) rfl ?_
      simp only [LogThreadPc.work, Load.batchWork]
      omega
  | sink hpc hi hresult =>
      rename_i i log rest dying
      refine logWork_lt_of_load hpc (goLog_pc _ _) (load_callSink s i log) ?_
      cases dying <;> simp only [LogThreadPc.work] <;> omega
  | sinkFailed hpc hi hresult =>
      rename_i i log rest e
      refine logWork_lt_of_load hpc (goLog_pc _ _) (load_callSink s i log) ?_
      simp only [LogThreadPc.work, Load.checkFlushWork]
      omega
  | errorSinkFailed hpc hi hresult =>
      rename_i i log rest e e'
      refine logWork_lt_of_load hpc (goLog_pc _ _) (load_callSink s i log) ?_
      simp only [LogThreadPc.work]
      omega
  | sinksDone hpc hi =>
      refine logWork_lt_of_load hpc (goLog_pc _ _) rfl ?_
      rw [work_nextRecord]
      simp only [LogThreadPc.work]
      omega
  | errorSinksDone hpc hi =>
      refine logWork_lt_of_load hpc (goLog_pc _ _) rfl ?_
      simp only [LogThreadPc.work]
      omega
  | request hpc =>
      rename_i sec
      refine logWork_lt_of_load hpc (goLog_pc _ _) rfl ?_
      rcases sec with ⟨queue, logs⟩ | dying | ⟨log, e⟩
      · simp only [LogThreadPc.work]
        omega
      · cases dying <;> simp only [LogThreadPc.work, Load.errorWork] <;> omega
      · simp only [LogThreadPc.work]
        omega
  | grant hpc hlock =>
      rename_i sec lock
      refine logWork_lt_of_load hpc (goLog_pc _ _) rfl ?_
      rcases sec with ⟨queue, logs⟩ | dying | ⟨log, e⟩
      · simp only [LogThreadPc.work]
        omega
      · cases dying <;> simp only [LogThreadPc.work] <;> omega
      · simp only [LogThreadPc.work]
        omega
  | batch hpc hio =>
      have hfiles : SameSetup s.ctx _ := (filesOnly_doLogBatch _).ok hio
      refine logWork_lt_of_load hpc (goLog_pc _ _) (load_of_sameSetup hfiles rfl rfl) ?_
      rw [work_nextRecord]
      simp only [LogThreadPc.work]
      omega
  | batchFailed hpc hio =>
      have hfiles : SameSetup s.ctx _ := (filesOnly_doLogBatch _).error hio
      refine logWork_lt_of_load hpc (goLog_pc _ _) (load_of_sameSetup hfiles rfl rfl) ?_
      simp only [LogThreadPc.work, Load.checkFlushWork]
      omega
  | flush hpc hio =>
      rename_i dying world ctx
      have hfiles : SameSetup s.ctx _ := filesOnly_flushFiles.ok hio
      refine logWork_lt_of_load hpc (goLog_pc _ _) (load_of_sameSetup hfiles rfl rfl) ?_
      cases dying <;> simp only [LogThreadPc.work] <;> omega
  | flushFailed hpc hio =>
      have hfiles : SameSetup s.ctx _ := filesOnly_flushFiles.error hio
      refine logWork_lt_of_load hpc (goLog_pc _ _) (load_of_sameSetup hfiles rfl rfl) ?_
      simp only [LogThreadPc.work]
      omega
  | errorFlushFailed hpc hio =>
      have hfiles : SameSetup s.ctx _ := filesOnly_flushFiles.error hio
      refine logWork_lt_of_load hpc (goLog_pc _ _) (load_of_sameSetup hfiles rfl rfl) ?_
      simp only [LogThreadPc.work]
      omega
  | errorRecord hpc hio =>
      have hfiles : SameSetup s.ctx _ := (filesOnly_fileDoLog _).ok hio
      refine logWork_lt_of_load hpc (goLog_pc _ _) (load_of_sameSetup hfiles rfl rfl) ?_
      simp only [LogThreadPc.work]
      omega
  | errorRecordFailed hpc hio =>
      have hfiles : SameSetup s.ctx _ := (filesOnly_fileDoLog _).error hio
      refine logWork_lt_of_load hpc (goLog_pc _ _) (load_of_sameSetup hfiles rfl rfl) ?_
      simp only [LogThreadPc.work]
      omega
  | flushDue hpc hdue =>
      refine logWork_lt_of_load hpc (goLog_pc _ _) rfl ?_
      simp only [LogThreadPc.work, Load.checkFlushWork]
      omega
  | flushLater hpc hqueue hlogged =>
      refine logWork_lt_of_load hpc (goLog_pc _ _) rfl ?_
      simp only [LogThreadPc.work, Load.checkFlushWork]
      omega
  | flushed hpc =>
      have hnext : LogThreadPc.checkWait = .checkWait := rfl
      refine logWork_lt_of_load hpc hnext rfl ?_
      simp only [LogThreadPc.work]
      omega
  | errorFlushed hpc =>
      refine logWork_lt_of_load hpc (goLog_pc _ _) rfl ?_
      simp only [LogThreadPc.work]
      omega
  | sleep hpc hqueue =>
      refine logWork_lt_of_load hpc (goLog_pc _ _) rfl ?_
      have hempty : s.load.queue = [] := hqueue
      have hpark := Load.waitingWork_le_of_nil hempty
      simp only [LogThreadPc.work, Load.checkWaitWork, hempty, if_pos]
      omega
  | again hpc hqueue =>
      refine logWork_lt_of_load hpc (endIteration_pc s) rfl ?_
      have hne : s.load.queue ≠ [] := hqueue
      simp only [LogThreadPc.work, Load.checkWaitWork, if_neg hne]
      omega
  | wake hpc hflag =>
      have hup : s.load.flag = true := hflag
      rw [logWork, logWork, endIteration_pc, hpc]
      simp only [LogThreadPc.work, Load.waitingWork, hup, if_pos]
      exact Nat.lt_add_of_pos_left Nat.one_pos
  | park hpc hflag =>
      have hdown : s.load.flag = false := hflag
      have hout : s.load.parked = false := by simpa [load] using hawake hpc
      have hin : (load { s with logSemaphore :=
          { s.logSemaphore with condVar := .logThread :: s.logSemaphore.condVar } }) =
          { s.load with parked := true } := by
        simp [load]
      rw [logWork, logWork, hin]
      show LogThreadPc.work _ s.logThread.pc < _
      rw [hpc]
      simp [LogThreadPc.work, Load.waitingWork, hdown, hout]

/-- The state implements some journal. -/
def Tracked (s : Sys W ω Tid) : Prop := ∃ j, Tracks s j

theorem tracked_step {a : Action Tid} (h : Tracked s) (hstep : s.step a = some s') :
    Tracked s' := by
  obtain ⟨j, hj⟩ := h
  obtain ⟨j', -, hj'⟩ := tracks_step hj hstep
  exact ⟨j', hj'⟩

/-- A genuine step of the logging thread. -/
def ByLogThread (a : Action Tid) : Prop := ∃ result now, a = .logThread result now

theorem logWork_step {a : Action Tid} (h : Tracked s) (ha : ByLogThread a)
    (hstep : s.step a = some s') : s'.logWork < s.logWork := by
  obtain ⟨result, now, rfl⟩ := ha
  obtain ⟨j, hj⟩ := h
  exact logWork_lt hj.pool (fun hpc => awake_of_logThreadStep hpc hstep) (logThreadStep_sound hstep)

/-! ## The work of the whole system -/

section Measure

variable [Fintype Tid]

/-- The steps left to the callers, parking apart. -/
def callersWork (s : Sys W ω Tid) : ℕ := ∑ t, (s.callers t).work

/-- The callers that are not parked on the queue semaphore. -/
def awakeSet (s : Sys W ω Tid) : Finset Tid :=
  Finset.univ.filter fun t => s.logSemaphore.condVar.contains (.caller t) = false

def awakeCallers (s : Sys W ω Tid) : ℕ := s.awakeSet.card

omit [FileIo W ω] in
theorem mem_awakeSet {t : Tid} : t ∈ s.awakeSet ↔ .caller t ∉ s.logSemaphore.condVar := by
  simp [awakeSet]

/-- What is left to do: first for the callers, and then, in parks and turns of the loop. -/
def workLeft (s : Sys W ω Tid) : ℕ ×ₗ ℕ :=
  toLex (s.callersWork, s.awakeCallers + s.logWork)

omit [FileIo W ω] in
theorem workLeft_lt_of_caller {t : Tid} (hlt : (s'.callers t).work < (s.callers t).work)
    (hothers : ∀ u, u ≠ t → s'.callers u = s.callers u) : s'.workLeft < s.workLeft := by
  refine Prod.Lex.toLex_lt_toLex.2 (.inl ?_)
  refine Finset.sum_lt_sum (fun u _ => ?_) ⟨t, Finset.mem_univ t, hlt⟩
  by_cases hu : u = t
  · subst hu
    exact hlt.le
  · rw [hothers u hu]

omit [FileIo W ω] in
/-- A caller that parks is one caller fewer awake. -/
theorem awakeCallers_lt {t : Tid} (hawake : .caller t ∉ s.logSemaphore.condVar)
    (hparked : s'.logSemaphore.condVar = .caller t :: s.logSemaphore.condVar) :
    s'.awakeCallers < s.awakeCallers := by
  refine Finset.card_lt_card ((Finset.ssubset_iff_of_subset fun u hu => ?_).2 ⟨t, ?_, ?_⟩)
  · rw [mem_awakeSet, hparked] at hu
    exact mem_awakeSet.2 fun hin => hu (List.mem_cons_of_mem _ hin)
  · exact mem_awakeSet.2 hawake
  · rw [mem_awakeSet, hparked, not_not]
    exact List.mem_cons_self

omit [FileIo W ω] in
/-- Where the callers get no further, something else has to get less. -/
theorem workLeft_lt_of_callers (hcallers : s'.callers = s.callers)
    (hlt : s'.awakeCallers + s'.logWork < s.awakeCallers + s.logWork) :
    s'.workLeft < s.workLeft := by
  refine Prod.Lex.toLex_lt_toLex.2 (.inr ⟨?_, hlt⟩)
  simp only [callersWork, hcallers]

theorem workLeft_lt_of_park {t : Tid} {timed : Bool} {ops : List GuardedOp}
    (hpc : (s.callers t).pc = .waiting timed ops) (hsame : s'.callers t = s.callers t)
    (hawake : .caller t ∉ s.logSemaphore.condVar) (hstep : CallerStep s t s') :
    s'.workLeft < s.workLeft := by
  have hframe := hstep.frame
  have hcallers : s'.callers = s.callers := by
    funext u
    by_cases hu : u = t
    · rw [hu, hsame]
    · exact hframe.others u hu
  cases hstep with
  | park hpc' hflag =>
      refine workLeft_lt_of_callers hcallers
        (Nat.add_lt_add_of_lt_of_le (awakeCallers_lt hawake rfl) ?_)
      rw [logWork, load_callerPark]
      exact Nat.le_refl _
  | takeSignal hpc' hflag =>
      have hmoved := congrArg Caller.pc hsame
      rw [goCaller_callers_self, hpc] at hmoved
      cases hmoved
  | _ hpc' =>
      rw [hpc] at hpc'
      cases hpc'

/-- The logging thread parks no caller and wakes none. -/
theorem awakeCallers_of_logThreadStep {result : Except LoggerError Unit} {now : DateTime}
    (hstep : LogThreadStep s result now s') : s'.awakeCallers = s.awakeCallers := by
  cases hstep with
  | park hpc hflag => simp [awakeCallers, awakeSet]
  | _ => rfl

/-- **Every genuine step leaves less to do.** -/
theorem workLeft_step {a : Action Tid} (h : Tracked s) (ha : a.Genuine)
    (hstep : s.step a = some s') : s'.workLeft < s.workLeft := by
  cases step_sound hstep with
  | caller hcaller =>
      rcases work_callerNext hcaller.callerNext with hlt | ⟨hsame, timed, ops, hpc⟩
      · exact workLeft_lt_of_caller hlt hcaller.frame.others
      · exact workLeft_lt_of_park hpc hsame (awake_of_callerStep hpc hstep) hcaller
  | logThread hlog =>
      have hless := logWork_step h ⟨_, _, rfl⟩ hstep
      have hawake := awakeCallers_of_logThreadStep hlog
      exact workLeft_lt_of_callers hlog.frame.callers (by omega)
  | spurious hparked => exact ha.elim
  | timeout hparked hpc =>
      refine workLeft_lt_of_caller ?_ fun u hu => goCaller_callers_of_ne _ _ _ hu
      simp [Caller.work, hpc, CallerPc.work]

end Measure

/-! ## Every schedule ends -/

section Run

variable {w : W} {config : LoggerConfig} {logPath : PathBuf} {todo : Tid → List Call}
  {s₀ : Sys W ω Tid} {as bs : List (Action Tid)}

theorem tracked_run (hboot : boot w config logPath todo = .ok s₀)
    (hrun : run step s₀ as = some s) : Tracked s := by
  obtain ⟨j, -, hj⟩ := tracks_run hboot hrun
  exact ⟨j, hj⟩

/-- **The logging thread left alone.**  In every state a run can reach, `logWork` bounds how many
steps the logging thread takes before it parks, ends, or has to wait for somebody else, whatever
its files, its sinks and the clock answer.  A sink only answers; the call of the logger that a
callback could make is a caller's. -/
theorem length_le_logWork (hboot : boot w config logPath todo = .ok s₀)
    (hrun : run step s₀ as = some s) (halone : ∀ a ∈ bs, ByLogThread a)
    (hrest : run step s bs = some s') : bs.length ≤ s.logWork := by
  have hkeep : ∀ (r : Sys W ω Tid) (a : Action Tid) (r' : Sys W ω Tid), Tracked r →
      ByLogThread a → r.step a = some r' → Tracked r' := fun _ _ _ h _ hstep =>
    tracked_step h hstep
  have hbound := length_add_rank_le hkeep (fun _ _ _ h ha hstep => logWork_step h ha hstep)
    (tracked_run hboot hrun) halone hrest
  omega

/-- A thread that logs one message. -/
def logOnce : Unit → List Call := fun _ => [.read [.queueLog (Scenario.log "a")]]

/-- The thread logs, then the logging thread runs until it parks. -/
theorem length_le_logWork_logOnce :
    ∃ s s', run step (Scenario.start .default logOnce) (Scenario.callerSteps () 5) = some s ∧
      run step s (Scenario.logThreadSteps 23) = some s' ∧
      .logThread ∈ s'.logSemaphore.condVar ∧ 23 ≤ s.logWork := by
  have hend : ((run step (Scenario.start .default logOnce) (Scenario.callerSteps () 5)).bind
      fun s => (run step s (Scenario.logThreadSteps 23)).map fun s' =>
        decide (.logThread ∈ s'.logSemaphore.condVar)) = some true := by
    decide +kernel
  obtain ⟨s, hrun, hend⟩ := Option.bind_eq_some_iff.1 hend
  obtain ⟨s', hrest, hparked⟩ := Option.map_eq_some_iff.1 hend
  have halone : ∀ a ∈ (Scenario.logThreadSteps 23 : List (Action Unit)), ByLogThread a := by
    intro a ha
    exact ⟨.ok (), Scenario.time, List.eq_of_mem_replicate ha⟩
  exact ⟨s, s', hrun, hrest, of_decide_eq_true hparked,
    length_le_logWork (boot_disk Scenario.disk .default Scenario.logPath logOnce) hrun halone
      hrest⟩

variable [Fintype Tid]

/-- **Every schedule ends.**  Finitely many callers, each with finitely many calls to make, and the
logging thread come to a stop, whatever the files, the sinks and the clock answer and whoever moves
when, unless threads are woken for no reason again and again.  The sinks make no calls. -/
theorem no_endless_schedule (hboot : boot w config logPath todo = .ok s₀)
    (hrun : run step s₀ as = some s) :
    ¬ ∃ r : EndlessRun (step : Sys W ω Tid → Action Tid → Option (Sys W ω Tid)) Action.Genuine,
      r.state 0 = s := by
  rintro ⟨r, hstart⟩
  have hkeep : ∀ (r : Sys W ω Tid) (a : Action Tid) (r' : Sys W ω Tid), Tracked r →
      a.Genuine → r.step a = some r' → Tracked r' := fun _ _ _ h _ hstep => tracked_step h hstep
  refine no_endless_run hkeep (fun _ _ _ h ha hstep => workLeft_step h ha hstep) r ?_
  rw [hstart]
  exact tracked_run hboot hrun

theorem no_endless_schedule_logOnce :
    ∃ s, run step (Scenario.start .default logOnce) (Scenario.callerSteps () 5) = some s ∧
      ¬ ∃ r : EndlessRun
          (step : Sys (Disk Scenario.resolve) BufWriter Unit → Action Unit → Option _)
          Action.Genuine,
        r.state 0 = s := by
  have hsome : (run step (Scenario.start .default logOnce) (Scenario.callerSteps () 5)).isSome := by
    decide +kernel
  obtain ⟨s, hrun⟩ := Option.isSome_iff_exists.1 hsome
  exact ⟨s, hrun,
    no_endless_schedule (boot_disk Scenario.disk .default Scenario.logPath logOnce) hrun⟩

end Run

end Sys

end Paperlog
