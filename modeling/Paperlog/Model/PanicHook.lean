import Paperlog.Model.Locking

/-!
# The panic hook (`src/logger/logger_thread_ctx.rs`)

With `install_panic_hook` every panic of the process first runs `panic_hook`, on the thread that
panics and before anything is unwound: the guards the thread holds are still out.  The hook makes
two `do_log` calls, for the panic and for its backtrace, and each of them takes the write guard and
then a read guard.  Only after the hook are the thread's own guards dropped, and the thread ends.

`PanicSys` is the running logger together with the place of every thread inside the hook; a thread
inside it makes no other step.  A thread can panic wherever it runs, so wherever it is neither
parked nor inside the lock.
-/

namespace Paperlog

open RwLock (Role)
open LoggerThreadCtx

/-- The payload of a panic, as far as the hook can tell. -/
inductive Payload
  | str (s : Str)
  | string (s : Str)
  | other
  deriving DecidableEq

/-- `PanicHookInfo`. -/
structure PanicHookInfo where
  payload : Payload
  file : Str
  line : ℕ
  column : ℕ
  deriving DecidableEq

/-- The message of the payload. -/
def Payload.msg : Payload → Str
  | .str s => s
  | .string s => s
  | .other => "Box<dyn Any>".toList

/-- The record of the panic. -/
def panicRecord (info : PanicHookInfo) (now : DateTime) : LogData :=
  { level := .error
    tag := some "panic".toList
    message := "panicked at '".toList ++ info.payload.msg ++ "', ".toList ++ info.file ++
      ":".toList ++ decimal info.line ++ ":".toList ++ decimal info.column
    timestamp := now
    file := "src/logger/logger_thread_ctx.rs".toList
    line := 441
    column := 9
    functionName := none }

/-- The record of the backtrace. -/
def backtraceRecord (backtrace : Str) (now : DateTime) : LogData :=
  { level := .error
    tag := some "panic".toList
    message := backtrace
    timestamp := now
    file := "src/logger/logger_thread_ctx.rs".toList
    line := 448
    column := 13
    functionName := none }

/-- The program points of the hook; `backtrace` is what is still to be logged after `log`. -/
inductive HookPc
  /-- `file_logger::do_log`. -/
  | write (phase : WritePhase) (log : LogData) (backtrace : Option Str)
  /-- Before the `read()` of `sink_logger::do_log`, or blocked in it. -/
  | wantRead (log : LogData) (backtrace : Option Str)
  /-- Before the `i`-th sink. -/
  | sinks (i : ℕ) (log : LogData) (backtrace : Option Str)
  /-- The hook has returned, and the guards of the thread are about to be dropped. -/
  | unwind
  /-- The thread has ended. -/
  | ended
  deriving DecidableEq

/-- What the hook itself has of the lock. -/
def HookPc.role : HookPc → Role
  | .write .await _ _ => .awaiting
  | .write .held _ _ => .writing
  | .sinks _ _ _ => .reading
  | _ => .out

/-- The hook after a `do_log`, however that has ended. -/
def HookPc.next (now : DateTime) : Option Str → HookPc
  | some backtrace => .write .request (backtraceRecord backtrace now) none
  | none => .unwind

structure PanicSys (W ω Tid : Type) where
  sys : Sys W ω Tid
  hooks : Party Tid → Option HookPc

inductive PanicAction (Tid : Type)
  /-- A step of the program; `info`, `backtrace` and `now` are for a step that panics. -/
  | program (a : Action Tid) (info : PanicHookInfo) (backtrace : Str) (now : DateTime)
  /-- The thread panics, and the hook asks for the write guard. -/
  | panic (p : Party Tid) (info : PanicHookInfo) (backtrace : Str) (now : DateTime)
  /-- The next step of the hook on this thread; `result` answers a sink call. -/
  | hook (p : Party Tid) (result : Except LoggerError Unit) (now : DateTime)

/-- The thread has ended. -/
def LogThreadPc.ended : LogThreadPc → Bool
  | .terminated _ => true
  | _ => false

/-- The thread that takes the step. -/
def PanicAction.actor {Tid : Type} : PanicAction Tid → Party Tid
  | .program a _ _ _ => a.actor
  | .panic p _ _ _ => p
  | .hook p _ _ => p

namespace Sys

variable {W ω Tid : Type} [DecidableEq Tid]

/-- The thread runs: it is neither parked nor waiting in the lock, and has not ended. -/
def Runs (s : Sys W ω Tid) (p : Party Tid) : Prop :=
  p ∉ s.logSemaphore.condVar ∧ s.role p ≠ .awaiting ∧ ¬ (p = .logThread ∧ s.logThread.pc.ended)

instance (s : Sys W ω Tid) (p : Party Tid) : Decidable (s.Runs p) :=
  inferInstanceAs (Decidable (_ ∧ _ ∧ ¬ (_ ∧ _)))

/-- The lock once the guards of a thread have been dropped. -/
def dropGuards (s : Sys W ω Tid) (p : Party Tid) : RwLock (Party Tid) :=
  match s.role p with
  | .reading => s.lock.releaseRead p
  | .writing => s.lock.releaseWrite
  | _ => s.lock

/-- The next step of the hook on thread `p`. -/
def hookStep [FileIo W ω] (s : Sys W ω Tid) (p : Party Tid) (result : Except LoggerError Unit)
    (now : DateTime) : HookPc → Option (Sys W ω Tid × HookPc)
  | .write .request log backtrace =>
      some ({ s with lock := s.lock.requestWrite p }, .write .await log backtrace)
  | .write .await log backtrace =>
      (s.lock.tryWrite p).map fun lock => ({ s with lock }, .write .held log backtrace)
  | .write .held log backtrace =>
      match fileDoLog log (s.world, s.ctx) with
      | .ok _ (world, ctx) =>
          some ({ s with world, ctx, lock := s.lock.releaseWrite }, .wantRead log backtrace)
      | .error _ (world, ctx) =>
          some ({ s with world, ctx, lock := s.lock.releaseWrite }, .next now backtrace)
  | .wantRead log backtrace =>
      (s.lock.tryRead p).map fun lock => ({ s with lock }, .sinks 0 log backtrace)
  | .sinks i log backtrace =>
      if i < s.ctx.sinks.length then
        match result with
        | .ok _ => some (s.callSink i log, .sinks (i + 1) log backtrace)
        | .error _ =>
            some ({ s with lock := s.lock.releaseRead p }.callSink i log, .next now backtrace)
      else some ({ s with lock := s.lock.releaseRead p }, .next now backtrace)
  | .unwind => some ({ s with lock := s.dropGuards p }, .ended)
  | .ended => none

/-- The steps of the hook on thread `p`. -/
inductive HookStep [FileIo W ω] (s : Sys W ω Tid) (p : Party Tid) (result : Except LoggerError Unit)
    (now : DateTime) : HookPc → Sys W ω Tid → HookPc → Prop
  | request (log backtrace) :
      HookStep s p result now (.write .request log backtrace)
        { s with lock := s.lock.requestWrite p } (.write .await log backtrace)
  | grant {log backtrace lock} (hlock : s.lock.tryWrite p = some lock) :
      HookStep s p result now (.write .await log backtrace) { s with lock }
        (.write .held log backtrace)
  | wrote {log backtrace world ctx} (hio : fileDoLog log (s.world, s.ctx) = .ok () (world, ctx)) :
      HookStep s p result now (.write .held log backtrace)
        { s with world, ctx, lock := s.lock.releaseWrite } (.wantRead log backtrace)
  | writeFailed {log backtrace e world ctx}
      (hio : fileDoLog log (s.world, s.ctx) = .error e (world, ctx)) :
      HookStep s p result now (.write .held log backtrace)
        { s with world, ctx, lock := s.lock.releaseWrite } (.next now backtrace)
  | enter {log backtrace lock} (hlock : s.lock.tryRead p = some lock) :
      HookStep s p result now (.wantRead log backtrace) { s with lock } (.sinks 0 log backtrace)
  | sink {i log backtrace} (hi : i < s.ctx.sinks.length) (hresult : result = .ok ()) :
      HookStep s p result now (.sinks i log backtrace) (s.callSink i log)
        (.sinks (i + 1) log backtrace)
  | sinkFailed {i log backtrace e} (hi : i < s.ctx.sinks.length) (hresult : result = .error e) :
      HookStep s p result now (.sinks i log backtrace)
        ({ s with lock := s.lock.releaseRead p }.callSink i log) (.next now backtrace)
  | sinksDone {i log backtrace} (hi : s.ctx.sinks.length ≤ i) :
      HookStep s p result now (.sinks i log backtrace)
        { s with lock := s.lock.releaseRead p } (.next now backtrace)
  | unwind : HookStep s p result now .unwind { s with lock := s.dropGuards p } .ended

lemma hookStep_sound [FileIo W ω] {s s' : Sys W ω Tid} {p : Party Tid}
    {result : Except LoggerError Unit} {now : DateTime} {pc pc' : HookPc}
    (h : s.hookStep p result now pc = some (s', pc')) : HookStep s p result now pc s' pc' := by
  cases pc with
  | write phase log backtrace =>
      cases phase with
      | request =>
          cases h
          exact .request log backtrace
      | await =>
          obtain ⟨lock, hlock, heq⟩ := Option.map_eq_some_iff.1 h
          cases heq
          exact .grant hlock
      | held =>
          simp only [hookStep] at h
          split at h
          · rename_i hio
            cases h
            exact .wrote hio
          · rename_i hio
            cases h
            exact .writeFailed hio
  | wantRead log backtrace =>
      obtain ⟨lock, hlock, heq⟩ := Option.map_eq_some_iff.1 h
      cases heq
      exact .enter hlock
  | sinks i log backtrace =>
      simp only [hookStep] at h
      split at h
      · rename_i hi
        cases result with
        | ok u =>
            cases h
            exact .sink hi rfl
        | error e =>
            cases h
            exact .sinkFailed hi rfl
      · rename_i hi
        cases h
        exact .sinksDone (Nat.le_of_not_lt hi)
  | unwind =>
      cases h
      exact .unwind
  | ended => cases h

end Sys

namespace PanicSys

/-- The logger as `init(true)` leaves it. -/
def installed {W ω Tid : Type} (s : Sys W ω Tid) : PanicSys W ω Tid := ⟨s, fun _ => none⟩

variable {W ω Tid : Type} [DecidableEq Tid]

/-- Whether this step of the program has ended in a panic: the one of `chunks`. -/
def Panicked (a : Action Tid) (sys : Sys W ω Tid) : Prop :=
  a.actor = .logThread ∧ sys.logThread.pc = .terminated none

instance (a : Action Tid) (sys : Sys W ω Tid) : Decidable (Panicked a sys) :=
  inferInstanceAs (Decidable (_ ∧ _))

/-- One step of the system. -/
def step [FileIo W ω] (c : PanicSys W ω Tid) : PanicAction Tid → Option (PanicSys W ω Tid)
  | .program a info backtrace now =>
      if c.hooks a.actor = none then
        (c.sys.step a).map fun sys =>
          { sys
            hooks :=
              if Panicked a sys then
                Function.update c.hooks .logThread
                  (some (.write .request (panicRecord info now) (some backtrace)))
              else c.hooks }
      else none
  | .panic p info backtrace now =>
      if c.hooks p = none ∧ c.sys.Runs p then
        some
          { sys := { c.sys with lock := c.sys.lock.requestWrite p }
            hooks :=
              Function.update c.hooks p
                (some (.write .await (panicRecord info now) (some backtrace))) }
      else none
  | .hook p result now =>
      (c.hooks p).bind fun pc =>
        (c.sys.hookStep p result now pc).map fun (sys, pc) =>
          { sys, hooks := Function.update c.hooks p (some pc) }

/-- What one step can do. -/
inductive Step [FileIo W ω] (c c' : PanicSys W ω Tid) : PanicAction Tid → Prop
  | program {a info backtrace now} (hrun : c.hooks a.actor = none)
      (hsys : c.sys.step a = some c'.sys) (hfine : ¬ Panicked a c'.sys)
      (hhooks : c'.hooks = c.hooks) :
      Step c c' (.program a info backtrace now)
  | programPanics {a info backtrace now} (hrun : c.hooks a.actor = none)
      (hsys : c.sys.step a = some c'.sys) (hpanic : Panicked a c'.sys)
      (hhooks : c'.hooks = Function.update c.hooks .logThread
        (some (.write .request (panicRecord info now) (some backtrace)))) :
      Step c c' (.program a info backtrace now)
  | panic {p info backtrace now} (hrun : c.hooks p = none) (hruns : c.sys.Runs p)
      (hsys : c'.sys = { c.sys with lock := c.sys.lock.requestWrite p })
      (hhooks : c'.hooks = Function.update c.hooks p
        (some (.write .await (panicRecord info now) (some backtrace)))) :
      Step c c' (.panic p info backtrace now)
  | hook {p result now pc pc'} (hpc : c.hooks p = some pc)
      (hstep : c.sys.HookStep p result now pc c'.sys pc')
      (hhooks : c'.hooks = Function.update c.hooks p (some pc')) :
      Step c c' (.hook p result now)

theorem step_sound [FileIo W ω] {c c' : PanicSys W ω Tid} {a : PanicAction Tid}
    (h : c.step a = some c') : Step c c' a := by
  cases a with
  | program a info backtrace now =>
      rw [step, Option.ite_none_right_eq_some] at h
      obtain ⟨hrun, h⟩ := h
      obtain ⟨sys, hsys, rfl⟩ := Option.map_eq_some_iff.1 h
      by_cases hpanic : Panicked a sys
      · exact .programPanics hrun hsys hpanic (if_pos hpanic)
      · exact .program hrun hsys hpanic (if_neg hpanic)
  | panic p info backtrace now =>
      rw [step, Option.ite_none_right_eq_some] at h
      obtain ⟨⟨hrun, hruns⟩, h⟩ := h
      obtain rfl := Option.some.inj h
      exact .panic hrun hruns rfl rfl
  | hook p result now =>
      obtain ⟨pc, hpc, h⟩ := Option.bind_eq_some_iff.1 h
      obtain ⟨⟨sys, pc'⟩, hstep, rfl⟩ := Option.map_eq_some_iff.1 h
      exact .hook hpc (Sys.hookStep_sound hstep) rfl

end PanicSys

end Paperlog
