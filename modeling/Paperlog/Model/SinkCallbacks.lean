import Paperlog.Model.Locking

/-!
# Sinks that log (`src/logger/sink_logger.rs`, `src/ffi.rs`)

`sink_logger::do_log` calls the sinks under its read guard, on the logging thread, and a sink may
call `paper2_queue_log_ffi`, which takes a read guard of its own.  `CallbackSys` is the running
logger together with the place of the logging thread inside such a call; until the call returns, the
program of the logging thread stands still.  A callback makes as many of these calls as it likes.

The lock gives no second read guard to a reader behind a waiting writer: it does not look at who
asks.
-/

namespace Paperlog

/-- Inside `logger.read().queue_log(log)`, called by a sink. -/
inductive NestedPc
  /-- Blocked in, or about to enter, `read()`. -/
  | wantRead (log : LogData)
  | pushing (log : LogData)
  | signalling
  | holding
  deriving DecidableEq

/-- How many read guards the call has. -/
def NestedPc.reads : NestedPc → ℕ
  | .wantRead _ => 0
  | _ => 1

structure CallbackSys (W ω Tid : Type) where
  sys : Sys W ω Tid
  nested : Option NestedPc

inductive CallbackAction (Tid : Type)
  /-- A step of the program. -/
  | program (a : Action Tid)
  /-- The sink that is being called logs. -/
  | callback (log : LogData)
  /-- The next step of that call. -/
  | nested

namespace CallbackSys

variable {W ω Tid : Type} [DecidableEq Tid]

/-- The next step of the logging thread inside the call. -/
def nestedStep (s : Sys W ω Tid) : NestedPc → Option (CallbackSys W ω Tid)
  | .wantRead log =>
      (s.lock.tryRead .logThread).map fun lock => ⟨{ s with lock }, some (.pushing log)⟩
  | .pushing log => some ⟨{ s with queue := s.queue ++ [log] }, some .signalling⟩
  | .signalling => some ⟨{ s with logSemaphore := s.logSemaphore.signal }, some .holding⟩
  | .holding => some ⟨{ s with lock := s.lock.releaseRead .logThread }, none⟩

/-- One step of the system. -/
def step [FileIo W ω] (c : CallbackSys W ω Tid) : CallbackAction Tid → Option (CallbackSys W ω Tid)
  | .program a =>
      if a.actor = .logThread ∧ c.nested ≠ none then none
      else (c.sys.step a).map fun sys => { c with sys }
  | .callback log =>
      match c.nested, c.sys.logThread.pc with
      | none, .reading (.sinks i _ _ _) =>
          if i < c.sys.ctx.sinks.length then some { c with nested := some (.wantRead log) } else none
      | _, _ => none
  | .nested => c.nested.bind (nestedStep c.sys)

/-- What one step can do. -/
inductive Step [FileIo W ω] (c : CallbackSys W ω Tid) :
    CallbackAction Tid → CallbackSys W ω Tid → Prop
  | program {a sys} (hself : a.actor = .logThread → c.nested = none)
      (hstep : c.sys.step a = some sys) : Step c (.program a) { c with sys }
  | callback {log i record rest dying} (hnested : c.nested = none)
      (hpc : c.sys.logThread.pc = .reading (.sinks i record rest dying))
      (hi : i < c.sys.ctx.sinks.length) :
      Step c (.callback log) { c with nested := some (.wantRead log) }
  | enter {log lock} (hnested : c.nested = some (.wantRead log))
      (hlock : c.sys.lock.tryRead .logThread = some lock) :
      Step c .nested ⟨{ c.sys with lock }, some (.pushing log)⟩
  | push {log} (hnested : c.nested = some (.pushing log)) :
      Step c .nested ⟨{ c.sys with queue := c.sys.queue ++ [log] }, some .signalling⟩
  | signal (hnested : c.nested = some .signalling) :
      Step c .nested ⟨{ c.sys with logSemaphore := c.sys.logSemaphore.signal }, some .holding⟩
  | leave (hnested : c.nested = some .holding) :
      Step c .nested ⟨{ c.sys with lock := c.sys.lock.releaseRead .logThread }, none⟩

theorem step_sound [FileIo W ω] {c c' : CallbackSys W ω Tid} {a : CallbackAction Tid}
    (h : c.step a = some c') : Step c a c' := by
  cases a with
  | program a =>
      rw [step, Option.ite_none_left_eq_some] at h
      obtain ⟨hself, h⟩ := h
      obtain ⟨sys, hstep, rfl⟩ := Option.map_eq_some_iff.1 h
      exact .program (fun hactor => by_contra fun hne => hself ⟨hactor, hne⟩) hstep
  | callback log =>
      rw [step] at h
      split at h
      · rename_i hnested hpc
        rw [Option.ite_none_right_eq_some] at h
        obtain ⟨hi, h⟩ := h
        exact Option.some.inj h ▸ .callback hnested hpc hi
      · cases h
  | nested =>
      obtain ⟨pc, hnested, h⟩ := Option.bind_eq_some_iff.1 h
      cases pc with
      | wantRead log =>
          obtain ⟨lock, hlock, rfl⟩ := Option.map_eq_some_iff.1 h
          exact .enter hnested hlock
      | pushing log => exact Option.some.inj h ▸ .push hnested
      | signalling => exact Option.some.inj h ▸ .signal hnested
      | holding => exact Option.some.inj h ▸ .leave hnested

end CallbackSys

end Paperlog
