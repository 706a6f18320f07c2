import Paperlog.Model.LogcatLogger
import Paperlog.Model.System

/-!
# The logger with its logcat backend (`src/logger/logger_thread_ctx.rs`, `src/logger/logcat_logger.rs`)

On Android, with the feature `logcat`, the logging thread hands every record to the system log as
well: in the loop before the sinks get it, in the error branch before the file does.  The call takes
no lock and stays on the thread, but its slices may panic, and then the thread has ended.

`LogcatSys` is `Sys` with that call as a step of its own.  Until it is over the program of the logging
thread stands still; the other threads do not notice.  Without the feature nothing is ever handed
over, and the system is `Sys` (`run_off`).
-/

namespace Paperlog

open LogcatLogger

/-- Whether the build has the backend, and if so for which of its two feature sets. -/
inductive LogcatFeature
  | off
  | on (api30 : Bool)
  deriving DecidableEq

/-- The record that is handed to logcat before the thread goes on from here. -/
def LogThreadPc.handsToLogcat : LogThreadPc → Option LogData
  | .wantRead (.sinks 0 log _ none) => some log
  | .write .request (.errorRecord log _) => some log
  | _ => none

/-- The same, in a build without the backend as well. -/
def LogcatFeature.handsOver : LogcatFeature → LogThreadPc → Option LogData
  | .off, _ => none
  | .on _, pc => pc.handsToLogcat

structure LogcatSys (W ω Tid : Type) where
  sys : Sys W ω Tid
  /-- `CSTRING_BUFFER` of the logging thread. -/
  buffer : Bytes
  /-- The record `logcat_logger::do_log` is to be called with. -/
  pending : Option LogData

inductive LogcatAction (Tid : Type)
  /-- A step of the program. -/
  | program (a : Action Tid)
  /-- The call of `logcat_logger::do_log`; the NDK answers `isLoggable` if it is asked. -/
  | logcat (isLoggable : Bool)

/-- The step of the program, if it is one. -/
def LogcatAction.toAction {Tid : Type} : LogcatAction Tid → Option (Action Tid)
  | .program a => some a
  | .logcat _ => none

namespace LogcatSys

open Transition

variable {W ω Tid : Type}

/-- The thread has just been spawned. -/
def start (sys : Sys W ω Tid) : LogcatSys W ω Tid := { sys, buffer := [], pending := none }

variable [DecidableEq Tid]

/-- A step of the program has led to `sys`. -/
def arrive (feature : LogcatFeature) (c : LogcatSys W ω Tid) (a : Action Tid) (sys : Sys W ω Tid) :
    LogcatSys W ω Tid :=
  { c with
    sys
    pending := if a.actor = .logThread then feature.handsOver sys.logThread.pc else c.pending }

omit [DecidableEq Tid] in
/-- The call, and where it leaves the thread. -/
def callLogcat (api30 isLoggable : Bool) (c : LogcatSys W ω Tid) (log : LogData) :
    LogcatSys W ω Tid :=
  match doLog api30 (fun _ _ => isLoggable) c.buffer log with
  | some (_, buffer) => { c with buffer, pending := none }
  | none => { c with sys := c.sys.goLog (.terminated none), pending := none }

omit [DecidableEq Tid] in
/-- `logcat_logger::do_log`, when there is something to be handed over. -/
def logcatStep (feature : LogcatFeature) (c : LogcatSys W ω Tid) (isLoggable : Bool) :
    Option (LogcatSys W ω Tid) :=
  match feature, c.pending with
  | .on api30, some log => some (c.callLogcat api30 isLoggable log)
  | _, _ => none

variable [FileIo W ω]

/-- One step of the system. -/
def step (feature : LogcatFeature) (c : LogcatSys W ω Tid) :
    LogcatAction Tid → Option (LogcatSys W ω Tid)
  | .program a =>
      if a.actor = .logThread ∧ c.pending ≠ none then none
      else (c.sys.step a).map (c.arrive feature a)
  | .logcat isLoggable => c.logcatStep feature isLoggable

variable {feature : LogcatFeature} {c c' : LogcatSys W ω Tid}

/-- What one step can do. -/
inductive Step (feature : LogcatFeature) (c : LogcatSys W ω Tid) :
    LogcatAction Tid → LogcatSys W ω Tid → Prop
  | program {a sys} (hself : a.actor = .logThread → c.pending = none)
      (hstep : c.sys.step a = some sys) : Step feature c (.program a) (c.arrive feature a sys)
  | logged {api30 isLoggable log call buffer} (hfeature : feature = .on api30)
      (hpending : c.pending = some log)
      (hlog : doLog api30 (fun _ _ => isLoggable) c.buffer log = some (call, buffer)) :
      Step feature c (.logcat isLoggable) { c with buffer, pending := none }
  | panicked {api30 isLoggable log} (hfeature : feature = .on api30)
      (hpending : c.pending = some log)
      (hlog : doLog api30 (fun _ _ => isLoggable) c.buffer log = none) :
      Step feature c (.logcat isLoggable)
        { c with sys := c.sys.goLog (.terminated none), pending := none }

theorem step_sound {a : LogcatAction Tid} (h : step feature c a = some c') :
    Step feature c a c' := by
  cases a with
  | program a =>
      rw [step, Option.ite_none_left_eq_some] at h
      obtain ⟨hself, h⟩ := h
      obtain ⟨sys, hstep, rfl⟩ := Option.map_eq_some_iff.1 h
      exact .program (fun hactor => by_contra fun hne => hself ⟨hactor, hne⟩) hstep
  | logcat isLoggable =>
      rw [step] at h
      unfold logcatStep at h
      split at h
      · rename_i api30 log hpending
        obtain rfl := Option.some.inj h
        unfold callLogcat
        split
        · rename_i call buffer hlog
          exact .logged rfl hpending hlog
        · rename_i hlog
          exact .panicked rfl hpending hlog
      · cases h

/-! ## Against the system without the backend -/

/-- Without the backend the system is `Sys`. -/
theorem run_off (s : Sys W ω Tid) (as : List (Action Tid)) :
    run (step .off) (start s) (as.map .program) = (run Sys.step s as).map start := by
  induction as generalizing s with
  | nil => rfl
  | cons a as ih =>
      have hstep : step .off (start s) (.program a) = (s.step a).map start := by
        have hnone : ¬ (a.actor = .logThread ∧ (start s).pending ≠ none) := fun h => h.2 rfl
        rw [step, if_neg hnone]
        refine congrArg (fun f => (s.step a).map f) (funext fun s' => ?_)
        simp [arrive, start, LogcatFeature.handsOver]
      rw [List.map_cons, run_cons, run_cons, hstep]
      cases s.step a with
      | none => rfl
      | some s' => exact ih s'

end LogcatSys

end Paperlog
