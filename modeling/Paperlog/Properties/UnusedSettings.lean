import Paperlog.Model.GlobalLogger
import Paperlog.Properties.Linearization

/-!
# Settings without effect

`LoggerConfig` has four fields.  `line_end` is read by nobody, and `log_max_buffer_count` only by the
allocation of the queue, which panics when it is far too large.  `unusedSettings_noEffect` says what
this comes to: two loggers that differ in these two settings are created alike unless one of them
panics there and the other does not, and they make the same runs, step by step, with the same files,
the same queue and the same calls of the sinks.  In particular records end in `'\n'` whatever
`line_end` is, and the queue grows past any `log_max_buffer_count`.
-/

namespace Paperlog

namespace LoggerThreadCtx

variable {W ω : Type}

/-- The configuration with other values of the two settings. -/
def withUnused (lineEnd : Char) (count : ℕ) (config : LoggerConfig) : LoggerConfig :=
  { config with lineEnd, logMaxBufferCount := count }

/-- The context with that configuration. -/
def setUnused (lineEnd : Char) (count : ℕ) (ctx : LoggerThreadCtx ω) : LoggerThreadCtx ω :=
  { ctx with config := withUnused lineEnd count ctx.config }

variable (lineEnd : Char) (count : ℕ)

theorem keepsFiles_setUnused :
    KeepsFiles (setUnused lineEnd count : LoggerThreadCtx ω → LoggerThreadCtx ω) :=
  fun _ _ _ => rfl

variable [FileIo W ω]

/-- `add_context` reads the context path only. -/
theorem addContext_setUnused (tag : Str) (w : W) (ctx : LoggerThreadCtx ω) :
    addContext tag (w, setUnused lineEnd count ctx) =
      match addContext tag (w, ctx) with
      | .ok u (w, ctx) => .ok u (w, setUnused lineEnd count ctx)
      | .error e (w, ctx) => .error e (w, setUnused lineEnd count ctx) := by
  have hpath : contextPath (setUnused lineEnd count ctx).config tag = contextPath ctx.config tag := rfl
  simp only [addContext, hpath]
  cases orIoSpecific (FileIo.create (contextPath ctx.config tag) : EStateM IoError W ω)
    "Unable to create context file".toList (contextPath ctx.config tag) w with
  | error e w => rfl
  | ok file w =>
      simp only [dropContext_blind (keepsFiles_setUnused lineEnd count)]
      rfl

theorem new_withUnused (config : LoggerConfig) (logPath : PathBuf) (w : W) :
    (new (withUnused lineEnd count config) logPath : EStateM LoggerError W (LoggerThreadCtx ω)) w =
      match (new config logPath : EStateM LoggerError W (LoggerThreadCtx ω)) w with
      | .ok ctx w => .ok (setUnused lineEnd count ctx) w
      | .error e w => .error e w := by
  have hpath : (withUnused lineEnd count config).contextLogPath = config.contextLogPath := rfl
  simp only [new, hpath, bind, EStateM.bind]
  split
  · split
    · split
      · rfl
      · rfl
    · rfl
  · rfl

end LoggerThreadCtx

namespace Sys

open Transition LoggerThreadCtx GlobalLogger

variable {W ω Tid : Type}

/-- The logger with other values of the two settings. -/
def setUnused (lineEnd : Char) (count : ℕ) (s : Sys W ω Tid) : Sys W ω Tid :=
  { s with ctx := s.ctx.setUnused lineEnd count }

variable [DecidableEq Tid] [FileIo W ω] (lineEnd : Char) (count : ℕ) (s : Sys W ω Tid)

theorem writeCall_setUnused (t : Tid) (call : WriteCall) :
    (s.setUnused lineEnd count).writeCall t call =
      (s.writeCall t call).setUnused lineEnd count := by
  cases call with
  | registerContext tag now =>
      simp only [writeCall, setUnused, addContext_setUnused]
      cases addContext tag (s.world, s.ctx) <;> rfl
  | unregisterContext tag =>
      simp only [writeCall, setUnused, removeContext,
        dropContext_blind (keepsFiles_setUnused lineEnd count)]
      rfl
  | addSink => rfl

theorem callerStep_setUnused (t : Tid) :
    (s.setUnused lineEnd count).callerStep t =
      (s.callerStep t).map (setUnused lineEnd count) := by
  have hcallers : (s.setUnused lineEnd count).callers = s.callers := rfl
  have hlock : (s.setUnused lineEnd count).lock = s.lock := rfl
  have hsemaphore : (s.setUnused lineEnd count).logSemaphore = s.logSemaphore := rfl
  unfold callerStep
  rw [hcallers, hlock, hsemaphore]
  cases (s.callers t).pc with
  | idle =>
      cases (s.callers t).todo with
      | nil => rfl
      | cons call todo => cases call <;> rfl
  | wantRead ops =>
      dsimp only
      cases s.lock.tryRead (.caller t) <;> rfl
  | holding ops => cases ops <;> rfl
  | pushing logs ops => rfl
  | signalling ops => rfl
  | waiting timed ops =>
      dsimp only
      split <;> rfl
  | write phase call =>
      cases phase with
      | request => rfl
      | await =>
          dsimp only
          cases s.lock.tryWrite (.caller t) <;> rfl
      | held => exact congrArg some (writeCall_setUnused lineEnd count s t call)

omit [DecidableEq Tid] in
theorem writeSection_setUnused (now : DateTime) (sec : WriteSection) :
    (s.setUnused lineEnd count).writeSection now sec =
      (s.writeSection now sec).setUnused lineEnd count := by
  have hkeeps := keepsFiles_setUnused (ω := ω) lineEnd count
  cases sec with
  | batch queue logs =>
      simp only [writeSection, setUnused, blind_doLogBatch hkeeps logs s.world s.ctx]
      cases doLogBatch logs (s.world, s.ctx) <;> rfl
  | flush dying =>
      simp only [writeSection, setUnused, blind_flushFiles hkeeps s.world s.ctx]
      cases (flushFiles : EStateM IoError (W × LoggerThreadCtx ω) Unit) (s.world, s.ctx) <;> rfl
  | errorRecord log e =>
      simp only [writeSection, setUnused, blind_fileDoLog hkeeps log s.world s.ctx]
      cases fileDoLog log (s.world, s.ctx) <;> rfl

omit [FileIo W ω] in
theorem sinkStep_setUnused (result : Except LoggerError Unit) (i : ℕ) (log : LogData)
    (rest : List LogData) (dying : Option LoggerError) :
    (s.setUnused lineEnd count).sinkStep result i log rest dying =
      (s.sinkStep result i log rest dying).setUnused lineEnd count := by
  have hsinks : (s.setUnused lineEnd count).ctx.sinks = s.ctx.sinks := rfl
  simp only [sinkStep, hsinks]
  split
  · cases result <;> cases dying <;> rfl
  · cases dying <;> rfl

theorem logThreadStep_setUnused (result : Except LoggerError Unit) (now : DateTime) :
    (s.setUnused lineEnd count).logThreadStep result now =
      (s.logThreadStep result now).map (setUnused lineEnd count) := by
  have hthread : (s.setUnused lineEnd count).logThread = s.logThread := rfl
  have hlock : (s.setUnused lineEnd count).lock = s.lock := rfl
  have hqueue : (s.setUnused lineEnd count).queue = s.queue := rfl
  have hsemaphore : (s.setUnused lineEnd count).logSemaphore = s.logSemaphore := rfl
  unfold logThreadStep
  rw [hthread, hlock, hqueue, hsemaphore]
  cases s.logThread.pc with
  | wantRead sec =>
      dsimp only
      cases s.lock.tryRead .logThread <;> rfl
  | reading sec =>
      cases sec with
      | config queue => rfl
      | sinks i log rest dying =>
          exact congrArg some (sinkStep_setUnused lineEnd count s result i log rest dying)
  | write phase sec =>
      cases phase with
      | request => rfl
      | await =>
          dsimp only
          cases s.lock.tryWrite .logThread <;> rfl
      | held => exact congrArg some (writeSection_setUnused lineEnd count s now sec)
  | signalFlush dying => cases dying <;> rfl
  | checkWait =>
      dsimp only
      split <;> rfl
  | waiting =>
      dsimp only
      split
      · rfl
      · dsimp only [Option.map_some]
        split <;> rfl
  | _ => rfl

/-- No step looks at the two settings. -/
theorem step_setUnused (a : Action Tid) :
    (s.setUnused lineEnd count).step a = (s.step a).map (setUnused lineEnd count) := by
  cases a with
  | caller t => exact callerStep_setUnused lineEnd count s t
  | logThread result now => exact logThreadStep_setUnused lineEnd count s result now
  | spurious p =>
      show (if p ∈ s.logSemaphore.condVar then _ else none) = _
      simp only [step]
      split <;> rfl
  | timeout t =>
      show (if .caller t ∈ s.logSemaphore.condVar then _ else none) = _
      simp only [step]
      split
      · rename_i hparked
        have hcallers : (s.setUnused lineEnd count).callers = s.callers := rfl
        rw [hcallers]
        cases (s.callers t).pc with
        | waiting timed ops => cases timed <;> rfl
        | _ => rfl
      · rfl

omit [DecidableEq Tid] in
/-- Past the allocation only the context path is read. -/
theorem create_withUnused {target : Target} {config : LoggerConfig}
    (h : ¬ CapacityOverflows target (withUnused lineEnd count config))
    (h' : ¬ CapacityOverflows target config) (w : W) (logPath : PathBuf) (todo : Tid → List Call) :
    (create target (withUnused lineEnd count config) logPath w todo : Except Panic (Sys W ω Tid)) =
      (create target config logPath w todo).map (setUnused lineEnd count) := by
  rw [create, if_neg h, create, if_neg h', new_withUnused]
  cases (new config logPath : EStateM LoggerError W (LoggerThreadCtx ω)) w with
  | error e w => rfl
  | ok ctx w =>
      have hinit : (ctx.setUnused lineEnd count).init =
          ctx.init.map (LoggerThreadCtx.setUnused lineEnd count) := by
        have hinited : (ctx.setUnused lineEnd count).inited = ctx.inited := rfl
        rw [init, init, hinited]
        split <;> rfl
      simp only [hinit]
      cases ctx.init <;> rfl

/-- **`line_end` and `log_max_buffer_count` have no effect.**  The logger is created in the same way
as with other values of them exactly if its queue can be allocated with both or with neither, and from
every state every run is the same, up to the values themselves. -/
theorem unusedSettings_noEffect (target : Target) (w : W) (config : LoggerConfig)
    (logPath : PathBuf) (todo : Tid → List Call) :
    ((create target (withUnused lineEnd count config) logPath w todo :
          Except Panic (Sys W ω Tid)) =
        (create target config logPath w todo).map (setUnused lineEnd count) ↔
      (CapacityOverflows target (withUnused lineEnd count config) ↔
        CapacityOverflows target config)) ∧
      ∀ (s : Sys W ω Tid) (as : List (Action Tid)),
        run step (s.setUnused lineEnd count) as = (run step s as).map (setUnused lineEnd count) := by
  refine ⟨?_, run_map fun s a => step_setUnused lineEnd count s a⟩
  have hmap : ∀ r : Except Panic (Sys W ω Tid),
      r.map (setUnused lineEnd count) = .error .capacityOverflow ↔
        r = .error .capacityOverflow := by
    intro r
    cases r <;> simp [Except.map]
  have hoverflows : ∀ config, CapacityOverflows target config ↔
      (create target config logPath w todo : Except Panic (Sys W ω Tid)) =
        .error .capacityOverflow :=
    fun _ => create_eq_capacityOverflow_iff.symm
  constructor
  · intro hsame
    rw [hoverflows, hoverflows config, hsame, hmap]
  · intro hboth
    by_cases hcapacity : CapacityOverflows target config
    · rw [create_eq_capacityOverflow_iff.2 (hboth.2 hcapacity),
        create_eq_capacityOverflow_iff.2 hcapacity]
      rfl
    · exact create_withUnused lineEnd count (fun h => hcapacity (hboth.1 h)) hcapacity w logPath todo

end Sys

end Paperlog
