import Paperlog.Model.DiskIo
import Paperlog.Model.Steps

/-!
# What a step leaves alone

Most of an invariant is usually untouched by most of the steps.  `CallerFrame` says this once for
all steps of a caller: the logging thread, the configuration, the global file and the other callers
stay as they are, and the queue changes only by a push.  `LogThreadFrame` is the counterpart for the
logging thread: no caller moves, nothing is pushed, and the context keeps its configuration.  Under
both lies `FilesOnly`: whatever the writers answer, the file operations change nothing of the
context but its files.

`Step` puts the four kinds of actions together; whichever it is, no other thread gets to another
program point (`atPc_step`).
-/

namespace Paperlog

namespace LoggerThreadCtx

variable {W ω : Type}

/-- The contexts agree on everything but the files. -/
structure SameSetup (ctx ctx' : LoggerThreadCtx ω) : Prop where
  config : ctx'.config = ctx.config
  inited : ctx'.inited = ctx.inited
  sinks : ctx'.sinks = ctx.sinks

theorem SameSetup.rfl {ctx : LoggerThreadCtx ω} : SameSetup ctx ctx := ⟨.refl _, .refl _, .refl _⟩

theorem SameSetup.trans {ctx ctx₁ ctx₂ : LoggerThreadCtx ω} (h : SameSetup ctx ctx₁)
    (h' : SameSetup ctx₁ ctx₂) : SameSetup ctx ctx₂ :=
  ⟨h'.config.trans h.config, h'.inited.trans h.inited, h'.sinks.trans h.sinks⟩

/-- Succeed or fail, the operation changes nothing of the context but its files. -/
def FilesOnly (op : EStateM IoError (W × LoggerThreadCtx ω) Unit) : Prop :=
  ∀ w ctx, match op (w, ctx) with
    | .ok _ (_, ctx') => SameSetup ctx ctx'
    | .error _ (_, ctx') => SameSetup ctx ctx'

theorem FilesOnly.ok {op : EStateM IoError (W × LoggerThreadCtx ω) Unit} (hop : FilesOnly op)
    {w w' : W} {ctx ctx' : LoggerThreadCtx ω} (h : op (w, ctx) = .ok () (w', ctx')) :
    SameSetup ctx ctx' := by
  have := hop w ctx
  rwa [h] at this

theorem FilesOnly.error {op : EStateM IoError (W × LoggerThreadCtx ω) Unit} (hop : FilesOnly op)
    {w w' : W} {ctx ctx' : LoggerThreadCtx ω} {e : IoError}
    (h : op (w, ctx) = .error e (w', ctx')) : SameSetup ctx ctx' := by
  have := hop w ctx
  rwa [h] at this

theorem filesOnly_pure : FilesOnly (pure () : EStateM IoError (W × LoggerThreadCtx ω) Unit) :=
  fun _ _ => .rfl

theorem FilesOnly.bind {op op' : EStateM IoError (W × LoggerThreadCtx ω) Unit}
    (h : FilesOnly op) (h' : FilesOnly op') : FilesOnly (do op; op') := by
  intro w ctx
  have hfirst := h w ctx
  simp only [Bind.bind, EStateM.bind]
  cases hop : op (w, ctx) with
  | error e s =>
      rw [hop] at hfirst
      exact hfirst
  | ok u s =>
      rw [hop] at hfirst
      have hsecond := h' s.1 s.2
      dsimp only
      split
      · rename_i hop'
        rw [hop'] at hsecond
        exact hfirst.trans hsecond
      · rename_i hop'
        rw [hop'] at hsecond
        exact hfirst.trans hsecond

theorem filesOnly_onGlobalFile (op : EStateM IoError (W × ω) Unit) :
    FilesOnly (onGlobalFile op) := by
  intro w ctx
  simp only [onGlobalFile]
  cases op (w, ctx.globalFile) <;> exact SameSetup.mk rfl rfl rfl

theorem filesOnly_onContextFile (tag : Str) (op : EStateM IoError (W × ω) Unit) :
    FilesOnly (onContextFile tag op) := by
  intro w ctx
  simp only [onContextFile]
  cases ctx.contextMap.lookup tag with
  | none => exact .rfl
  | some file =>
      dsimp only
      cases op (w, file) <;> exact SameSetup.mk rfl rfl rfl

variable [FileIo W ω]

theorem filesOnly_fileDoLog (log : LogData) :
    FilesOnly (fileDoLog log : EStateM IoError (W × LoggerThreadCtx ω) Unit) := by
  unfold fileDoLog
  apply (filesOnly_onGlobalFile _).bind
  cases log.tag with
  | none => exact filesOnly_pure
  | some tag => exact filesOnly_onContextFile tag _

theorem filesOnly_doLogBatch (logs : List LogData) :
    FilesOnly (doLogBatch logs : EStateM IoError (W × LoggerThreadCtx ω) Unit) := by
  induction logs with
  | nil => exact filesOnly_pure
  | cons log logs ih =>
      rw [doLogBatch_cons]
      exact (filesOnly_fileDoLog log).bind ih

theorem filesOnly_flushFiles :
    FilesOnly (flushFiles : EStateM IoError (W × LoggerThreadCtx ω) Unit) := by
  unfold flushFiles
  apply (filesOnly_onGlobalFile _).bind
  intro w ctx
  cases hvalues : flushValues w ctx.contextMap with
  | ok u r =>
      simp only [hvalues]
      exact ⟨rfl, rfl, rfl⟩
  | error e r =>
      simp only [hvalues]
      exact ⟨rfl, rfl, rfl⟩

omit [FileIo W ω] in
/-- A sequence that succeeds is two operations that succeed. -/
theorem bind_ok {ε σ α β : Type} {op : EStateM ε σ α} {next : α → EStateM ε σ β} {w w' : σ} {b : β}
    (h : (op >>= next) w = .ok b w') : ∃ a w₁, op w = .ok a w₁ ∧ next a w₁ = .ok b w' := by
  simp only [bind, EStateM.bind] at h
  cases hop : op w with
  | ok a w₁ =>
      rw [hop] at h
      exact ⟨a, w₁, rfl, h⟩
  | error e w₁ =>
      rw [hop] at h
      cases h

/-- A context that was created successfully is fresh but for its global file. -/
theorem new_ok {config : LoggerConfig} {logPath : PathBuf} {w w' : W} {ctx : LoggerThreadCtx ω}
    (h : new config logPath w = .ok ctx w') : ∃ globalFile, ctx = ofGlobalFile config globalFile := by
  obtain ⟨_, _, -, h⟩ := bind_ok h
  obtain ⟨_, _, -, h⟩ := bind_ok h
  obtain ⟨globalFile, _, -, h⟩ := bind_ok h
  cases h
  exact ⟨globalFile, rfl⟩

/-- Registering touches only the context map. -/
theorem addContext_ok {tag : Str} {w w' : W} {ctx ctx' : LoggerThreadCtx ω}
    (h : addContext tag (w, ctx) = .ok () (w', ctx')) :
    ∃ contextMap, ctx' = { ctx with contextMap } := by
  unfold addContext at h
  dsimp only at h
  split at h
  · cases h
  · cases h
    exact ⟨_, rfl⟩

/-- A registration that fails leaves the context as it was. -/
theorem addContext_error {tag : Str} {w w' : W} {ctx ctx' : LoggerThreadCtx ω} {e : LoggerError}
    (h : addContext tag (w, ctx) = .error e (w', ctx')) : ctx' = ctx := by
  unfold addContext at h
  dsimp only at h
  split at h
  · cases h
    rfl
  · cases h

end LoggerThreadCtx

namespace Sys

open LoggerThreadCtx

variable {W ω Tid : Type} [DecidableEq Tid] [FileIo W ω]

omit [DecidableEq Tid] in
/-- Where every run starts. -/
theorem boot_ok {w : W} {config : LoggerConfig} {logPath : PathBuf} {todo : Tid → List Call}
    {s : Sys W ω Tid} (h : boot w config logPath todo = .ok s) :
    ∃ w' globalFile, s = start w'
      { config, inited := true, globalFile, contextMap := [], sinks := [] } todo := by
  unfold boot at h
  split at h
  · cases h
  · rename_i ctx w' hnew
    obtain ⟨globalFile, rfl⟩ := new_ok hnew
    exact ⟨w', globalFile, (Except.ok.inj h).symm⟩

omit [DecidableEq Tid] in
theorem boot_disk {resolve : PathBuf → Place} (disk : Disk resolve) (config : LoggerConfig)
    (logPath : PathBuf) (todo : Tid → List Call) :
    boot disk config logPath todo = .ok (start (disk.create logPath).1
      { config, inited := true, globalFile := (disk.create logPath).2, contextMap := [], sinks := [] }
      todo) := by
  rw [boot, new_disk]
  rfl

/-- What a step of caller `t` leaves alone. -/
structure CallerFrame (s : Sys W ω Tid) (t : Tid) (s' : Sys W ω Tid) : Prop where
  logThread : s'.logThread = s.logThread
  config : s'.ctx.config = s.ctx.config
  inited : s'.ctx.inited = s.ctx.inited
  globalFile : s'.ctx.globalFile = s.ctx.globalFile
  others : ∀ u, u ≠ t → s'.callers u = s.callers u
  queue : (s'.queue = s.queue ∧ s'.history = s.history) ∨
    ∃ logs, s'.queue = s.queue ++ logs ∧
      s'.history = { s.history with pushed := s.history.pushed ++ [(t, logs)] }

omit [DecidableEq Tid] [FileIo W ω] in
/-- Of the history a caller adds to nothing but what has been pushed. -/
theorem CallerFrame.history {s s' : Sys W ω Tid} {t : Tid} (h : CallerFrame s t s') :
    s'.history = { s.history with pushed := s'.history.pushed } := by
  rcases h.queue with ⟨-, hhistory⟩ | ⟨logs, -, hhistory⟩
  · rw [hhistory]
  · rw [hhistory]

theorem CallerStep.frame {s s' : Sys W ω Tid} {t : Tid} (h : CallerStep s t s') :
    CallerFrame s t s' := by
  have hothers : ∀ (r : Sys W ω Tid) (pc : CallerPc), r.callers = s.callers →
      ∀ u, u ≠ t → (r.goCaller t pc).callers u = s.callers u := by
    intro r pc hr u hu
    rw [goCaller_callers_of_ne _ _ _ hu, hr]
  cases h with
  | beginRead hpc htodo =>
      exact ⟨rfl, rfl, rfl, rfl, fun u hu => Function.update_of_ne hu _ _, .inl ⟨rfl, rfl⟩⟩
  | beginWrite hpc htodo =>
      exact ⟨rfl, rfl, rfl, rfl, fun u hu => Function.update_of_ne hu _ _, .inl ⟨rfl, rfl⟩⟩
  | push hpc =>
      exact ⟨rfl, rfl, rfl, rfl, hothers _ _ rfl, .inr ⟨_, rfl, rfl⟩⟩
  | register hpc hadd =>
      obtain ⟨contextMap, rfl⟩ := addContext_ok hadd
      exact ⟨rfl, rfl, rfl, rfl, hothers _ _ rfl, .inl ⟨rfl, rfl⟩⟩
  | registerFailed hpc hadd =>
      obtain rfl := addContext_error hadd
      exact ⟨rfl, rfl, rfl, rfl, hothers _ _ rfl, .inl ⟨rfl, rfl⟩⟩
  | _ => exact ⟨rfl, rfl, rfl, rfl, hothers _ _ rfl, .inl ⟨rfl, rfl⟩⟩

/-- What a step of the logging thread leaves alone. -/
structure LogThreadFrame (s s' : Sys W ω Tid) : Prop where
  callers : s'.callers = s.callers
  pushed : s'.history.pushed = s.history.pushed
  config : s'.ctx.config = s.ctx.config
  inited : s'.ctx.inited = s.ctx.inited

omit [DecidableEq Tid] [FileIo W ω] in
theorem LogThreadFrame.of_sameSetup {s s' : Sys W ω Tid} (hcallers : s'.callers = s.callers)
    (hpushed : s'.history.pushed = s.history.pushed) (h : SameSetup s.ctx s'.ctx) :
    LogThreadFrame s s' :=
  ⟨hcallers, hpushed, h.config, h.inited⟩

theorem LogThreadStep.frame {s s' : Sys W ω Tid} {result : Except LoggerError Unit}
    {now : DateTime} (h : LogThreadStep s result now s') : LogThreadFrame s s' := by
  cases h with
  | batch hpc hio => exact .of_sameSetup rfl rfl ((filesOnly_doLogBatch _).ok hio)
  | batchFailed hpc hio => exact .of_sameSetup rfl rfl ((filesOnly_doLogBatch _).error hio)
  | flush hpc hio => exact .of_sameSetup rfl rfl (filesOnly_flushFiles.ok hio)
  | flushFailed hpc hio => exact .of_sameSetup rfl rfl (filesOnly_flushFiles.error hio)
  | errorFlushFailed hpc hio => exact .of_sameSetup rfl rfl (filesOnly_flushFiles.error hio)
  | errorRecord hpc hio => exact .of_sameSetup rfl rfl ((filesOnly_fileDoLog _).ok hio)
  | errorRecordFailed hpc hio => exact .of_sameSetup rfl rfl ((filesOnly_fileDoLog _).error hio)
  | _ => exact ⟨rfl, rfl, rfl, rfl⟩

/-- One step of the system, by the kind of its action. -/
inductive Step (s : Sys W ω Tid) : Action Tid → Sys W ω Tid → Prop
  | caller {t s'} (h : CallerStep s t s') : Step s (.caller t) s'
  | logThread {result now s'} (h : LogThreadStep s result now s') :
      Step s (.logThread result now) s'
  | spurious {p} (hparked : p ∈ s.logSemaphore.condVar) :
      Step s (.spurious p) { s with logSemaphore := s.logSemaphore.unpark p }
  | timeout {t ops} (hparked : .caller t ∈ s.logSemaphore.condVar)
      (hpc : (s.callers t).pc = .waiting true ops) :
      Step s (.timeout t)
        ({ s with logSemaphore := s.logSemaphore.unpark (.caller t) }.goCaller t (.holding ops))

theorem step_sound {s s' : Sys W ω Tid} {a : Action Tid} (h : s.step a = some s') :
    Step s a s' := by
  cases a with
  | caller t => exact .caller (callerStep_sound h)
  | logThread result now => exact .logThread (logThreadStep_sound h)
  | spurious p =>
      rw [step, Option.ite_none_right_eq_some] at h
      obtain ⟨hparked, h⟩ := h
      exact Option.some.inj h ▸ .spurious hparked
  | timeout t =>
      rw [step, Option.ite_none_right_eq_some] at h
      obtain ⟨hparked, h⟩ := h
      split at h
      · rename_i hpc
        exact Option.some.inj h ▸ .timeout hparked hpc
      · cases h

/-! ## The thread that moves -/

/-- What one reads off the program point of every party. -/
def atPc {α : Type} (ofLogThread : LogThreadPc → α) (ofCaller : CallerPc → α) (s : Sys W ω Tid) :
    Party Tid → α
  | .logThread => ofLogThread s.logThread.pc
  | .caller t => ofCaller (s.callers t).pc

/-- A step moves nobody but the thread that takes it. -/
theorem atPc_step {α : Type} (ofLogThread : LogThreadPc → α) (ofCaller : CallerPc → α)
    {s s' : Sys W ω Tid} {a : Action Tid} (hstep : s.step a = some s') :
    s'.atPc ofLogThread ofCaller = Function.update (s.atPc ofLogThread ofCaller) a.actor
      (s'.atPc ofLogThread ofCaller a.actor) := by
  funext p
  by_cases hp : p = a.actor
  · rw [hp, Function.update_self]
  · rw [Function.update_of_ne hp]
    cases step_sound hstep with
    | caller hcaller =>
        cases p with
        | logThread => rw [atPc, atPc, hcaller.frame.logThread]
        | caller u =>
            have hu : u ≠ _ := fun heq => hp (congrArg Party.caller heq)
            rw [atPc, atPc, hcaller.frame.others u hu]
    | logThread hlog =>
        cases p with
        | logThread => exact absurd rfl hp
        | caller u => rw [atPc, atPc, hlog.frame.callers]
    | spurious hparked => rfl
    | timeout hparked hpc =>
        cases p with
        | logThread => rfl
        | caller u =>
            have hu : u ≠ _ := fun heq => hp (congrArg Party.caller heq)
            rw [atPc, atPc, goCaller_callers_of_ne _ _ _ hu]

/-! ## The life of one caller -/

/-- What a step can do to the caller that takes it, seen from that caller alone. -/
inductive CallerNext : Caller → Caller → Prop
  | beginRead (ops todo) : CallerNext ⟨.idle, .read ops :: todo⟩ ⟨.wantRead ops, todo⟩
  | beginWrite (call todo) : CallerNext ⟨.idle, .write call :: todo⟩ ⟨.write .request call, todo⟩
  | enter (ops todo) : CallerNext ⟨.wantRead ops, todo⟩ ⟨startOp ops, todo⟩
  | leave (todo) : CallerNext ⟨.holding [], todo⟩ ⟨.idle, todo⟩
  | next (op ops todo) : CallerNext ⟨.holding (op :: ops), todo⟩ ⟨startOp (op :: ops), todo⟩
  | push (logs ops todo) : CallerNext ⟨.pushing logs ops, todo⟩ ⟨.signalling ops, todo⟩
  | signal (ops todo) : CallerNext ⟨.signalling ops, todo⟩ ⟨.holding ops, todo⟩
  | wake (timed ops todo) : CallerNext ⟨.waiting timed ops, todo⟩ ⟨.holding ops, todo⟩
  | park (timed ops todo) : CallerNext ⟨.waiting timed ops, todo⟩ ⟨.waiting timed ops, todo⟩
  | request (call todo) : CallerNext ⟨.write .request call, todo⟩ ⟨.write .await call, todo⟩
  | grant (call todo) : CallerNext ⟨.write .await call, todo⟩ ⟨.write .held call, todo⟩
  | finish (call todo) : CallerNext ⟨.write .held call, todo⟩ ⟨.idle, todo⟩
  | failed (call log todo) : CallerNext ⟨.write .held call, todo⟩ ⟨.wantRead [.queueLog log], todo⟩

theorem CallerStep.callerNext {s s' : Sys W ω Tid} {t : Tid} (h : CallerStep s t s') :
    CallerNext (s.callers t) (s'.callers t) := by
  have hmove : ∀ {r : Sys W ω Tid} {pc pc' : CallerPc}, r.callers = s.callers →
      (s.callers t).pc = pc → (∀ todo, CallerNext ⟨pc, todo⟩ ⟨pc', todo⟩) →
      CallerNext (s.callers t) ((r.goCaller t pc').callers t) := by
    rintro r pc pc' hr rfl hnext
    rw [goCaller_callers_self, hr]
    exact hnext _
  cases h with
  | beginRead hpc htodo =>
      rename_i ops todo
      have hcaller : s.callers t = ⟨.idle, .read ops :: todo⟩ := by rw [← hpc, ← htodo]
      simpa [hcaller] using CallerNext.beginRead ops todo
  | beginWrite hpc htodo =>
      rename_i call todo
      have hcaller : s.callers t = ⟨.idle, .write call :: todo⟩ := by rw [← hpc, ← htodo]
      simpa [hcaller] using CallerNext.beginWrite call todo
  | enter hpc hlock => exact hmove rfl hpc (.enter _)
  | leave hpc => exact hmove rfl hpc .leave
  | next hpc => exact hmove rfl hpc (.next _ _)
  | push hpc => exact hmove rfl hpc (.push _ _)
  | signal hpc => exact hmove rfl hpc (.signal _)
  | takeSignal hpc hflag => exact hmove rfl hpc (.wake _ _)
  | park hpc hflag => exact hmove rfl hpc (.park _ _)
  | request hpc => exact hmove rfl hpc (.request _)
  | grant hpc hlock => exact hmove rfl hpc (.grant _)
  | register hpc hadd => exact hmove rfl hpc (.finish _)
  | registerFailed hpc hadd => exact hmove rfl hpc (.failed _ _)
  | unregister hpc => exact hmove rfl hpc (.finish _)
  | addSink hpc => exact hmove rfl hpc (.finish _)

/-- A property of single callers that their own moves preserve is preserved by every step. -/
theorem callers_step {P : Caller → Prop} (hnext : ∀ c c', P c → CallerNext c c' → P c')
    {s s' : Sys W ω Tid} {a : Action Tid} (h : ∀ t, P (s.callers t)) (hstep : s.step a = some s') :
    ∀ t, P (s'.callers t) := by
  intro t
  cases step_sound hstep with
  | caller hcaller =>
      rename_i u
      by_cases ht : t = u
      · subst ht
        exact hnext _ _ (h t) hcaller.callerNext
      · rw [hcaller.frame.others t ht]
        exact h t
  | logThread hlog =>
      rw [hlog.frame.callers]
      exact h t
  | spurious hparked => exact h t
  | timeout hparked hpc =>
      rename_i u ops
      by_cases ht : t = u
      · subst ht
        have hcaller : s.callers t = ⟨.waiting true ops, (s.callers t).todo⟩ := by rw [← hpc]
        rw [goCaller_callers_self]
        exact hnext _ _ (hcaller ▸ h t) (.wake true ops _)
      · rw [goCaller_callers_of_ne _ _ _ ht]
        exact h t

theorem config_step {s s' : Sys W ω Tid} {a : Action Tid} (h : s.step a = some s') :
    s'.ctx.config = s.ctx.config := by
  cases step_sound h with
  | caller hcaller => exact hcaller.frame.config
  | logThread hlog => exact hlog.frame.config
  | spurious hparked => rfl
  | timeout hparked hpc => rfl

theorem inited_step {s s' : Sys W ω Tid} {a : Action Tid} (h : s.step a = some s') :
    s'.ctx.inited = s.ctx.inited := by
  cases step_sound h with
  | caller hcaller => exact hcaller.frame.inited
  | logThread hlog => exact hlog.frame.inited
  | spurious hparked => rfl
  | timeout hparked hpc => rfl

theorem config_run {s s' : Sys W ω Tid} {as : List (Action Tid)}
    (h : Transition.run step s as = some s') : s'.ctx.config = s.ctx.config :=
  Transition.run_unchanged (fun _ _ _ => config_step) h

end Sys

end Paperlog
