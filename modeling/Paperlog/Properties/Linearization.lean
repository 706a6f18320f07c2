import Paperlog.Framework.Trace
import Paperlog.Properties.ContextTrack
import Paperlog.Properties.Pipeline

/-!
# The files see one sequence of operations

Threads register and unregister contexts while the logging thread writes batches and flushes.  Each
of these runs under the write guard, so the files behind the lock see them one after another:
`Sys.fileOps` is what one step does to the files, and `files_linearize` says that in every run, from
any state, the world and the files are what the operations of all threads make of them one by one
in the order of their critical sections.  This holds whatever the operations answer: a failed one
leaves behind what it left behind (`applyOp`).

The order respects the programs: what a thread has done to the files and what it is still going to
do to them is what its calls say (`fileCalls_step`).
-/

namespace Paperlog

namespace LoggerThreadCtx

variable {W ω : Type}

/-! ## Operations on the files look at nothing but the files -/

/-- `g` changes something of the context beside the files. -/
def KeepsFiles (g : LoggerThreadCtx ω → LoggerThreadCtx ω) : Prop :=
  ∀ ctx globalFile contextMap,
    g { ctx with globalFile, contextMap } = { g ctx with globalFile, contextMap }

namespace KeepsFiles

variable {g : LoggerThreadCtx ω → LoggerThreadCtx ω}

theorem globalFile_eq (h : KeepsFiles g) (ctx : LoggerThreadCtx ω) :
    (g ctx).globalFile = ctx.globalFile := by
  have hupdate := congrArg LoggerThreadCtx.globalFile (h ctx ctx.globalFile ctx.contextMap)
  exact hupdate

theorem contextMap_eq (h : KeepsFiles g) (ctx : LoggerThreadCtx ω) :
    (g ctx).contextMap = ctx.contextMap := by
  have hupdate := congrArg LoggerThreadCtx.contextMap (h ctx ctx.globalFile ctx.contextMap)
  exact hupdate

theorem setGlobalFile (h : KeepsFiles g) (ctx : LoggerThreadCtx ω) (globalFile : ω) :
    { g ctx with globalFile } = g { ctx with globalFile } := by
  rw [h ctx globalFile ctx.contextMap, ← h.contextMap_eq ctx]

theorem setContextMap (h : KeepsFiles g) (ctx : LoggerThreadCtx ω) (contextMap : List (Str × ω)) :
    { g ctx with contextMap } = g { ctx with contextMap } := by
  rw [h ctx ctx.globalFile contextMap, ← h.globalFile_eq ctx]

end KeepsFiles

/-- The operation does the same before `g` as after it. -/
def Blind (g : LoggerThreadCtx ω → LoggerThreadCtx ω)
    (op : EStateM IoError (W × LoggerThreadCtx ω) Unit) : Prop :=
  ∀ w ctx, op (w, g ctx) =
    match op (w, ctx) with
    | .ok u (w, ctx) => .ok u (w, g ctx)
    | .error e (w, ctx) => .error e (w, g ctx)

section Blind

variable {g : LoggerThreadCtx ω → LoggerThreadCtx ω}

theorem Blind.bind {op op' : EStateM IoError (W × LoggerThreadCtx ω) Unit} (h : Blind g op)
    (h' : Blind g op') : Blind g (do op; op') := by
  intro w ctx
  simp only [Bind.bind, EStateM.bind, h w ctx]
  cases op (w, ctx) with
  | error e s₁ => rfl
  | ok u s₁ => exact h' s₁.1 s₁.2

theorem blind_pure : Blind g (pure () : EStateM IoError (W × LoggerThreadCtx ω) Unit) :=
  fun _ _ => rfl

variable (hg : KeepsFiles g)

include hg

theorem blind_onGlobalFile (op : EStateM IoError (W × ω) Unit) : Blind g (onGlobalFile op) := by
  intro w ctx
  simp only [onGlobalFile, hg.globalFile_eq]
  cases op (w, ctx.globalFile) <;> simp only [hg.setGlobalFile]

theorem blind_onContextFile (tag : Str) (op : EStateM IoError (W × ω) Unit) :
    Blind g (onContextFile tag op) := by
  intro w ctx
  simp only [onContextFile, hg.contextMap_eq]
  cases ctx.contextMap.lookup tag with
  | none => rfl
  | some file =>
      dsimp only
      cases op (w, file) <;> simp only [hg.setContextMap]

variable [FileIo W ω]

theorem blind_fileDoLog (log : LogData) :
    Blind g (fileDoLog log : EStateM IoError (W × LoggerThreadCtx ω) Unit) := by
  unfold fileDoLog
  apply (blind_onGlobalFile hg _).bind
  cases log.tag with
  | none => exact blind_pure
  | some tag => exact blind_onContextFile hg tag _

theorem blind_doLogBatch (logs : List LogData) :
    Blind g (doLogBatch logs : EStateM IoError (W × LoggerThreadCtx ω) Unit) := by
  induction logs with
  | nil => exact blind_pure
  | cons log logs ih =>
      rw [doLogBatch_cons]
      exact (blind_fileDoLog hg log).bind ih

theorem blind_flushFiles :
    Blind g (flushFiles : EStateM IoError (W × LoggerThreadCtx ω) Unit) := by
  unfold flushFiles
  apply (blind_onGlobalFile hg _).bind
  intro w ctx
  simp only [hg.contextMap_eq]
  cases flushValues w ctx.contextMap <;> simp only [hg.setContextMap]

theorem dropContext_blind (tag : Str) (w : W) (ctx : LoggerThreadCtx ω) :
    dropContext tag w (g ctx) =
      ((dropContext tag w ctx).1, g (dropContext tag w ctx).2) := by
  simp only [dropContext, hg.contextMap_eq, hg.setContextMap]

end Blind

/-- The context with other sinks. -/
def withSinks (sinks : List Sink) (s : W × LoggerThreadCtx ω) : W × LoggerThreadCtx ω :=
  (s.1, { s.2 with sinks })

theorem keepsFiles_sinks (sinks : List Sink) :
    KeepsFiles fun ctx : LoggerThreadCtx ω => { ctx with sinks } :=
  fun _ _ _ => rfl

end LoggerThreadCtx

namespace ContextFile

open LoggerThreadCtx

variable {W ω : Type} [FileIo W ω]

/-- The state a file operation leaves behind, whether it succeeds or not. -/
def applyOp (s : W × LoggerThreadCtx ω) : FileOp → W × LoggerThreadCtx ω
  | .addContext tag =>
      match LoggerThreadCtx.addContext tag s with
      | .ok _ s => s
      | .error _ s => s
  | .removeContext tag => LoggerThreadCtx.removeContext tag s.1 s.2
  | .doLogBatch logs =>
      match LoggerThreadCtx.doLogBatch logs s with
      | .ok _ s => s
      | .error _ s => s
  | .flush =>
      match LoggerThreadCtx.flushFiles s with
      | .ok _ s => s
      | .error _ s => s

theorem applyOp_withSinks (sinks : List Sink) (s : W × LoggerThreadCtx ω) (op : FileOp) :
    applyOp (withSinks sinks s) op = withSinks sinks (applyOp s op) := by
  cases op with
  | addContext tag =>
      simp only [applyOp, LoggerThreadCtx.addContext, withSinks]
      cases orIoSpecific (FileIo.create (contextPath s.2.config tag) : EStateM IoError W ω)
        "Unable to create context file".toList (contextPath s.2.config tag) s.1 <;> rfl
  | removeContext tag => rfl
  | doLogBatch logs =>
      simp only [applyOp, withSinks, blind_doLogBatch (keepsFiles_sinks sinks) logs s.1 s.2]
      cases LoggerThreadCtx.doLogBatch logs (s.1, s.2) <;> rfl
  | flush =>
      simp only [applyOp, withSinks, blind_flushFiles (keepsFiles_sinks sinks) s.1 s.2]
      cases (LoggerThreadCtx.flushFiles : EStateM IoError (W × LoggerThreadCtx ω) Unit) (s.1, s.2) <;> rfl

theorem doLogBatch_singleton (log : LogData) :
    (LoggerThreadCtx.doLogBatch [log] : EStateM IoError (W × LoggerThreadCtx ω) Unit) =
      fileDoLog log := by
  rw [doLogBatch_cons]
  exact bind_pure_unit

/-- On a disk that never fails every operation goes through. -/
theorem perform_disk {resolve : PathBuf → Place} (s : Disk resolve × LoggerThreadCtx BufWriter)
    (op : FileOp) : perform s op = some (applyOp s op) := by
  obtain ⟨disk, ctx⟩ := s
  cases op with
  | addContext tag => rfl
  | removeContext tag => rfl
  | doLogBatch logs =>
      obtain ⟨disk', ctx', hrun, -⟩ := doLogBatch_disk logs disk ctx
      simp only [perform, applyOp, hrun]
  | flush => simp only [perform, applyOp, flushFiles_disk]

theorem run_perform_disk {resolve : PathBuf → Place}
    (s : Disk resolve × LoggerThreadCtx BufWriter) (ops : List FileOp) :
    Transition.run perform s ops = some (ops.foldl applyOp s) := by
  induction ops generalizing s with
  | nil => rfl
  | cons op ops ih =>
      rw [Transition.run_cons, perform_disk, Option.bind_some, ih]
      rfl

end ContextFile

/-! ## The operations of a program and of a step -/

open ContextFile (FileOp)

/-- What the write section of a caller does to the files. -/
def WriteCall.fileOps : WriteCall → List FileOp
  | .registerContext tag _ => [.addContext tag]
  | .unregisterContext tag => [.removeContext tag]
  | .addSink => []

def Call.fileOps : Call → List FileOp
  | .read _ => []
  | .write call => call.fileOps

/-- What is still to come of the call a caller is in. -/
def CallerPc.fileOps : CallerPc → List FileOp
  | .write _ call => call.fileOps
  | _ => []

/-- What a caller is still going to do to the files. -/
def Caller.fileOps (c : Caller) : List FileOp := c.pc.fileOps ++ c.todo.flatMap Call.fileOps

/-- What the write section of the logging thread does to them; the error record is a batch of
one. -/
def WriteSection.fileOps : WriteSection → List FileOp
  | .batch _ logs => [.doLogBatch logs]
  | .flush _ => [.flush]
  | .errorRecord log _ => [.doLogBatch [log]]

/-- What the next step of a caller does to the files. -/
def CallerPc.performs : CallerPc → List FileOp
  | .write .held call => call.fileOps
  | _ => []

def LogThreadPc.performs : LogThreadPc → List FileOp
  | .write .held sec => sec.fileOps
  | _ => []

theorem fileOps_startOp (ops : List GuardedOp) : (Sys.startOp ops).fileOps = [] := by
  rcases ops with _ | ⟨op, ops⟩
  · rfl
  · cases op <;> rfl

/-- What a step performs is taken off what the caller is going to do. -/
theorem fileOps_callerNext {c c' : Caller} (h : Sys.CallerNext c c') :
    c.pc.performs ++ c'.fileOps = c.fileOps := by
  cases h with
  | enter ops todo =>
      simp only [CallerPc.performs, Caller.fileOps, fileOps_startOp, List.nil_append]
      rfl
  | next op ops todo =>
      simp only [CallerPc.performs, Caller.fileOps, fileOps_startOp, List.nil_append]
      rfl
  | _ => rfl

namespace Sys

open Transition LoggerThreadCtx ContextFile

variable {W ω Tid : Type} [DecidableEq Tid]

omit [DecidableEq Tid] in
/-- What one step does to the files, and who does it. -/
def fileOps (s : Sys W ω Tid) : Action Tid → List (Party Tid × FileOp)
  | .caller t => (s.callers t).pc.performs.map fun op => (.caller t, op)
  | .logThread _ _ => s.logThread.pc.performs.map fun op => (.logThread, op)
  | _ => []

omit [DecidableEq Tid] in
/-- The world and the files, without the sinks. -/
def files (s : Sys W ω Tid) : W × LoggerThreadCtx ω := withSinks [] (s.world, s.ctx)

/-- The operations of one thread, out of those of all. -/
def opsOf (p : Party Tid) (b : Party Tid × FileOp) : List FileOp := if b.1 = p then [b.2] else []

variable [FileIo W ω] {s s' : Sys W ω Tid}

/-- The files after some operations, whoever they belong to. -/
def applyOps (o : W × LoggerThreadCtx ω) (ops : List (Party Tid × FileOp)) :
    W × LoggerThreadCtx ω :=
  ops.foldl (fun o b => applyOp o b.2) o

omit [DecidableEq Tid] in
/-- A step that performs one operation. -/
theorem files_of_op {op : FileOp} {p : Party Tid} (h : applyOp (s.world, s.ctx) op = (s'.world, s'.ctx)) :
    applyOps s.files [(p, op)] = s'.files := by
  show applyOp s.files op = _
  rw [files, applyOp_withSinks, h]
  rfl

/-- **Each step does to the files what its operations do.** -/
theorem files_step {a : Action Tid} (hstep : s.step a = some s') :
    applyOps s.files (s.fileOps a) = s'.files := by
  cases step_sound hstep with
  | caller hcaller =>
      cases hcaller with
      | register hpc hadd =>
          simp only [fileOps, hpc, CallerPc.performs, WriteCall.fileOps, List.map_cons, List.map_nil]
          exact files_of_op (by simp only [applyOp, hadd]; rfl)
      | registerFailed hpc hadd =>
          simp only [fileOps, hpc, CallerPc.performs, WriteCall.fileOps, List.map_cons, List.map_nil]
          exact files_of_op (by simp only [applyOp, hadd]; rfl)
      | unregister hpc =>
          simp only [fileOps, hpc, CallerPc.performs, WriteCall.fileOps, List.map_cons, List.map_nil]
          exact files_of_op rfl
      | addSink hpc =>
          simp only [fileOps, hpc]
          rfl
      | _ hpc =>
          simp only [fileOps, hpc]
          rfl
  | logThread hlog =>
      cases hlog with
      | batch hpc hio =>
          simp only [fileOps, hpc, LogThreadPc.performs, WriteSection.fileOps, List.map_cons,
            List.map_nil]
          exact files_of_op (by simp only [applyOp, hio]; rfl)
      | batchFailed hpc hio =>
          simp only [fileOps, hpc, LogThreadPc.performs, WriteSection.fileOps, List.map_cons,
            List.map_nil]
          exact files_of_op (by simp only [applyOp, hio]; rfl)
      | flush hpc hio =>
          simp only [fileOps, hpc, LogThreadPc.performs, WriteSection.fileOps, List.map_cons,
            List.map_nil]
          exact files_of_op (by simp only [applyOp, hio]; rfl)
      | flushFailed hpc hio =>
          simp only [fileOps, hpc, LogThreadPc.performs, WriteSection.fileOps, List.map_cons,
            List.map_nil]
          exact files_of_op (by simp only [applyOp, hio]; rfl)
      | errorFlushFailed hpc hio =>
          simp only [fileOps, hpc, LogThreadPc.performs, WriteSection.fileOps, List.map_cons,
            List.map_nil]
          exact files_of_op (by simp only [applyOp, hio]; rfl)
      | errorRecord hpc hio =>
          rw [← doLogBatch_singleton] at hio
          simp only [fileOps, hpc, LogThreadPc.performs, WriteSection.fileOps, List.map_cons,
            List.map_nil]
          exact files_of_op (by simp only [applyOp, hio]; rfl)
      | errorRecordFailed hpc hio =>
          rw [← doLogBatch_singleton] at hio
          simp only [fileOps, hpc, LogThreadPc.performs, WriteSection.fileOps, List.map_cons,
            List.map_nil]
          exact files_of_op (by simp only [applyOp, hio]; rfl)
      | _ hpc =>
          simp only [fileOps, hpc]
          rfl
  | spurious hparked => rfl
  | timeout hparked hpc => rfl

omit [FileIo W ω] in
theorem opsOf_map_self (p : Party Tid) (ops : List FileOp) :
    (ops.map fun op => (p, op)).flatMap (opsOf p) = ops := by
  simp [List.flatMap_map, opsOf]

omit [FileIo W ω] in
theorem opsOf_map_of_ne {p q : Party Tid} (h : q ≠ p) (ops : List FileOp) :
    (ops.map fun op => (q, op)).flatMap (opsOf p) = [] := by
  simp [List.flatMap_map, opsOf, h]

theorem fileCalls_step {a : Action Tid} (hstep : s.step a = some s') (t : Tid) :
    (s.fileOps a).flatMap (opsOf (.caller t)) ++ (s'.callers t).fileOps = (s.callers t).fileOps := by
  cases step_sound hstep with
  | caller hcaller =>
      rename_i u
      by_cases ht : t = u
      · subst ht
        rw [fileOps, opsOf_map_self]
        exact fileOps_callerNext hcaller.callerNext
      · have hne : (Party.caller u) ≠ .caller t := fun heq => ht (Party.caller.inj heq).symm
        rw [fileOps, opsOf_map_of_ne hne, hcaller.frame.others t ht]
        rfl
  | logThread hlog =>
      have hne : (.logThread : Party Tid) ≠ .caller t := nofun
      rw [fileOps, opsOf_map_of_ne hne, hlog.frame.callers]
      rfl
  | spurious hparked => rfl
  | timeout hparked hpc =>
      rename_i u ops
      by_cases ht : t = u
      · subst ht
        simp [fileOps, Caller.fileOps, CallerPc.fileOps, hpc]
      · rw [goCaller_callers_of_ne _ _ _ ht]
        rfl

/-- In every run the files become what the operations performed make of them, one by one. -/
theorem files_run {as : List (Action Tid)} (hrun : run step s as = some s') :
    applyOps s.files (trace step fileOps s as) = s'.files :=
  foldl_trace (fun _ _ _ hstep => files_step hstep) hrun

/-- **Every interleaving is a sequence of operations.**  In every run, from any state and whatever
the operations answer, the world and the files become what the operations of all threads make of
them one after another, in the order in which the threads were inside the write guard; and what a
caller has done of these, with what it is still going to do behind it, is what its program said. -/
theorem files_linearize {as : List (Action Tid)} (hrun : run step s as = some s') :
    applyOps s.files (trace step fileOps s as) = s'.files ∧
      ∀ t, (trace step fileOps s as).flatMap (opsOf (.caller t)) ++ (s'.callers t).fileOps =
        (s.callers t).fileOps :=
  ⟨files_run hrun, fun t => trace_account (fun _ _ _ hstep => fileCalls_step hstep t) hrun⟩

/-- One thread registers a context and logs to it, another unregisters it. -/
def registerAndDrop : Bool → List Call
  | false =>
      [.write (.registerContext "T".toList Scenario.time),
        .read [.queueLog (Scenario.tagged "a")]]
  | true => [.write (.unregisterContext "T".toList)]

/-- The first batch is written before the context goes, and flushed after it has gone. -/
def registerAndDropRun : List (Action Bool) :=
  Scenario.callerSteps false 9 ++ Scenario.logThreadSteps 6 ++ Scenario.callerSteps true 4 ++
    Scenario.logThreadSteps 6

theorem files_linearize_registerAndDrop :
    ∃ s, run step (Scenario.start .default registerAndDrop) registerAndDropRun = some s ∧
      trace step fileOps (Scenario.start .default registerAndDrop) registerAndDropRun =
        [(.caller false, .addContext "T".toList),
          (.logThread, .doLogBatch [Scenario.tagged "a"]),
          (.caller true, .removeContext "T".toList), (.logThread, .flush)] ∧
      applyOps (Scenario.start .default registerAndDrop).files
        (trace step fileOps (Scenario.start .default registerAndDrop) registerAndDropRun) =
          s.files := by
  have hsome : (run step (Scenario.start .default registerAndDrop) registerAndDropRun).isSome := by
    decide +kernel
  obtain ⟨s, hrun⟩ := Option.isSome_iff_exists.1 hsome
  exact ⟨s, hrun, by decide +kernel, (files_linearize hrun).1⟩

end Sys

end Paperlog
