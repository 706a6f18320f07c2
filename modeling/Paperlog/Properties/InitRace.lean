import Paperlog.Framework.OnceCell
import Paperlog.Model.Scenario
import Paperlog.Properties.InitFailure

/-!
# Threads that race to initialise the logger

Any number of threads may call `init_logger` and `get_logger` at the same time.  The steps of
`LoggerThreadCtx::new` are taken by one of them at a time, and the others wait.  `init_race` says what
comes of it: everybody who gets a logger gets the same one, made of the configuration and the path of
one of the calls.  The other calls return as if theirs had been used.  A call that panics does so
because of its own configuration or its own steps, and the next one tries again.

What the calls do one after another is what `GlobalLogger.initLogger` does (`initLogger_alone`).
-/

namespace Paperlog

namespace GlobalLogger

open LoggerThreadCtx Transition
open OnceCell (Op Finished)

variable {W ω Tid : Type} [FileIo W ω] {target : Target} {config : LoggerConfig} {path : PathBuf}
  {world world' : W}

theorem createLogger_ok {ctx : LoggerThreadCtx ω}
    (h : createLogger target (config, path) world = (.ok ctx, world')) :
    ¬ CapacityOverflows target config ∧ ∃ globalFile,
      LoggerThreadCtx.new config path world = .ok (ofGlobalFile config globalFile) world' ∧
      ctx = { ofGlobalFile config globalFile with inited := true } := by
  unfold createLogger at h
  split at h
  · exact absurd (congrArg Prod.fst h) (by simp)
  · rename_i hcapacity
    refine ⟨hcapacity, ?_⟩
    cases hnew : (LoggerThreadCtx.new config path : EStateM LoggerError W (LoggerThreadCtx ω)) world with
    | error e w =>
        simp only [hnew] at h
        exact absurd (congrArg Prod.fst h) (by simp)
    | ok logger w =>
        obtain ⟨globalFile, rfl⟩ := new_ok hnew
        have hinit : (ofGlobalFile config globalFile).init =
          .ok { ofGlobalFile config globalFile with inited := true } := rfl
        simp only [hnew, hinit] at h
        obtain ⟨hctx, rfl⟩ := Prod.mk.inj h
        exact ⟨globalFile, rfl, (Except.ok.inj hctx).symm⟩

theorem createLogger_error {p : Panic}
    (h : (createLogger target (config, path) world : Except Panic (LoggerThreadCtx ω) × W) =
      (.error p, world')) : CapacityOverflows target config ∨ StepFails ω config path world := by
  unfold createLogger at h
  split at h
  · exact .inl ‹_›
  · right
    cases hnew : (LoggerThreadCtx.new config path : EStateM LoggerError W (LoggerThreadCtx ω)) world with
    | error e w => exact new_error_iff.1 ⟨e, w, hnew⟩
    | ok logger w =>
        obtain ⟨globalFile, rfl⟩ := new_ok hnew
        have hinit : (ofGlobalFile config globalFile).init =
          .ok { ofGlobalFile config globalFile with inited := true } := rfl
        simp only [hnew, hinit] at h
        exact absurd (congrArg Prod.fst h) (by simp)

/-- A call by itself is `initLogger`. -/
theorem initLogger_alone (todo : Tid → List Call) :
    initLogger target none config path world todo =
      match (createLogger target (config, path) world :
          Except Panic (LoggerThreadCtx ω) × W) with
      | (.ok ctx, world) => (.ok (.ok (Sys.start world ctx todo)), some (Sys.start world ctx todo))
      | (.error p, _) => (.error p, none) := by
  rw [initLogger_none, create_eq]
  cases (createLogger target (config, path) world : Except Panic (LoggerThreadCtx ω) × W) with
  | mk result w => cases result <;> rfl

variable (W ω Tid) in
/-- `LOGGER`, the files and the threads.  A call of `getOrInit` is one of `init_logger`, and one of
`get` is one of `get_logger`. -/
abbrev Race := OnceCell.State Tid (LoggerConfig × PathBuf) (LoggerThreadCtx ω) W

/-- The calls that have finished so far came out well. -/
structure Agreed (target : Target) (s : Race W ω Tid)
    (calls : List (Finished Tid (LoggerConfig × PathBuf) (LoggerThreadCtx ω) Panic)) : Prop where
  /-- Whoever has got a logger has got this one. -/
  agreed : ∀ call ∈ calls, ∀ ctx, call.answer.value? = some ctx → s.cell = .set ctx
  /-- It is what the steps of one call have made, and the files are as these have left them. -/
  winner : ∀ ctx, s.cell = .set ctx → ∃ call ∈ calls, ∃ config path globalFile world,
    call.op = .getOrInit (config, path) ∧
    LoggerThreadCtx.new config path world = .ok (ofGlobalFile config globalFile) s.object ∧
    ctx = { ofGlobalFile config globalFile with inited := true }
  /-- Who panics has himself to blame. -/
  panics : ∀ call ∈ calls, ∀ p, call.answer = .failed p → ∃ config path,
    call.op = .getOrInit (config, path) ∧
      (CapacityOverflows target config ∨ ∃ world : W, StepFails ω config path world)

variable [DecidableEq Tid] {todo : Tid → List (Op (LoggerConfig × PathBuf))} {s : Race W ω Tid}
  {ts : List Tid}

/-- **Racing initialisations agree**, whoever moves when: the calls are answered as if they had been
made one after another, each thread's in its order; all that get a logger get the one that one of them
has made; and they all come to an end. -/
theorem init_race
    (hrun : run (OnceCell.step (createLogger target)) (OnceCell.start world todo) ts = some s) :
    let calls := OnceCell.calls (createLogger target) (OnceCell.start world todo) ts
    OnceCell.performAll (createLogger target) (none, world) (calls.map Finished.op) =
        (calls.map Finished.answer, s.plain) ∧
      (∀ t, (calls.flatMap fun call => if call.thread = t then [call.op] else []) ++
        (s.threads t).remaining = todo t) ∧
      Agreed target s calls ∧
      (AtRest (OnceCell.step (createLogger target)) (fun _ => True) s ↔
        ∀ t, (s.threads t).remaining = []) := by
  obtain ⟨hexclusive, hall⟩ := OnceCell.performAll_eq (OnceCell.exclusive_start world todo) hrun
  refine ⟨hall, OnceCell.calls_account hrun, ⟨?_, ?_, ?_⟩, OnceCell.atRest_iff_finished hexclusive⟩
  · exact fun call hcall ctx hctx => OnceCell.cell_of_answer hrun hcall hctx
  · intro ctx hcell
    obtain ⟨call, hcall, ⟨config, path⟩, hop, before, hmade⟩ := OnceCell.made_by_one hrun hcell
    obtain ⟨-, globalFile, hnew, hctx⟩ := createLogger_ok hmade
    exact ⟨call, hcall, config, path, globalFile, before, hop, hnew, hctx⟩
  · intro call hcall p hanswer
    obtain ⟨⟨config, path⟩, hop, before, after, hfailed⟩ := OnceCell.failed_of_answer hcall hanswer
    exact ⟨config, path, hop, (createLogger_error hfailed).imp_right fun h => ⟨before, h⟩⟩

/-- Two threads with different paths, and a third that looks on. -/
def twoInits : Fin 3 → List (Op (LoggerConfig × PathBuf))
  | 0 => [.getOrInit (.default, "a.log".toList)]
  | 1 => [.getOrInit (.default, "b.log".toList)]
  | 2 => [.get, .get]

theorem init_race_twoInits :
    ∃ s : Race (Disk Scenario.resolve) BufWriter (Fin 3),
      run (OnceCell.step (createLogger ⟨64, 144⟩)) (OnceCell.start Scenario.disk twoInits)
        [0, 0, 1, 2, 0, 1, 2] = some s ∧
      Agreed ⟨64, 144⟩ s (OnceCell.calls (createLogger ⟨64, 144⟩)
        (OnceCell.start Scenario.disk twoInits) [0, 0, 1, 2, 0, 1, 2]) := by
  have hend : (run (OnceCell.step (createLogger ⟨64, 144⟩))
      (OnceCell.start Scenario.disk twoInits : Race (Disk Scenario.resolve) BufWriter (Fin 3))
      [0, 0, 1, 2, 0, 1, 2]).isSome := by
    decide
  obtain ⟨s, hrun⟩ := Option.isSome_iff_exists.1 hend
  exact ⟨s, hrun, (init_race hrun).2.2.1⟩

end GlobalLogger

end Paperlog
