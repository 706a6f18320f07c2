import Paperlog.Model.GlobalLogger

/-!
# A failing initialisation

`LoggerThreadCtx::new` reports each of its three file system steps that fails, but `init_logger`
calls `expect` on what it reports: the error never gets into the `Result`, and where it is wanted,
the call panics.  `initLogger_panics_iff` says when, and `failureReported_iff` that the promise of
the `Result` is kept only where there is nothing to report.
-/

namespace Paperlog

namespace GlobalLogger

open LoggerThreadCtx

variable {W ω Tid : Type} [FileIo W ω]

variable (ω) in
/-- One of the file system steps of `LoggerThreadCtx::new` fails. -/
inductive StepFails (config : LoggerConfig) (path : PathBuf) (world : W) : Prop
  | contextFolder {e : IoError} {w : W}
      (h : FileIo.createDirAll ω config.contextLogPath world = .error e w)
  | parentFolder {w w' : W} {parent : PathBuf} {e : IoError}
      (hfolder : FileIo.createDirAll ω config.contextLogPath world = .ok () w)
      (hparent : path.parent = some parent)
      (h : FileIo.createDirAll ω parent w = .error e w')
  | globalFile {w w' w'' : W} {e : IoError}
      (hfolder : FileIo.createDirAll ω config.contextLogPath world = .ok () w)
      (hparent : createParent ω path w = .ok () w')
      (h : (FileIo.create path : EStateM IoError W ω) w' = .error e w'')

/-! ## Errors of a sequence of steps -/

theorem bind_error_iff {ε σ α β : Type} {op : EStateM ε σ α} {next : α → EStateM ε σ β} {w : σ} :
    (∃ e w', (op >>= next) w = .error e w') ↔
      (∃ e w', op w = .error e w') ∨
        ∃ a w₁, op w = .ok a w₁ ∧ ∃ e w', next a w₁ = .error e w' := by
  simp only [bind, EStateM.bind]
  cases op w with
  | ok a w₁ => simp
  | error e w₁ => simp

theorem orIoSpecific_error_iff {α : Type} {op : EStateM IoError W α} {context : Str}
    {path : PathBuf} {w : W} :
    (∃ e w', orIoSpecific op context path w = .error e w') ↔ ∃ e w', op w = .error e w' := by
  unfold orIoSpecific
  cases op w with
  | ok a w' => simp
  | error e w' => simp

theorem orIoSpecific_ok_iff {α : Type} {op : EStateM IoError W α} {context : Str}
    {path : PathBuf} {w w' : W} {a : α} :
    orIoSpecific op context path w = .ok a w' ↔ op w = .ok a w' := by
  unfold orIoSpecific
  cases op w with
  | ok a w' => simp
  | error e w' => simp

theorem createParent_error_iff {path : PathBuf} {w : W} :
    (∃ e w', createParent ω path w = .error e w') ↔
      ∃ parent, path.parent = some parent ∧
        ∃ e w', FileIo.createDirAll ω parent w = .error e w' := by
  unfold createParent
  cases path.parent with
  | none => simp [pure, EStateM.pure]
  | some parent => simp [orIoSpecific_error_iff]

/-- **`LoggerThreadCtx::new` fails exactly when one of its steps does.** -/
theorem new_error_iff {config : LoggerConfig} {path : PathBuf} {world : W} :
    (∃ e w, (new config path : EStateM LoggerError W (LoggerThreadCtx ω)) world = .error e w) ↔
      StepFails ω config path world := by
  have hpure : ∀ (file : ω) w, ¬ ∃ e w',
      (pure (ofGlobalFile config file) : EStateM LoggerError W _) w = .error e w' := by
    rintro file w ⟨e, w', h⟩
    cases h
  rw [new, bind_error_iff, orIoSpecific_error_iff]
  constructor
  · rintro (⟨e, w, h⟩ | ⟨_, w, hfolder, h⟩)
    · exact .contextFolder h
    · rw [orIoSpecific_ok_iff] at hfolder
      rcases bind_error_iff.mp h with h | ⟨_, w', hparent, h⟩
      · obtain ⟨parent, hsome, e, w', h⟩ := createParent_error_iff.mp h
        exact .parentFolder hfolder hsome h
      · rcases bind_error_iff.mp h with h | ⟨file, w'', -, h⟩
        · obtain ⟨e, w'', h⟩ := orIoSpecific_error_iff.mp h
          exact .globalFile hfolder hparent h
        · exact absurd h (hpure file w'')
  · intro hfails
    cases hfails with
    | contextFolder h => exact .inl ⟨_, _, h⟩
    | parentFolder hfolder hparent h =>
        refine .inr ⟨(), _, orIoSpecific_ok_iff.mpr hfolder, bind_error_iff.mpr (.inl ?_)⟩
        exact createParent_error_iff.mpr ⟨_, hparent, _, _, h⟩
    | globalFile hfolder hparent h =>
        refine .inr ⟨(), _, orIoSpecific_ok_iff.mpr hfolder, bind_error_iff.mpr (.inr ?_)⟩
        exact ⟨(), _, hparent, bind_error_iff.mpr (.inl (orIoSpecific_error_iff.mpr ⟨_, _, h⟩))⟩

/-! ## What becomes of the error -/

section

variable {target : Target} {cell : Option (Sys W ω Tid)} {config : LoggerConfig} {path : PathBuf}
  {world : W} {todo : Tid → List Call}

variable (target cell config path world todo)

/-- An unset cell, and something for `expect` to panic about. -/
theorem create_error_iff :
    (∃ p, (create target config path world todo : Except Panic (Sys W ω Tid)) = .error p) ↔
      CapacityOverflows target config ∨ StepFails ω config path world := by
  rw [← new_error_iff, create]
  by_cases hcapacity : CapacityOverflows target config
  · simp [hcapacity]
  · cases hnew : (new config path : EStateM LoggerError W (LoggerThreadCtx ω)) world with
    | error e w => simp [hcapacity]
    | ok logger w =>
        obtain ⟨file, rfl⟩ := new_ok hnew
        simp [hcapacity, init, ofGlobalFile]

/-- **When `init_logger` panics.** -/
theorem initLogger_panics_iff :
    (∃ p, (initLogger target cell config path world todo).1 = .error p) ↔
      cell = none ∧ (CapacityOverflows target config ∨ StepFails ω config path world) := by
  cases cell with
  | some s => simp [initLogger, getOrInit, Except.map]
  | none =>
      rw [← create_error_iff target config path world todo, initLogger_none]
      cases (create target config path world todo : Except Panic (Sys W ω Tid)) with
      | ok s => simp
      | error p => simp

/-- It never returns an error. -/
theorem initLogger_ne_error (e : LoggerError) :
    (initLogger target cell config path world todo).1 ≠ .ok (.error e) := by
  cases cell with
  | some s => simp [initLogger, getOrInit, Except.map]
  | none =>
      rw [initLogger_none]
      cases (create target config path world todo : Except Panic (Sys W ω Tid)) with
      | ok s => simp
      | error p => simp

/-- A call that panics leaves the cell unset. -/
theorem cell_of_panic {p : Panic}
    (hpanic : (initLogger target cell config path world todo).1 = .error p) :
    (initLogger target cell config path world todo).2 = none := by
  obtain ⟨rfl, -⟩ := (initLogger_panics_iff target cell config path world todo).mp ⟨p, hpanic⟩
  rw [initLogger_none] at hpanic ⊢
  cases hcreate : (create target config path world todo : Except Panic (Sys W ω Tid)) with
  | ok s => simp [hcreate] at hpanic
  | error p => rfl

/-- With nothing to panic about, a logger is returned and set. -/
theorem initLogger_succeeds (hcapacity : ¬ CapacityOverflows target config)
    (hsteps : ¬ StepFails ω config path world) :
    ∃ s, initLogger target cell config path world todo = (.ok (.ok s), some s) := by
  cases cell with
  | some s => exact ⟨s, rfl⟩
  | none =>
      have hcreate := mt (create_error_iff target config path world todo).mp
        (not_or.mpr ⟨hcapacity, hsteps⟩)
      rw [initLogger_none]
      cases hres : (create target config path world todo : Except Panic (Sys W ω Tid)) with
      | ok s => exact ⟨s, rfl⟩
      | error p => exact absurd ⟨p, hres⟩ hcreate

/-! ## The promise -/

/-- **A failure is reported**: `init_logger` does not panic and returns an error exactly when a step
fails while the cell is unset; then `paper2_init_logger_ffi` answers `false`, the cell stays unset,
and a later call whose steps succeed returns a logger. -/
structure FailureReported : Prop where
  noPanic : ∀ p, (initLogger target cell config path world todo).1 ≠ .error p
  error_iff : (∃ e, (initLogger target cell config path world todo).1 = .ok (.error e)) ↔
    StepFails ω config path world ∧ cell = none
  answer : StepFails ω config path world → cell = none →
    ∀ ffi cPath, convertedConfig target ffi = some config → CStr.toStr cPath = some path →
      paper2InitLoggerFfi target cell ffi (some cPath) world todo = some (.ok false, none)
  unset : StepFails ω config path world → cell = none →
    (initLogger target cell config path world todo).2 = none
  later : StepFails ω config path world → cell = none → ∀ config' path' world',
    ¬ CapacityOverflows target config' → ¬ StepFails ω config' path' world' →
      ∃ s, initLogger target (initLogger target cell config path world todo).2 config' path' world'
        todo = (.ok (.ok s), some s)

/-- **Failures are reported exactly where there are none**: when the logger is set already, or the
queue can be allocated and no step fails. -/
theorem failureReported_iff :
    FailureReported target cell config path world todo ↔
      cell.isSome ∨ ¬ CapacityOverflows target config ∧ ¬ StepFails ω config path world := by
  have hpanics := initLogger_panics_iff target cell config path world todo
  have hcondition :
      cell.isSome ∨ ¬ CapacityOverflows target config ∧ ¬ StepFails ω config path world ↔
        ¬ (cell = none ∧ (CapacityOverflows target config ∨ StepFails ω config path world)) := by
    rw [not_and_or, not_or, Option.isSome_iff_ne_none]
  rw [hcondition, ← hpanics]
  constructor
  · intro h
    exact not_exists.mpr h.noPanic
  · intro hcalm
    have hnothing : StepFails ω config path world → cell = none → False := fun hfails hunset =>
      hcalm (hpanics.mpr ⟨hunset, .inr hfails⟩)
    refine ⟨not_exists.mp hcalm, ⟨?_, fun h => (hnothing h.1 h.2).elim⟩,
      fun hfails hunset => (hnothing hfails hunset).elim,
      fun hfails hunset => (hnothing hfails hunset).elim,
      fun hfails hunset => (hnothing hfails hunset).elim⟩
    rintro ⟨e, he⟩
    exact absurd he (initLogger_ne_error target cell config path world todo e)

end

/-! ## A read-only file system -/

/-- A file system on which nothing can be created. -/
structure ReadOnly where

/-- The error of all its operations. -/
def readOnlyError : IoError := "Read-only file system (os error 30)".toList

instance : FileIo ReadOnly Unit where
  createDirAll _ := fun w => .error readOnlyError w
  create _ := fun w => .error readOnlyError w
  writeAll _ := fun w => .error readOnlyError w
  flush := fun w => .error readOnlyError w
  drop w _ := w

/-- No logger yet, on that file system. -/
def unsetCell : Option (Sys ReadOnly Unit Unit) := none

/-- The first call on it panics, instead of returning the error it was given. -/
theorem readOnly_panics :
    (¬ ∀ (config : LoggerConfig) (path : PathBuf),
        FailureReported ⟨64, 136⟩ unsetCell config path ⟨⟩ fun _ => []) ∧
      (initLogger ⟨64, 136⟩ unsetCell .default "./logs/paper.log".toList ⟨⟩ fun _ => []).1 =
        .error (.unableToCreate (.ioSpecificError readOnlyError
          (some "Unable to make logging directory for contexts".toList)
          LoggerConfig.default.contextLogPath)) := by
  have hpanic : (initLogger ⟨64, 136⟩ unsetCell .default "./logs/paper.log".toList ⟨⟩
      fun _ => []).1 = .error (.unableToCreate (.ioSpecificError readOnlyError
        (some "Unable to make logging directory for contexts".toList)
        LoggerConfig.default.contextLogPath)) := by
    rw [unsetCell, initLogger_none, create, if_neg (by decide)]
    rfl
  exact ⟨fun hall => (hall .default "./logs/paper.log".toList).noPanic _ hpanic, hpanic⟩

end GlobalLogger

end Paperlog
