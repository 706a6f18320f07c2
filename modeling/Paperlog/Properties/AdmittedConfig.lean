import Paperlog.Model.GlobalLogger
import Paperlog.Model.Scenario
import Paperlog.Properties.Failure

/-!
# Which configurations can log

`max_string_len` comes through the C interface as 64 bits, is cut to a `usize`, and reaches
`Itertools::chunks` on the logging thread without having been looked at.  If nothing of it is left,
the first batch makes the thread panic, past the error branch.  `admitted_panicFree_iff` is exact:
the thread panics in a run if and only if it splits a batch with such a limit.  The build is the one
of `Sys`; the other panic a record can cause, in the logcat backend, is in `Failure`.
-/

namespace Paperlog

/-- What `as usize` leaves is zero for the multiples of `2 ^ bits`. -/
theorem asUsize_eq_zero {bits : ℕ} {n : UInt64} : asUsize bits n = 0 ↔ 2 ^ bits ∣ n.toNat :=
  (Nat.dvd_iff_mod_eq_zero).symm

namespace Sys

open Transition GlobalLogger

/-- The step splits no batch, or an empty one, or the limit is not zero as a `usize`. -/
def LimitRemains (bits : ℕ) (ffi : LoggerConfigFfi) {W ω Tid : Type} (s : Sys W ω Tid)
    (a : Action Tid) : Prop :=
  ∀ result now queue, a = .logThread result now → s.logThread.pc = .reading (.config queue) →
    queue = [] ∨ asUsize bits ffi.maxStringLen ≠ 0

section

variable {W ω Tid : Type}

/-- The limit is what the conversion left of it, and the thread has not panicked. -/
def PanicFree (limit : ℕ) (s : Sys W ω Tid) : Prop :=
  s.ctx.config.maxStringLen = limit ∧ s.logThread.pc ≠ .terminated none

variable [FileIo W ω] {target : Target} {ffi : LoggerConfigFfi} {path : CStrPtr} {world : W}
  {todo : Tid → List Call} {s₀ s s' : Sys W ω Tid}

theorem panicFree_init
    (hinit : paper2InitLoggerFfi target none (some ffi) path world todo =
      some (.ok true, some s₀)) :
    PanicFree (asUsize target.bits ffi.maxStringLen) s₀ := by
  obtain ⟨bytes, logPath, config, -, -, hconfig, -, hboot⟩ := boot_of_paper2InitLoggerFfi hinit
  obtain ⟨contextLogPath, -, rfl⟩ := Option.map_eq_some_iff.1 hconfig
  obtain ⟨w', globalFile, rfl⟩ := boot_ok hboot
  exact ⟨rfl, nofun⟩

variable [DecidableEq Tid]

theorem panicFree_step {bits : ℕ} {a : Action Tid}
    (h : PanicFree (asUsize bits ffi.maxStringLen) s) (hremains : LimitRemains bits ffi s a)
    (hstep : s.step a = some s') : PanicFree (asUsize bits ffi.maxStringLen) s' := by
  refine ⟨by rw [config_step hstep, h.1], noPanic_of_split h.2 ?_ hstep⟩
  rw [h.1]
  exact hremains

/-- **The admitted configurations that can log.**  After a call of `paper2_init_logger_ffi` that
answers `true`, the logging thread never panics in a run exactly when no step of it splits a
nonempty batch with a limit that is zero as a `usize`. -/
theorem admitted_panicFree_iff {as : List (Action Tid)}
    (hinit : paper2InitLoggerFfi target none (some ffi) path world todo = some (.ok true, some s₀))
    (hrun : run step s₀ as = some s) :
    Always step (fun r => r.logThread.pc ≠ .terminated none) s₀ as ↔
      StepsMeet step (LimitRemains target.bits ffi) s₀ as := by
  refine always_iff_stepsMeet (fun _ h => And.right h)
    (fun _ _ _ h hremains hstep => panicFree_step h hremains hstep) ?_ (panicFree_init hinit) hrun
  intro r a r' h hgone hstep hfine
  simp only [LimitRemains, not_forall, not_or, not_not] at hgone
  obtain ⟨result, now, queue, rfl, hpc, hqueue, hzero⟩ := hgone
  exact hfine (panic_of_split hpc hqueue (h.1.trans hzero) hstep)

end

/-- A configuration as a C caller fills it in, with the limit open. -/
def ffiConfig (maxStringLen : UInt64) : LoggerConfigFfi :=
  ⟨maxStringLen, 100, 10, some (Str.utf8 "./logs".toList)⟩

/-- What it is converted to. -/
def converted (bits : ℕ) (maxStringLen : UInt64) : LoggerConfig :=
  { LoggerConfig.default with
    maxStringLen := asUsize bits maxStringLen, logMaxBufferCount := asUsize bits 100 }

theorem convertedConfig_ffiConfig (target : Target) (maxStringLen : UInt64) :
    convertedConfig target (some (ffiConfig maxStringLen)) =
      some (converted target.bits maxStringLen) := by
  simp only [convertedConfig, ffiConfig, LoggerConfigFfi.toLoggerConfig, Option.map_some,
    CStr.toStringLossy_utf8]
  rfl

/-- One entry is queued. -/
def oneLog : Unit → List Call := fun _ => [.paper2QueueLogFfi (Scenario.log "a")]

/-- The configuration with this limit is admitted, and the first entry kills the thread. -/
def FirstEntryPanics (target : Target) (limit : UInt64) : Prop :=
  ∃ s₀ s : Sys (Disk Scenario.resolve) BufWriter Unit,
    paper2InitLoggerFfi target none (some (ffiConfig limit)) (some (Str.utf8 Scenario.logPath))
      Scenario.disk oneLog = some (.ok true, some s₀) ∧
    run step s₀ (Scenario.callerSteps () 5 ++ Scenario.logThreadSteps 3) = some s ∧
    s.logThread.pc = .terminated none

theorem firstEntryPanics_of_run {target : Target} {limit : UInt64}
    (hcapacity : ¬ CapacityOverflows target (converted target.bits limit))
    (h : (run step (Scenario.start (converted target.bits limit) oneLog)
      (Scenario.callerSteps () 5 ++ Scenario.logThreadSteps 3)).map (fun s => s.logThread.pc) =
        some (.terminated none)) : FirstEntryPanics target limit := by
  obtain ⟨s, hrun, hpanic⟩ := Option.map_eq_some_iff.1 h
  exact ⟨_, s, paper2InitLoggerFfi_disk (convertedConfig_ffiConfig target limit) hcapacity _ _ _,
    hrun, hpanic⟩

/-- Limit `0`, and limit `2 ^ 32` where a `usize` has 32 bits. -/
theorem zeroLimit_panics :
    FirstEntryPanics ⟨64, 136⟩ 0 ∧ FirstEntryPanics ⟨32, 80⟩ 4294967296 := by
  constructor
  · apply firstEntryPanics_of_run
    · decide +kernel
    · decide +kernel
  · apply firstEntryPanics_of_run
    · decide +kernel
    · decide +kernel

/-- With a limit of `1024` the same entry is written and flushed. -/
theorem admitted_panicFree_iff_oneLog :
    Always step (fun r : Sys (Disk Scenario.resolve) BufWriter Unit =>
      r.logThread.pc ≠ .terminated none)
        (Scenario.start (converted 64 1024) oneLog)
        (Scenario.callerSteps () 5 ++ Scenario.logThreadSteps 13) ↔
      StepsMeet step (LimitRemains 64 (ffiConfig 1024)) (Scenario.start (converted 64 1024) oneLog)
        (Scenario.callerSteps () 5 ++ Scenario.logThreadSteps 13) := by
  have hsome : (run step (Scenario.start (converted 64 1024) oneLog)
      (Scenario.callerSteps () 5 ++ Scenario.logThreadSteps 13)).isSome := by
    decide +kernel
  obtain ⟨s, hrun⟩ := Option.isSome_iff_exists.1 hsome
  have hcapacity : ¬ CapacityOverflows ⟨64, 136⟩ (converted 64 1024) := by decide +kernel
  exact admitted_panicFree_iff
    (paper2InitLoggerFfi_disk (convertedConfig_ffiConfig ⟨64, 136⟩ 1024) hcapacity
      Scenario.logPath Scenario.disk oneLog) hrun

end Sys

end Paperlog
