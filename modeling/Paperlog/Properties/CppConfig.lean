import Paperlog.Model.CppLogger
import Paperlog.Model.Scenario

/-!
# A C++ configuration

`Logger::Init` has no context path to pass on, and leaves that field of the C structure null.  The
conversion to a `LoggerConfig` does not ask: it reads the C string there.  So no configuration gets
through (`not_convertsFaithfully`), and every initialisation with one that comes so far reads from
null (`init_eq_none`).  The widths of the other fields are not the reason
(`toLoggerConfig_of_path`).
-/

namespace Paperlog

namespace Paper

/-- **A faithful conversion**: the structure meets the precondition of `From<LoggerConfigFfi>`, and
what it is converted to has the values of the C++ configuration. -/
structure ConvertsFaithfully (bits : ℕ) (config : LoggerConfig) : Prop where
  path_ne_null : config.configFfi.contextLogPath ≠ none
  converted : ∃ rust, config.configFfi.toLoggerConfig bits = some rust ∧
    rust.maxStringLen = config.maxStringLen.toNat ∧
    rust.logMaxBufferCount = config.logMaxBufferCount.toNat ∧
    rust.lineEnd.toNat = config.lineEnd.toNat

/-- **No C++ configuration is converted.** -/
theorem not_convertsFaithfully (bits : ℕ) (config : LoggerConfig) :
    ¬ ConvertsFaithfully bits config := by
  intro h
  exact h.path_ne_null rfl

/-- With a path in its place the conversion is faithful in all else, whatever the width of a
`usize`. -/
theorem toLoggerConfig_of_path {bits : ℕ} (hbits : 32 ≤ bits) (config : LoggerConfig) (path : Str) :
    ∃ rust, { config.configFfi with contextLogPath := some path.utf8 }.toLoggerConfig bits =
        some rust ∧
      rust.maxStringLen = config.maxStringLen.toNat ∧
      rust.logMaxBufferCount = config.logMaxBufferCount.toNat ∧
      rust.lineEnd.toNat = config.lineEnd.toNat ∧ rust.contextLogPath = path := by
  have hbound : 2 ^ 32 ≤ 2 ^ bits := Nat.pow_le_pow_right (by omega) hbits
  have hlen : config.maxStringLen.toNat < 2 ^ 32 := config.maxStringLen.toNat_lt
  have hcount : config.logMaxBufferCount.toNat < 2 ^ 16 := config.logMaxBufferCount.toNat_lt
  have hline : config.lineEnd.toNat < 2 ^ 8 := config.lineEnd.toNat_lt
  refine ⟨_, rfl, ?_, ?_, ?_, CStr.toStringLossy_utf8 path⟩
  · show config.maxStringLen.toUInt64.toNat % 2 ^ bits = _
    rw [UInt32.toNat_toUInt64, Nat.mod_eq_of_lt (by omega)]
  · show config.logMaxBufferCount.toUInt64.toNat % 2 ^ bits = _
    rw [UInt16.toNat_toUInt64, Nat.mod_eq_of_lt (by omega)]
  · show (Char.ofNat config.lineEnd.toNat).toNat = _
    rw [Char.ofNat, dif_pos (.inl (by omega))]
    rfl

variable {W ω Tid : Type} [FileIo W ω] (target : GlobalLogger.Target)
  (cell : Option (Sys W ω Tid)) {logPath : StringView} (config : LoggerConfig) (world : W)
  (todo : Tid → List Call)

/-- With a log path that is a C string in UTF-8, the null pointer is read. -/
theorem init_eq_none {bytes : Bytes} {path : Str}
    (hdata : CStr.ofCharPtr logPath.data = some (some bytes))
    (hpath : CStr.toStr bytes = some path) :
    init target cell logPath config world todo = none := by
  simp [init, hdata, GlobalLogger.paper2InitLoggerFfi, hpath, GlobalLogger.convertedConfig,
    LoggerConfigFfi.toLoggerConfig, LoggerConfig.configFfi]

/-- The default configuration, with a log path that is in order. -/
theorem default_undefined :
    (¬ ∀ bits config, ConvertsFaithfully bits config) ∧
      (init ⟨64, 136⟩ (none : Option (Sys (Disk Scenario.resolve) BufWriter Unit))
        (.ofCString (Str.utf8 Scenario.logPath)) .default Scenario.disk fun _ => []).isNone =
          true := by
  refine ⟨fun hall => (hall 64 .default).path_ne_null rfl, ?_⟩
  have hdata : CStr.ofCharPtr (StringView.ofCString (Str.utf8 Scenario.logPath)).data =
      some (some (Str.utf8 Scenario.logPath)) := by decide +kernel
  rw [init_eq_none _ _ _ _ _ hdata (CStr.toStr_utf8 _)]
  rfl

end Paper

end Paperlog
