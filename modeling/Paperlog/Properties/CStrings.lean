import Paperlog.Model.GlobalLogger
import Paperlog.Model.Scenario

/-!
# Which strings cross the C interface unchanged

`Reads` says how the decoder of C strings takes bytes apart: into the encodings of characters and
into pieces that encode nothing, one error each (`reads_decode`).  So `to_str` accepts exactly the
encodings of strings (`toStr_eq_some_iff`), and `to_string_lossy` changes everything else
(`utf8_toStringLossy_iff`).

For the exported functions this means: `paper2_queue_log_ffi` queues the bytes it is given exactly
when all four strings are UTF-8 (`queueLog_bytes_iff`), and `paper2_get_log_directory` never panics on
a logger set up through the C interface and gives back the path of its configuration, as
`to_string_lossy` reads it (`getLogDirectory_run`).
-/

namespace Paperlog

namespace CStr

open String (utf8EncodeChar)

/-! ## Encodings of two to four bytes -/

theorem val_ofNat {v : ℕ} (h : v.isValidChar) : (Char.ofNat v).val.toNat = v := by
  rw [Char.ofNat, dif_pos h]
  rfl

theorem ofNat_eq {n : ℕ} {b : UInt8} (h : n = b.toNat) : UInt8.ofNat n = b := by
  rw [h, UInt8.ofNat_toNat]

/-- A byte that carries a sequence on. -/
def Continues (b : UInt8) : Prop := 0x80 ≤ b.toNat ∧ b.toNat ≤ 0xBF

theorem utf8EncodeChar_one {b : UInt8} (hb : b.toNat < 0x80) :
    utf8EncodeChar (Char.ofNat b.toNat) = [b] := by
  have hvalid : b.toNat.isValidChar := .inl (by omega)
  rw [utf8EncodeChar, val_ofNat hvalid, if_pos (by omega), ofNat_eq rfl]

theorem utf8EncodeChar_two {b c : UInt8} (hb : 0xC2 ≤ b.toNat ∧ b.toNat < 0xE0) (hc : Continues c) :
    utf8EncodeChar (Char.ofNat ((b.toNat - 0xC0) * 64 + (c.toNat - 0x80))) = [b, c] := by
  obtain ⟨hc₁, hc₂⟩ := hc
  have hvalid : ((b.toNat - 0xC0) * 64 + (c.toNat - 0x80)).isValidChar := .inl (by omega)
  rw [utf8EncodeChar, val_ofNat hvalid, if_neg (by omega), if_pos (by omega)]
  rw [ofNat_eq (b := b) (by omega), ofNat_eq (b := c) (by omega)]

theorem utf8EncodeChar_three {b c d : UInt8} (hb : 0xE0 ≤ b.toNat ∧ b.toNat < 0xF0)
    (hc : Continues c) (hlong : b.toNat = 0xE0 → 0xA0 ≤ c.toNat)
    (hsurrogate : b.toNat = 0xED → c.toNat ≤ 0x9F) (hd : Continues d) :
    utf8EncodeChar (Char.ofNat
      (((b.toNat - 0xE0) * 64 + (c.toNat - 0x80)) * 64 + (d.toNat - 0x80))) = [b, c, d] := by
  obtain ⟨hc₁, hc₂⟩ := hc
  obtain ⟨hd₁, hd₂⟩ := hd
  have hvalid :
      (((b.toNat - 0xE0) * 64 + (c.toNat - 0x80)) * 64 + (d.toNat - 0x80)).isValidChar := by
    by_cases hbelow : b.toNat ≤ 0xED
    · exact .inl (by omega)
    · exact .inr (by omega)
  rw [utf8EncodeChar, val_ofNat hvalid, if_neg (by omega), if_neg (by omega), if_pos (by omega)]
  rw [ofNat_eq (b := b) (by omega), ofNat_eq (b := c) (by omega), ofNat_eq (b := d) (by omega)]

theorem utf8EncodeChar_four {b c d e : UInt8} (hb : 0xF0 ≤ b.toNat ∧ b.toNat < 0xF5)
    (hc : Continues c) (hlong : b.toNat = 0xF0 → 0x90 ≤ c.toNat)
    (hlast : b.toNat = 0xF4 → c.toNat ≤ 0x8F) (hd : Continues d) (he : Continues e) :
    utf8EncodeChar (Char.ofNat
      ((((b.toNat - 0xF0) * 64 + (c.toNat - 0x80)) * 64 + (d.toNat - 0x80)) * 64 +
        (e.toNat - 0x80))) = [b, c, d, e] := by
  obtain ⟨hc₁, hc₂⟩ := hc
  obtain ⟨hd₁, hd₂⟩ := hd
  obtain ⟨he₁, he₂⟩ := he
  have hvalid : ((((b.toNat - 0xF0) * 64 + (c.toNat - 0x80)) * 64 + (d.toNat - 0x80)) * 64 +
      (e.toNat - 0x80)).isValidChar := .inr (by omega)
  rw [utf8EncodeChar, val_ofNat hvalid, if_neg (by omega), if_neg (by omega), if_neg (by omega)]
  rw [ofNat_eq (b := b) (by omega), ofNat_eq (b := c) (by omega), ofNat_eq (b := d) (by omega),
    ofNat_eq (b := e) (by omega)]

/-! ## How the decoder takes bytes apart -/

/-- The bytes that have brought the decoder to a pending sequence. -/
inductive Begun : Bytes → Pending → Prop
  | two {b} (hb : 0xC2 ≤ b.toNat ∧ b.toNat < 0xE0) : Begun [b] ⟨b.toNat - 0xC0, 1, 0x80, 0xBF⟩
  | three {b} (hb : 0xE0 ≤ b.toNat ∧ b.toNat < 0xF0) :
      Begun [b] ⟨b.toNat - 0xE0, 2, if b = 0xE0 then 0xA0 else 0x80, if b = 0xED then 0x9F else 0xBF⟩
  | threeMore {b c} (hb : 0xE0 ≤ b.toNat ∧ b.toNat < 0xF0) (hc : Continues c)
      (hlong : b.toNat = 0xE0 → 0xA0 ≤ c.toNat) (hsurrogate : b.toNat = 0xED → c.toNat ≤ 0x9F) :
      Begun [b, c] ⟨(b.toNat - 0xE0) * 64 + (c.toNat - 0x80), 1, 0x80, 0xBF⟩
  | four {b} (hb : 0xF0 ≤ b.toNat ∧ b.toNat < 0xF5) :
      Begun [b] ⟨b.toNat - 0xF0, 3, if b = 0xF0 then 0x90 else 0x80, if b = 0xF4 then 0x8F else 0xBF⟩
  | fourMore {b c} (hb : 0xF0 ≤ b.toNat ∧ b.toNat < 0xF5) (hc : Continues c)
      (hlong : b.toNat = 0xF0 → 0x90 ≤ c.toNat) (hlast : b.toNat = 0xF4 → c.toNat ≤ 0x8F) :
      Begun [b, c] ⟨(b.toNat - 0xF0) * 64 + (c.toNat - 0x80), 2, 0x80, 0xBF⟩
  | fourMost {b c d} (hb : 0xF0 ≤ b.toNat ∧ b.toNat < 0xF5) (hc : Continues c)
      (hlong : b.toNat = 0xF0 → 0x90 ≤ c.toNat) (hlast : b.toNat = 0xF4 → c.toNat ≤ 0x8F)
      (hd : Continues d) :
      Begun [b, c, d]
        ⟨((b.toNat - 0xF0) * 64 + (c.toNat - 0x80)) * 64 + (d.toNat - 0x80), 1, 0x80, 0xBF⟩

/-- The characters and errors (`none`) that the bytes are taken apart into. -/
inductive Reads : List (Option Char) → Bytes → Prop
  | nil : Reads [] []
  | char (c : Char) {chars bytes} (h : Reads chars bytes) :
      Reads (some c :: chars) (utf8EncodeChar c ++ bytes)
  | error {broken : Bytes} (hne : broken ≠ []) {chars bytes} (h : Reads chars bytes) :
      Reads (none :: chars) (broken ++ bytes)

theorem begun_of_lead {b : UInt8} {p : Pending} (h : lead b = some (.inr p)) : Begun [b] p := by
  unfold lead at h
  simp only [UInt8.lt_iff_toNat_lt, UInt8.reduceToNat] at h
  split at h
  · cases h
  · split at h
    · cases h
    · split at h
      · obtain rfl := Sum.inr.inj (Option.some.inj h)
        exact .two (by omega)
      · split at h
        · obtain rfl := Sum.inr.inj (Option.some.inj h)
          exact .three (by omega)
        · split at h
          · obtain rfl := Sum.inr.inj (Option.some.inj h)
            exact .four (by omega)
          · cases h

theorem utf8EncodeChar_of_lead {b : UInt8} {c : Char} (h : lead b = some (.inl c)) :
    utf8EncodeChar c = [b] := by
  unfold lead at h
  simp only [UInt8.lt_iff_toNat_lt, UInt8.reduceToNat] at h
  split at h
  · cases h
    exact utf8EncodeChar_one (by assumption)
  · split at h
    · cases h
    · split at h
      · cases h
      · split at h
        · cases h
        · split at h <;> cases h

theorem Begun.ne_nil {begun : Bytes} {p : Pending} (h : Begun begun p) : begun ≠ [] := by
  cases h <;> exact List.cons_ne_nil _ _

/-- A byte in the range completes the character or carries the sequence on. -/
theorem Begun.feed {begun : Bytes} {p : Pending} {b : UInt8} (h : Begun begun p)
    (hb : p.lower ≤ b ∧ b ≤ p.upper) :
    (p.toCome = 1 ∧
      utf8EncodeChar (Char.ofNat (p.value * 64 + (b.toNat - 0x80))) = begun ++ [b]) ∨
    (p.toCome ≠ 1 ∧
      Begun (begun ++ [b]) ⟨p.value * 64 + (b.toNat - 0x80), p.toCome - 1, 0x80, 0xBF⟩) := by
  obtain ⟨hlower, hupper⟩ := hb
  rw [UInt8.le_iff_toNat_le] at hlower hupper
  cases h with
  | two hlead => exact .inl ⟨rfl, utf8EncodeChar_two hlead ⟨hlower, hupper⟩⟩
  | @three c hlead =>
      -- The bounds of the second byte depend on the first.
      have hlong : c.toNat = 0xE0 → 0xA0 ≤ b.toNat := by
        intro hc
        have hlead : c = 0xE0 := UInt8.toNat_inj.1 hc
        rwa [if_pos hlead] at hlower
      have hsurrogate : c.toNat = 0xED → b.toNat ≤ 0x9F := by
        intro hc
        have hlead : c = 0xED := UInt8.toNat_inj.1 hc
        rwa [if_pos hlead] at hupper
      have hcontinues : Continues b := by
        dsimp only at hlower hupper
        constructor
        · split at hlower
          · exact le_trans (by decide) hlower
          · exact hlower
        · split at hupper
          · exact hupper.trans (by decide)
          · exact hupper
      exact .inr ⟨nofun, .threeMore hlead hcontinues hlong hsurrogate⟩
  | threeMore hlead hc hlong hsurrogate =>
      exact .inl ⟨rfl, utf8EncodeChar_three hlead hc hlong hsurrogate ⟨hlower, hupper⟩⟩
  | @four c hlead =>
      have hlong : c.toNat = 0xF0 → 0x90 ≤ b.toNat := by
        intro hc
        have hlead : c = 0xF0 := UInt8.toNat_inj.1 hc
        rwa [if_pos hlead] at hlower
      have hlast : c.toNat = 0xF4 → b.toNat ≤ 0x8F := by
        intro hc
        have hlead : c = 0xF4 := UInt8.toNat_inj.1 hc
        rwa [if_pos hlead] at hupper
      have hcontinues : Continues b := by
        dsimp only at hlower hupper
        constructor
        · split at hlower
          · exact le_trans (by decide) hlower
          · exact hlower
        · split at hupper
          · exact hupper.trans (by decide)
          · exact hupper
      exact .inr ⟨nofun, .fourMore hlead hcontinues hlong hlast⟩
  | fourMore hlead hc hlong hlast =>
      exact .inr ⟨nofun, .fourMost hlead hc hlong hlast ⟨hlower, hupper⟩⟩
  | fourMost hlead hc hlong hlast hd =>
      exact .inl ⟨rfl, utf8EncodeChar_four hlead hc hlong hlast hd ⟨hlower, hupper⟩⟩

/-- One step at a leading byte, in front of what is read of the rest. -/
theorem reads_start {b : UInt8} {bytes : Bytes} (hnone : Reads (decode none bytes) bytes)
    (hsome : ∀ begun p, Begun begun p → Reads (decode (some p) bytes) (begun ++ bytes)) :
    Reads ((start b).1 ++ decode (start b).2 bytes) (b :: bytes) := by
  unfold start
  cases hlead : lead b with
  | none => exact .error (List.cons_ne_nil b []) hnone
  | some first =>
      cases first with
      | inl c =>
          have hencoded := utf8EncodeChar_of_lead hlead
          have hreads := Reads.char c hnone
          rwa [hencoded] at hreads
      | inr p => exact hsome [b] p (begun_of_lead hlead)

/-- **How the decoder reads**, with or without a sequence under way. -/
theorem reads_decode_of_begun (bytes : Bytes) : Reads (decode none bytes) bytes ∧
    ∀ begun p, Begun begun p → Reads (decode (some p) bytes) (begun ++ bytes) := by
  induction bytes with
  | nil =>
      refine ⟨.nil, fun begun p hbegun => ?_⟩
      have hreads := Reads.error hbegun.ne_nil .nil
      exact hreads
  | cons b bytes ih =>
      obtain ⟨hnone, hsome⟩ := ih
      refine ⟨reads_start hnone hsome, fun begun p hbegun => ?_⟩
      rw [decode, CStr.feed]
      split
      · rename_i hrange
        rw [show begun ++ b :: bytes = (begun ++ [b]) ++ bytes by simp]
        rcases hbegun.feed hrange with ⟨hlast, hencoded⟩ | ⟨hmore, hbegun'⟩
        · simp only [if_pos hlast]
          rw [← hencoded]
          exact .char _ hnone
        · simp only [if_neg hmore]
          exact hsome _ _ hbegun'
      · exact .error hbegun.ne_nil (reads_start hnone hsome)

theorem reads_decode (bytes : Bytes) : Reads (decode none bytes) bytes :=
  (reads_decode_of_begun bytes).1

/-! ## What decoding keeps -/

/-- Where there is no error, the bytes are the encoding of the characters. -/
theorem Reads.utf8_eq {s : Str} {bytes : Bytes} (h : Reads (s.map some) bytes) : s.utf8 = bytes := by
  induction s generalizing bytes with
  | nil =>
      cases h
      rfl
  | cons c s ih =>
      cases h with
      | char _ hrest => rw [Str.utf8, List.flatMap_cons, ← ih hrest, Str.utf8]

/-- No character is U+0000 unless there is a byte zero. -/
theorem Reads.zero_mem {chars : List (Option Char)} {bytes : Bytes} (h : Reads chars bytes)
    (hzero : some (Char.ofNat 0) ∈ chars) : 0 ∈ bytes := by
  induction h with
  | nil => exact absurd hzero List.not_mem_nil
  | char c hrest ih =>
      rcases List.mem_cons.1 hzero with heq | hmem
      · rw [← Option.some.inj heq]
        exact List.mem_append_left _ (by decide)
      · exact List.mem_append_right _ (ih hmem)
  | error hne hrest ih =>
      rcases List.mem_cons.1 hzero with heq | hmem
      · cases heq
      · exact List.mem_append_right _ (ih hmem)

theorem mapM_id_eq_some_iff {α : Type} {l : List (Option α)} {l' : List α} :
    l.mapM id = some l' ↔ l = l'.map some := by
  induction l generalizing l' with
  | nil => cases l' <;> simp
  | cons a l ih =>
      rw [List.mapM_cons, Option.bind_eq_bind, Option.bind_eq_some_iff]
      constructor
      · rintro ⟨a', rfl, hrest⟩
        obtain ⟨rest, hl, heq⟩ := Option.bind_eq_some_iff.1 hrest
        rw [← Option.some.inj heq, List.map_cons, ih.1 hl]
      · intro h
        cases l' with
        | nil => cases h
        | cons a' l' =>
            obtain ⟨rfl, hl⟩ := List.cons.inj h
            exact ⟨a', rfl, Option.bind_eq_some_iff.2 ⟨l', ih.2 hl, rfl⟩⟩

/-- **`to_str` accepts the encodings of strings, and nothing else.** -/
theorem toStr_eq_some_iff {bytes : Bytes} {s : Str} : toStr bytes = some s ↔ bytes = s.utf8 := by
  constructor
  · intro h
    have hchars := mapM_id_eq_some_iff.1 h
    have hreads := reads_decode bytes
    rw [hchars] at hreads
    exact hreads.utf8_eq.symm
  · rintro rfl
    exact toStr_utf8 s

/-- The bytes are UTF-8. -/
def Utf8 (bytes : Bytes) : Prop := ∃ s : Str, bytes = s.utf8

/-- **`to_string_lossy` loses nothing exactly of what is UTF-8.** -/
theorem utf8_toStringLossy_iff {bytes : Bytes} : (toStringLossy bytes).utf8 = bytes ↔ Utf8 bytes := by
  constructor
  · intro h
    exact ⟨_, h.symm⟩
  · rintro ⟨s, rfl⟩
    rw [toStringLossy_utf8]

theorem nulFree_toStringLossy {bytes : Bytes} (h : 0 ∉ bytes) : (toStringLossy bytes).NulFree := by
  intro hzero
  obtain ⟨c, hc, hchar⟩ := List.mem_map.1 hzero
  cases c with
  | none => exact absurd hchar (by decide)
  | some c =>
      obtain rfl : c = Char.ofNat 0 := hchar
      exact h ((reads_decode bytes).zero_mem hc)

end CStr

/-! ## The exported functions -/

open CStr (Utf8 toStringLossy)
open GlobalLogger
open Transition (run)

variable {W ω Tid : Type}

/-- The strings of a record are, as UTF-8, the bytes the caller has passed. -/
structure SameBytes (log : LogData) (args : QueueLogArgs) : Prop where
  message : some log.message.utf8 = args.message
  file : some log.file.utf8 = args.file
  tag : log.tag.map Str.utf8 = args.tag
  functionName : log.functionName.map Str.utf8 = args.functionName

/-- All strings the caller has passed are UTF-8. -/
def QueueLogArgs.Utf8 (args : QueueLogArgs) : Prop :=
  (∀ b ∈ args.message, CStr.Utf8 b) ∧ (∀ b ∈ args.file, CStr.Utf8 b) ∧
    (∀ b ∈ args.tag, CStr.Utf8 b) ∧ ∀ b ∈ args.functionName, CStr.Utf8 b

theorem map_utf8_toStringLossy_iff (ptr : CStrPtr) :
    (ptr.map toStringLossy).map Str.utf8 = ptr ↔ ∀ b ∈ ptr, Utf8 b := by
  cases ptr with
  | none => simp
  | some b =>
      simp only [Option.map_some, Option.some.injEq, Option.mem_def, forall_eq']
      exact CStr.utf8_toStringLossy_iff

/-- **What `paper2_queue_log_ffi` queues.**  With a message and a file, on a running logger, it
queues one record, whose strings are byte for byte those passed exactly when these are UTF-8. -/
theorem queueLog_bytes_iff (s : Sys W ω Tid) {args : QueueLogArgs} (now : DateTime)
    (hmessage : args.message ≠ none) (hfile : args.file ≠ none) :
    ∃ log, paper2QueueLogFfi (some s) args now = (some (.paper2QueueLogFfi log), true) ∧
      (SameBytes log args ↔ args.Utf8) := by
  obtain ⟨message, hmessage⟩ := Option.ne_none_iff_exists'.1 hmessage
  obtain ⟨file, hfile⟩ := Option.ne_none_iff_exists'.1 hfile
  have hsame : ∀ {ptr : CStrPtr} {b : Bytes}, ptr = some b →
      (some (toStringLossy b).utf8 = ptr ↔ ∀ b ∈ ptr, Utf8 b) := by
    rintro ptr b rfl
    exact map_utf8_toStringLossy_iff (some b)
  unfold paper2QueueLogFfi
  rw [hmessage, hfile]
  refine ⟨_, rfl, ?_⟩
  constructor
  · intro h
    exact ⟨(hsame hmessage).1 h.message, (hsame hfile).1 h.file,
      (map_utf8_toStringLossy_iff _).1 h.tag, (map_utf8_toStringLossy_iff _).1 h.functionName⟩
  · rintro ⟨hmessage', hfile', htag, hname⟩
    exact ⟨(hsame hmessage).2 hmessage', (hsame hfile).2 hfile',
      (map_utf8_toStringLossy_iff _).2 htag, (map_utf8_toStringLossy_iff _).2 hname⟩

/-- The message ends in the middle of a character. -/
def brokenArgs : QueueLogArgs :=
  { level := .info, tag := none, message := some [0x61, 0xE2, 0x82], file := some [0x66]
    line := 1, column := 1, functionName := none }

theorem queueLog_bytes_iff_brokenArgs :
    ∃ log, paper2QueueLogFfi (some (Scenario.start .default fun _ : Unit => [])) brokenArgs
        Scenario.time = (some (.paper2QueueLogFfi log), true) ∧
      (SameBytes log brokenArgs ↔ brokenArgs.Utf8) :=
  queueLog_bytes_iff _ Scenario.time (by decide) (by decide)

variable [FileIo W ω]

/-- **Which paths `paper2_init_logger_ffi` refuses**: the null pointer and what is not UTF-8. -/
theorem init_refuses_iff {target : Target} {cell : Option (Sys W ω Tid)}
    {config : Option LoggerConfigFfi} {path : CStrPtr} {world : W} {todo : Tid → List Call} :
    paper2InitLoggerFfi target cell config path world todo = some (.ok false, cell) ↔
      ∀ b ∈ path, ¬ Utf8 b := by
  -- `init_logger` has no `Err` to answer with.
  have hgoes : ∀ config path,
      (initLogger target cell config path world todo).1.map Except.isOk ≠ .ok false := by
    intro config path h
    unfold initLogger at h
    dsimp only at h
    cases hres : (getOrInit cell fun _ => create target config path world todo).1 with
    | error p =>
        rw [hres] at h
        cases h
    | ok s =>
        rw [hres] at h
        cases h
  cases path with
  | none => simp [paper2InitLoggerFfi]
  | some b =>
      simp only [Option.mem_def, Option.some.injEq, forall_eq']
      cases hstr : CStr.toStr b with
      | none =>
          simp only [paper2InitLoggerFfi, hstr, true_iff]
          rintro ⟨s, hs⟩
          rw [CStr.toStr_eq_some_iff.2 hs] at hstr
          cases hstr
      | some s =>
          have hutf8 : Utf8 b := ⟨s, CStr.toStr_eq_some_iff.1 hstr⟩
          refine iff_of_false (fun h => ?_) (not_not_intro hutf8)
          simp only [paper2InitLoggerFfi, hstr] at h
          obtain ⟨converted, -, h⟩ := Option.bind_eq_some_iff.1 h
          exact hgoes converted s (congrArg Prod.fst (Option.some.inj h))

variable [DecidableEq Tid]

/-- The context path a configuration asks for; a null configuration is the default one. -/
def pathBytes (ffi : Option LoggerConfigFfi) : CStrPtr :=
  match ffi with
  | none => some LoggerConfig.default.contextLogPath.utf8
  | some ffi => ffi.contextLogPath

theorem contextLogPath_of_convertedConfig {target : Target} {ffi : Option LoggerConfigFfi}
    {config : LoggerConfig} {bytes : Bytes} (hconfig : convertedConfig target ffi = some config)
    (hbytes : pathBytes ffi = some bytes) : config.contextLogPath = toStringLossy bytes := by
  cases ffi with
  | none =>
      obtain rfl := Option.some.inj hconfig
      obtain rfl := Option.some.inj hbytes
      exact (CStr.toStringLossy_utf8 _).symm
  | some ffi =>
      obtain ⟨bytes', hbytes', rfl⟩ := Option.map_eq_some_iff.1 hconfig
      obtain rfl := Option.some.inj (hbytes'.symm.trans hbytes)
      rfl

/-- **What `paper2_get_log_directory` answers**, in every state of every run of a logger set up by
`paper2_init_logger_ffi`, once it has its read guard: it does not panic, and returns the path of the
configuration as `to_string_lossy` reads it, which is the same bytes exactly if they are UTF-8. -/
theorem getLogDirectory_run {target : Target} {ffi : Option LoggerConfigFfi} {path : CStrPtr}
    {world : W} {todo : Tid → List Call} {s₀ s : Sys W ω Tid} {as : List (Action Tid)}
    {bytes : Bytes}
    (hinit : paper2InitLoggerFfi target none ffi path world todo = some (.ok true, some s₀))
    (hbytes : pathBytes ffi = some bytes) (hnul : 0 ∉ bytes)
    (hrun : run Sys.step s₀ as = some s) :
    ∃ answer, paper2GetLogDirectory (some s) = .ok (some answer) ∧
      answer = (toStringLossy bytes).utf8 ∧ (answer = bytes ↔ Utf8 bytes) := by
  obtain ⟨cPath, logPath, config, -, -, hconfig, -, hboot⟩ := boot_of_paper2InitLoggerFfi hinit
  obtain ⟨w', globalFile, rfl⟩ := Sys.boot_ok hboot
  have hpath : s.ctx.config.contextLogPath = toStringLossy bytes := by
    rw [Sys.config_run hrun]
    exact contextLogPath_of_convertedConfig hconfig hbytes
  refine ⟨(toStringLossy bytes).utf8, ?_, rfl, CStr.utf8_toStringLossy_iff⟩
  simp only [paper2GetLogDirectory, hpath]
  rw [CString.new_of_nulFree (CStr.nulFree_toStringLossy hnul)]
  rfl

/-- A path in Latin-1. -/
def latinConfig : LoggerConfigFfi :=
  { maxStringLen := 1024, logMaxBufferCount := 100, lineEnd := 0x0A
    contextLogPath := some [0x6C, 0xF6, 0x67] }

theorem getLogDirectory_run_latinConfig :
    ∃ s : Sys (Disk Scenario.resolve) BufWriter Unit,
      paper2InitLoggerFfi ⟨64, 136⟩ none (some latinConfig) (some Scenario.logPath.utf8)
        Scenario.disk (fun _ => []) = some (.ok true, some s) ∧
      ∃ answer, paper2GetLogDirectory (some s) = .ok (some answer) ∧
        answer = (toStringLossy [0x6C, 0xF6, 0x67]).utf8 ∧
        (answer = [0x6C, 0xF6, 0x67] ↔ Utf8 [0x6C, 0xF6, 0x67]) := by
  have hcapacity : ¬ CapacityOverflows ⟨64, 136⟩
      ⟨1024, 100, '\n', toStringLossy [0x6C, 0xF6, 0x67]⟩ := by
    decide
  have hinit : paper2InitLoggerFfi ⟨64, 136⟩ none (some latinConfig) (some Scenario.logPath.utf8)
      Scenario.disk (fun _ : Unit => []) = some (.ok true, some _) :=
    paper2InitLoggerFfi_disk rfl hcapacity Scenario.logPath Scenario.disk fun _ : Unit => []
  exact ⟨_, hinit, getLogDirectory_run hinit rfl (by decide) (Transition.run_nil _)⟩

end Paperlog
