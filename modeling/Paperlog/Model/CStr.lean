import Paperlog.Model.LogData

/-!
# C strings and their decoding

What crosses the C ABI as `*const c_char` is a null pointer or the bytes up to the terminating NUL.
`CStr::to_str` and `to_string_lossy` decode those bytes as UTF-8, as `std` documents it: a byte that
cannot continue the sequence under way ends it, the bytes of the broken sequence count as one error,
and the offending byte is looked at again as the start of the next one.  `to_str` fails at the first
error; `to_string_lossy` puts one replacement character in the place of each.
-/

namespace Paperlog

/-- A `*const c_char` that is null or points to a C string, given by its bytes before the NUL. -/
abbrev CStrPtr := Option Bytes

namespace CStr

/-- A sequence that has begun: the bits read so far, the number of bytes still to come, and the
range the next of them must lie in. -/
structure Pending where
  value : ℕ
  toCome : ℕ
  lower : UInt8
  upper : UInt8

/-- What a leading byte begins: a whole character, a sequence, or (`none`) nothing. -/
def lead (b : UInt8) : Option (Char ⊕ Pending) :=
  if b < 0x80 then some (.inl (Char.ofNat b.toNat))
  else if b < 0xC2 then none
  else if b < 0xE0 then some (.inr ⟨b.toNat - 0xC0, 1, 0x80, 0xBF⟩)
  else if b < 0xF0 then
    -- Neither overlong sequences nor surrogates.
    some (.inr ⟨b.toNat - 0xE0, 2, if b = 0xE0 then 0xA0 else 0x80, if b = 0xED then 0x9F else 0xBF⟩)
  else if b < 0xF5 then
    some (.inr ⟨b.toNat - 0xF0, 3, if b = 0xF0 then 0x90 else 0x80, if b = 0xF4 then 0x8F else 0xBF⟩)
  else none

/-- One step at a leading byte: the characters and errors it completes, and what is pending. -/
def start (b : UInt8) : List (Option Char) × Option Pending :=
  match lead b with
  | none => ([none], none)
  | some (.inl c) => ([some c], none)
  | some (.inr pending) => ([], some pending)

/-- One step at any byte. -/
def feed : Option Pending → UInt8 → List (Option Char) × Option Pending
  | none, b => start b
  | some p, b =>
      if p.lower ≤ b ∧ b ≤ p.upper then
        let value := p.value * 64 + (b.toNat - 0x80)
        if p.toCome = 1 then ([some (Char.ofNat value)], none)
        else ([], some ⟨value, p.toCome - 1, 0x80, 0xBF⟩)
      else ((none :: (start b).1), (start b).2)

/-- The characters of a byte sequence, and `none` for each error. -/
def decode : Option Pending → Bytes → List (Option Char)
  | none, [] => []
  | some _, [] => [none]
  | pending, b :: bytes => (feed pending b).1 ++ decode (feed pending b).2 bytes

/-- `CStr::to_str`. -/
def toStr (bytes : Bytes) : Option Str := (decode none bytes).mapM id

/-- `CStr::to_string_lossy`. -/
def toStringLossy (bytes : Bytes) : Str :=
  (decode none bytes).map fun c => c.getD (Char.ofNat 0xFFFD)

example : toStringLossy [0x61, 0xE2, 0x82, 0xAC, 0xE2, 0x82, 0x61, 0xFF] =
    ['a', '€', Char.ofNat 0xFFFD, 'a', Char.ofNat 0xFFFD] := by decide

/-! ## What was encoded is decoded -/

/-- `lead`, on the value of the byte. -/
theorem lead_ofNat {n : ℕ} (hn : n < 256) :
    lead (.ofNat n) =
      if n < 0x80 then some (.inl (Char.ofNat n))
      else if n < 0xC2 then none
      else if n < 0xE0 then some (.inr ⟨n - 0xC0, 1, 0x80, 0xBF⟩)
      else if n < 0xF0 then
        some (.inr ⟨n - 0xE0, 2, if n = 0xE0 then 0xA0 else 0x80, if n = 0xED then 0x9F else 0xBF⟩)
      else if n < 0xF5 then
        some (.inr ⟨n - 0xF0, 3, if n = 0xF0 then 0x90 else 0x80, if n = 0xF4 then 0x8F else 0xBF⟩)
      else none := by
  have hbyte : (UInt8.ofNat n).toNat = n := UInt8.toNat_ofNat_of_lt' hn
  simp only [lead, UInt8.lt_iff_toNat_lt, ← UInt8.toNat_inj, hbyte]
  rfl

/-- A byte that begins a sequence leaves it pending. -/
theorem decode_lead {b : UInt8} {p : Pending} (h : lead b = some (.inr p)) (bytes : Bytes) :
    decode none (b :: bytes) = decode (some p) bytes := by
  simp [decode, feed, start, h]

section

variable {value toCome n : ℕ} {lower upper : UInt8} (hn : n < 256) (hlower : lower.toNat ≤ n)
  (hupper : n ≤ upper.toNat) (bytes : Bytes)

include hn hlower hupper

theorem inRange : lower ≤ .ofNat n ∧ .ofNat n ≤ upper := by
  rw [UInt8.le_iff_toNat_le, UInt8.le_iff_toNat_le, UInt8.toNat_ofNat_of_lt' hn]
  exact ⟨hlower, hupper⟩

/-- The last byte of a sequence completes its character. -/
theorem decode_last : decode (some ⟨value, 1, lower, upper⟩) (.ofNat n :: bytes) =
    some (Char.ofNat (value * 64 + (n - 0x80))) :: decode none bytes := by
  simp [decode, feed, inRange hn hlower hupper, UInt8.toNat_ofNat_of_lt' hn]

/-- The others carry it on. -/
theorem decode_more : decode (some ⟨value, toCome + 2, lower, upper⟩) (.ofNat n :: bytes) =
    decode (some ⟨value * 64 + (n - 0x80), toCome + 1, 0x80, 0xBF⟩) bytes := by
  simp [decode, feed, inRange hn hlower hupper, UInt8.toNat_ofNat_of_lt' hn]

end

/-- The bytes of one character are read back as that character. -/
theorem decode_utf8EncodeChar (c : Char) (bytes : Bytes) :
    decode none (String.utf8EncodeChar c ++ bytes) = some c :: decode none bytes := by
  have hvalid : c.toNat < 0xD800 ∨ 0xDFFF < c.toNat ∧ c.toNat < 0x110000 := c.valid
  have hval : Char.ofNat c.toNat = c := Char.ofNat_toNat c
  have hnat : c.val.toNat = c.toNat := rfl
  unfold String.utf8EncodeChar
  simp only [hnat]
  generalize c.toNat = v at hvalid hval
  have hlast : v % 0x40 + 0x80 < 256 := by omega
  have hthird : v / 64 % 0x40 + 0x80 < 256 := by omega
  have hsecond : v / 4096 % 0x40 + 0x80 < 256 := by omega
  have hrange : ∀ n : ℕ, (0x80 : UInt8).toNat ≤ n % 0x40 + 0x80 ∧
      n % 0x40 + 0x80 ≤ (0xBF : UInt8).toNat := by
    intro n
    show 0x80 ≤ n % 0x40 + 0x80 ∧ n % 0x40 + 0x80 ≤ 0xBF
    omega
  by_cases h₁ : v ≤ 0x7F
  · have hlead := lead_ofNat (show v < 256 by omega)
    rw [if_pos (by omega : v < 0x80)] at hlead
    simp [h₁, decode, feed, start, hlead, hval]
  · by_cases h₂ : v ≤ 0x7FF
    · have hlead := lead_ofNat (show v / 64 % 0x20 + 0xC0 < 256 by omega)
      rw [if_neg (by omega), if_neg (by omega), if_pos (by omega)] at hlead
      have hsum : (v / 64 % 0x20 + 0xC0 - 0xC0) * 64 + (v % 0x40 + 0x80 - 0x80) = v := by omega
      rw [if_neg h₁, if_pos h₂, List.cons_append, List.cons_append, List.nil_append,
        decode_lead hlead, decode_last hlast (hrange v).1 (hrange v).2, hsum, hval]
    · by_cases h₃ : v ≤ 0xFFFF
      · have hlead := lead_ofNat (show v / 4096 % 0x10 + 0xE0 < 256 by omega)
        rw [if_neg (by omega), if_neg (by omega), if_neg (by omega), if_pos (by omega)] at hlead
        have hsum : ((v / 4096 % 0x10 + 0xE0 - 0xE0) * 64 + (v / 64 % 0x40 + 0x80 - 0x80)) * 64 +
            (v % 0x40 + 0x80 - 0x80) = v := by omega
        rw [if_neg h₁, if_neg h₂, if_pos h₃, List.cons_append, List.cons_append, List.cons_append,
          List.nil_append, decode_lead hlead, decode_more hthird ?_ ?_,
          decode_last hlast (hrange v).1 (hrange v).2, hsum, hval]
        · -- After `E0` the lower bound excludes the characters that take two bytes.
          split
          · show 0xA0 ≤ v / 64 % 0x40 + 0x80
            omega
          · exact (hrange (v / 64)).1
        · -- After `ED` the upper bound excludes the surrogates.
          split
          · show v / 64 % 0x40 + 0x80 ≤ 0x9F
            omega
          · exact (hrange (v / 64)).2
      · have hlead := lead_ofNat (show v / 262144 % 0x08 + 0xF0 < 256 by omega)
        rw [if_neg (by omega), if_neg (by omega), if_neg (by omega), if_neg (by omega),
          if_pos (by omega)] at hlead
        have hsum : (((v / 262144 % 0x08 + 0xF0 - 0xF0) * 64 +
            (v / 4096 % 0x40 + 0x80 - 0x80)) * 64 + (v / 64 % 0x40 + 0x80 - 0x80)) * 64 +
            (v % 0x40 + 0x80 - 0x80) = v := by omega
        rw [if_neg h₁, if_neg h₂, if_neg h₃, List.cons_append, List.cons_append, List.cons_append,
          List.cons_append, List.nil_append, decode_lead hlead, decode_more hsecond ?_ ?_,
          decode_more hthird (hrange _).1 (hrange _).2,
          decode_last hlast (hrange v).1 (hrange v).2, hsum, hval]
        · split
          · show 0x90 ≤ v / 4096 % 0x40 + 0x80
            omega
          · exact (hrange (v / 4096)).1
        · split
          · show v / 4096 % 0x40 + 0x80 ≤ 0x8F
            omega
          · exact (hrange (v / 4096)).2

/-- What stands behind an encoded string does not change how it is read. -/
theorem decode_utf8_append (s : Str) (bytes : Bytes) :
    decode none (s.utf8 ++ bytes) = s.map some ++ decode none bytes := by
  induction s with
  | nil => rfl
  | cons c s ih =>
      rw [Str.utf8, List.flatMap_cons, List.append_assoc, decode_utf8EncodeChar, List.map_cons,
        List.cons_append]
      exact congrArg (some c :: ·) ih

theorem decode_utf8 (s : Str) : decode none s.utf8 = s.map some := by
  simpa [decode] using decode_utf8_append s []

/-- **A string arrives as it was sent.** -/
theorem toStringLossy_utf8 (s : Str) : toStringLossy s.utf8 = s := by
  simp [toStringLossy, decode_utf8]

theorem toStringLossy_utf8_append (s : Str) (bytes : Bytes) :
    toStringLossy (s.utf8 ++ bytes) = s ++ toStringLossy bytes := by
  simp [toStringLossy, decode_utf8_append]

/-- A sequence under way gives at least an error. -/
theorem decode_some_ne_nil (p : Pending) (bytes : Bytes) : decode (some p) bytes ≠ [] := by
  induction bytes generalizing p with
  | nil => simp [decode]
  | cons b bytes ih =>
      rw [decode, feed]
      split
      · dsimp only
        split
        · simp
        · exact ih _
      · simp

/-- No bytes are read as nothing. -/
theorem toStringLossy_eq_nil_iff {bytes : Bytes} : toStringLossy bytes = [] ↔ bytes = [] := by
  refine ⟨fun h => ?_, fun h => h ▸ rfl⟩
  cases bytes with
  | nil => rfl
  | cons b bytes =>
      rw [toStringLossy, List.map_eq_nil_iff, decode, feed, start] at h
      cases hlead : lead b with
      | none => simp [hlead] at h
      | some first =>
          rw [hlead] at h
          cases first with
          | inl c => simp at h
          | inr p => exact absurd h (decode_some_ne_nil p bytes)

theorem toStr_utf8 (s : Str) : toStr s.utf8 = some s := by
  rw [toStr, decode_utf8]
  induction s with
  | nil => rfl
  | cons c s ih => simp [ih]

end CStr

end Paperlog
