import Mathlib.Algebra.Order.Ring.Nat
import Mathlib.Tactic.Common

/-!
# Digits in fields of fixed width

`Nat.fixedDigits b k n` are the last `k` digits of `n` in base `b`.  A number that has no more is
printed like that when it is filled up with zeros (`Nat.leftpad_toDigits`), and a wide field is
several narrow ones side by side (`Nat.fixedDigits_add`).

In base 16 two digits are a byte, so bytes can be printed one by one (`Hex.ofBytes`) or as words,
the first byte of a word being its most significant (`Hex.fixedDigits_value_reverse`); and they can
be read back (`Hex.toBytes_eq_some_iff`).  A number by itself reads back in any base that these
digits are enough for (`Nat.readDigits_leftpad`).
-/

namespace Nat

/-- The last `k` digits of `n` in base `b`. -/
def fixedDigits (b : ℕ) : ℕ → ℕ → List Char
  | 0, _ => []
  | k + 1, n => fixedDigits b k (n / b) ++ [(n % b).digitChar]

variable {b : ℕ}

theorem fixedDigits_zero (b k : ℕ) : fixedDigits b k 0 = List.replicate k '0' := by
  induction k with
  | zero => rfl
  | succ k ih =>
      rw [fixedDigits, Nat.zero_div, Nat.zero_mod, ih, List.replicate_succ']
      rfl

/-- **Filled up with zeros**, a number that fits shows its last digits. -/
theorem leftpad_toDigits (hb : 1 < b) {k n : ℕ} (hn : n < b ^ (k + 1)) :
    (toDigits b n).leftpad (k + 1) '0' = fixedDigits b (k + 1) n := by
  induction k generalizing n with
  | zero =>
      have hlt : n < b := by simpa using hn
      rw [toDigits_of_lt_base hlt, fixedDigits, fixedDigits, Nat.mod_eq_of_lt hlt]
      rfl
  | succ k ih =>
      by_cases hlt : n < b
      · rw [toDigits_of_lt_base hlt, fixedDigits, Nat.div_eq_of_lt hlt, Nat.mod_eq_of_lt hlt,
          fixedDigits_zero]
        rfl
      · have hdiv : n / b < b ^ (k + 1) := by
          rw [Nat.div_lt_iff_lt_mul (by omega), ← Nat.pow_succ]
          exact hn
        have hlength : (toDigits b (n / b)).length ≤ k + 1 :=
          (length_toDigits_le_iff hb (Nat.succ_pos k)).2 hdiv
        rw [toDigits_of_base_le hb (Nat.le_of_not_lt hlt), fixedDigits, ← ih hdiv]
        simp only [List.leftpad, List.length_append, List.length_singleton, List.append_assoc]
        congr 2
        omega

/-- A field is a field for the higher digits beside one for the lower. -/
theorem fixedDigits_add (b j k n : ℕ) :
    fixedDigits b (j + k) n = fixedDigits b j (n / b ^ k) ++ fixedDigits b k n := by
  induction k generalizing n with
  | zero => simp [fixedDigits]
  | succ k ih =>
      rw [← Nat.add_assoc, fixedDigits, ih, fixedDigits, Nat.div_div_eq_div_mul,
        ← Nat.pow_succ', List.append_assoc]

/-- Higher digits do not show. -/
theorem fixedDigits_add_mul_pow (b k n m : ℕ) :
    fixedDigits b k (n + b ^ k * m) = fixedDigits b k n := by
  induction k generalizing n with
  | zero => rfl
  | succ k ih =>
      rcases Nat.eq_zero_or_pos b with rfl | hb
      · simp [fixedDigits]
      · have hdiv : (n + b ^ (k + 1) * m) / b = n / b + b ^ k * m := by
          rw [Nat.pow_succ', Nat.mul_assoc, Nat.add_mul_div_left _ _ hb]
        have hmod : (n + b ^ (k + 1) * m) % b = n % b := by
          rw [Nat.pow_succ', Nat.mul_assoc, Nat.add_mul_mod_self_left]
        rw [fixedDigits, fixedDigits, hdiv, hmod, ih]

end Nat

namespace LittleEndian

/-- The number whose bytes these are, the least significant first. -/
def value : List UInt8 → ℕ
  | [] => 0
  | b :: bytes => b.toNat + 256 * value bytes

theorem value_lt (bytes : List UInt8) : value bytes < 256 ^ bytes.length := by
  induction bytes with
  | nil => exact Nat.one_pos
  | cons b bytes ih =>
      have hb := b.toNat_lt
      rw [value, List.length_cons, Nat.pow_succ']
      omega

theorem value_concat (bytes : List UInt8) (b : UInt8) :
    value (bytes ++ [b]) = value bytes + 256 ^ bytes.length * b.toNat := by
  induction bytes with
  | nil => simp [value]
  | cons c bytes ih =>
      rw [List.cons_append, value, ih, value, List.length_cons, Nat.pow_succ', Nat.mul_add,
        Nat.mul_assoc, Nat.add_assoc]

end LittleEndian

namespace Hex

/-- Two digits for each byte. -/
def ofBytes (bytes : List UInt8) : List Char := bytes.flatMap fun b => Nat.fixedDigits 16 2 b.toNat

/-- The value of a digit, in lower case. -/
def digitValue (c : Char) : Option ℕ :=
  if '0' ≤ c ∧ c ≤ '9' then some (c.toNat - '0'.toNat)
  else if 'a' ≤ c ∧ c ≤ 'f' then some (c.toNat - 'a'.toNat + 10)
  else none

/-- Reads two digits for each byte. -/
def toBytes : List Char → Option (List UInt8)
  | [] => some []
  | [_] => none
  | c :: d :: rest => do
      let high ← digitValue c
      let low ← digitValue d
      let bytes ← toBytes rest
      pure (.ofNat (16 * high + low) :: bytes)

theorem digitValue_digitChar : ∀ {n : ℕ}, n < 16 → digitValue n.digitChar = some n := by
  decide

theorem digitChar_decimal : ∀ {n : ℕ}, n < 10 → n.digitChar = Char.ofNat (48 + n) := by
  decide

theorem digitChar_letter : ∀ {n : ℕ}, n < 6 → (10 + n).digitChar = Char.ofNat (97 + n) := by
  decide

/-- No other character has its value. -/
theorem digitChar_of_digitValue {c : Char} {n : ℕ} (h : digitValue c = some n) :
    n < 16 ∧ n.digitChar = c := by
  rw [digitValue] at h
  split at h
  · rename_i hrange
    have hlow : 48 ≤ c.toNat := hrange.1
    have hhigh : c.toNat ≤ 57 := hrange.2
    obtain ⟨k, hk⟩ := Nat.exists_eq_add_of_le hlow
    obtain rfl : k = n := by
      have hval : c.toNat - 48 = n := Option.some.inj h
      omega
    refine ⟨by omega, ?_⟩
    rw [digitChar_decimal (by omega), ← hk, Char.ofNat_toNat]
  · split at h
    · rename_i hrange
      have hlow : 97 ≤ c.toNat := hrange.1
      have hhigh : c.toNat ≤ 102 := hrange.2
      obtain ⟨k, hk⟩ := Nat.exists_eq_add_of_le hlow
      obtain rfl : 10 + k = n := by
        have hval : c.toNat - 97 + 10 = n := Option.some.inj h
        omega
      refine ⟨by omega, ?_⟩
      rw [digitChar_letter (by omega), ← hk, Char.ofNat_toNat]
    · exact absurd h (by simp)

theorem ofBytes_cons (b : UInt8) (bytes : List UInt8) :
    ofBytes (b :: bytes) =
      (b.toNat / 16 % 16).digitChar :: (b.toNat % 16).digitChar :: ofBytes bytes := rfl

/-- What was printed is read back. -/
theorem toBytes_ofBytes (bytes : List UInt8) : toBytes (ofBytes bytes) = some bytes := by
  induction bytes with
  | nil => rfl
  | cons b bytes ih =>
      have hb := b.toNat_lt
      have hhigh : b.toNat / 16 % 16 < 16 := Nat.mod_lt _ (by decide)
      have hlow : b.toNat % 16 < 16 := Nat.mod_lt _ (by decide)
      have hbyte : 16 * (b.toNat / 16 % 16) + b.toNat % 16 = b.toNat := by omega
      rw [ofBytes_cons, toBytes, digitValue_digitChar hhigh, digitValue_digitChar hlow, ih]
      simp only [Option.bind_eq_bind, Option.bind_some, Option.pure_def, hbyte, UInt8.ofNat_toNat]

/-- No other string reads the same. -/
theorem ofBytes_of_toBytes {cs : List Char} {bytes : List UInt8} (h : toBytes cs = some bytes) :
    cs = ofBytes bytes := by
  induction cs using toBytes.induct generalizing bytes with
  | case1 =>
      obtain rfl := Option.some.inj h
      rfl
  | case2 c => exact absurd h (by simp [toBytes])
  | case3 c d rest ih =>
      simp only [toBytes, Option.bind_eq_bind, Option.bind_eq_some_iff, Option.pure_def,
        Option.some.injEq] at h
      obtain ⟨high, hhigh, low, hlow, bytes', hrest, rfl⟩ := h
      obtain ⟨hhigh_lt, rfl⟩ := digitChar_of_digitValue hhigh
      obtain ⟨hlow_lt, rfl⟩ := digitChar_of_digitValue hlow
      have hbyte : (UInt8.ofNat (16 * high + low)).toNat = 16 * high + low := by
        rw [UInt8.toNat_ofNat', Nat.mod_eq_of_lt (by omega)]
      have hdiv : (16 * high + low) / 16 % 16 = high := by omega
      have hmod : (16 * high + low) % 16 = low := by omega
      rw [ofBytes_cons, hbyte, hdiv, hmod, ← ih hrest]

/-- **Printing and reading back** are inverse to each other. -/
theorem toBytes_eq_some_iff {cs : List Char} {bytes : List UInt8} :
    toBytes cs = some bytes ↔ cs = ofBytes bytes := by
  constructor
  · exact ofBytes_of_toBytes
  · rintro rfl
    exact toBytes_ofBytes bytes

/-- Nothing but digits is read. -/
theorem not_mem_of_toBytes {c : Char} {cs : List Char} {bytes : List UInt8}
    (hc : digitValue c = none) (h : toBytes cs = some bytes) : c ∉ cs := by
  obtain rfl := ofBytes_of_toBytes h
  clear h
  induction bytes with
  | nil => exact List.not_mem_nil
  | cons b bytes ih =>
      have hne (n : ℕ) : c ≠ (n % 16).digitChar := by
        rintro rfl
        rw [digitValue_digitChar (Nat.mod_lt n (by decide))] at hc
        exact Option.some_ne_none _ hc
      rw [ofBytes_cons, List.mem_cons, List.mem_cons]
      exact not_or.2 ⟨hne _, not_or.2 ⟨hne _, ih⟩⟩

theorem ofBytes_append (bytes bytes' : List UInt8) :
    ofBytes (bytes ++ bytes') = ofBytes bytes ++ ofBytes bytes' := List.flatMap_append

/-- **A word shows its bytes**, the most significant first. -/
theorem fixedDigits_value_reverse (bytes : List UInt8) :
    Nat.fixedDigits 16 (2 * bytes.length) (LittleEndian.value bytes.reverse) = ofBytes bytes := by
  induction bytes with
  | nil => rfl
  | cons b bytes ih =>
      have hlt := LittleEndian.value_lt bytes.reverse
      rw [List.length_reverse] at hlt
      have hpow : 16 ^ (2 * bytes.length) = 256 ^ bytes.length := by
        rw [Nat.pow_mul]
      have hfield : 2 * (b :: bytes).length = 2 + 2 * bytes.length := by
        rw [List.length_cons]
        omega
      rw [List.reverse_cons, LittleEndian.value_concat, List.length_reverse, hfield,
        Nat.fixedDigits_add, ← hpow, Nat.fixedDigits_add_mul_pow, ih, hpow,
        Nat.add_mul_div_left _ _ (Nat.pow_pos (by decide)), Nat.div_eq_of_lt hlt, Nat.zero_add]
      rfl

end Hex

namespace Nat

variable {b : ℕ}

/-- The number with these digits in base `b`. -/
def readDigits (b : ℕ) (cs : List Char) : Option ℕ :=
  cs.foldlM (fun n c => (Hex.digitValue c).bind fun d => if d < b then some (b * n + d) else none) 0

theorem readDigits_concat (hb : b ≤ 16) (cs : List Char) {d : ℕ} (hd : d < b) :
    readDigits b (cs ++ [d.digitChar]) = (readDigits b cs).map fun n => b * n + d := by
  rw [readDigits, List.foldlM_append, readDigits]
  simp only [List.foldlM_cons, List.foldlM_nil, Hex.digitValue_digitChar (Nat.lt_of_lt_of_le hd hb),
    Option.bind_some, if_pos hd, Option.bind_eq_bind, Option.pure_def]
  exact Option.map_eq_bind.symm

/-- Nothing but digits is read. -/
theorem not_mem_of_readDigits {c : Char} {cs : List Char} {n : ℕ}
    (hc : Hex.digitValue c = none) (h : readDigits b cs = some n) : c ∉ cs := by
  intro hmem
  obtain ⟨before, after, rfl⟩ := List.append_of_mem hmem
  rw [readDigits, List.foldlM_append] at h
  obtain ⟨m, -, h⟩ := Option.bind_eq_some_iff.1 h
  rw [List.foldlM_cons, hc] at h
  cases h

/-- Zeros in front do not matter. -/
theorem readDigits_replicate_append (hb : 0 < b) (k : ℕ) (cs : List Char) :
    readDigits b (List.replicate k '0' ++ cs) = readDigits b cs := by
  induction k with
  | zero => rfl
  | succ k ih =>
      have hzero : Hex.digitValue '0' = some 0 := by decide
      rw [List.replicate_succ, List.cons_append, readDigits, List.foldlM_cons, hzero]
      simp only [Option.bind_some, if_pos hb, Nat.mul_zero, Nat.add_zero, Option.bind_eq_bind]
      exact ih

/-- **A number that is printed reads back**, filled up with zeros or not. -/
theorem readDigits_leftpad (hb : 1 < b) (hb' : b ≤ 16) (k n : ℕ) :
    readDigits b ((toDigits b n).leftpad k '0') = some n := by
  rw [List.leftpad, readDigits_replicate_append (Nat.zero_lt_of_lt hb)]
  induction n using Nat.strongRecOn with
  | ind n ih =>
      by_cases hn : n < b
      · have hone := readDigits_concat hb' [] hn
        rw [toDigits_of_lt_base hn]
        simpa [readDigits] using hone
      · have hle := Nat.le_of_not_lt hn
        have hdiv := ih (n / b) (Nat.div_lt_self (by omega) hb)
        rw [toDigits_of_base_le hb hle, readDigits_concat hb' _ (Nat.mod_lt n (by omega)), hdiv,
          Option.map_some, Nat.div_add_mod]

end Nat
