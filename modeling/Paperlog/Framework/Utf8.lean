import Mathlib.Data.List.Basic
import Mathlib.Tactic.Common

/-!
# ASCII in UTF-8

A byte below `0x80` is the whole encoding of its character and part of no other, so such bytes can
be counted, looked for and taken out in the encoded text as their characters can in the text itself
(`count_flatMap_utf8EncodeChar`, `filter_flatMap_utf8EncodeChar`).
-/

namespace String

variable {c : Char} {b : UInt8}

/-- All bytes of an encoding of more than one byte have their highest bit set. -/
theorem le_of_mem_utf8EncodeChar (hc : ¬ c.val.toNat ≤ 0x7F) :
    ∀ b ∈ utf8EncodeChar c, 0x80 ≤ b.toNat := by
  have hhigh : ∀ n, 0x80 ≤ n → n < 256 → 0x80 ≤ (UInt8.ofNat n).toNat := fun n hlow hlt => by
    rw [UInt8.toNat_ofNat_of_lt' hlt]
    exact hlow
  rw [utf8EncodeChar]
  generalize c.val.toNat = v at hc
  rw [if_neg hc]
  intro b hb
  split at hb
  · rcases List.mem_pair.mp hb with rfl | rfl
    · exact hhigh _ (by omega) (by omega)
    · exact hhigh _ (by omega) (by omega)
  · split at hb
    · simp only [List.mem_cons, List.not_mem_nil, or_false] at hb
      rcases hb with rfl | rfl | rfl
      · exact hhigh _ (by omega) (by omega)
      · exact hhigh _ (by omega) (by omega)
      · exact hhigh _ (by omega) (by omega)
    · simp only [List.mem_cons, List.not_mem_nil, or_false] at hb
      rcases hb with rfl | rfl | rfl | rfl
      · exact hhigh _ (by omega) (by omega)
      · exact hhigh _ (by omega) (by omega)
      · exact hhigh _ (by omega) (by omega)
      · exact hhigh _ (by omega) (by omega)

/-- An ASCII byte stands for its own character, and in the encoding of no other. -/
theorem count_utf8EncodeChar (hb : b.toNat ≤ 0x7F) (c : Char) :
    (utf8EncodeChar c).count b = if c = Char.ofNat b.toNat then 1 else 0 := by
  have hbyte : (Char.ofNat b.toNat).val.toNat = b.toNat := by
    rw [Char.ofNat, dif_pos (.inl (by omega))]
    rfl
  have hchar : c = Char.ofNat b.toNat ↔ c.val.toNat = b.toNat :=
    ⟨fun h => h ▸ hbyte, fun h => Char.toNat_inj.mp (h.trans hbyte.symm)⟩
  by_cases hc : c.val.toNat ≤ 0x7F
  · have hsingle : utf8EncodeChar c = [UInt8.ofNat c.val.toNat] := by
      rw [utf8EncodeChar, if_pos hc]
    have hlt : c.val.toNat < 256 := by omega
    have hbeq : (UInt8.ofNat c.val.toNat == b) = true ↔ c = Char.ofNat b.toNat := by
      rw [beq_iff_eq, hchar, ← UInt8.toNat_inj, UInt8.toNat_ofNat_of_lt' hlt]
    rw [hsingle, List.count_singleton]
    simp only [hbeq]
  · have hne : ¬ c = Char.ofNat b.toNat := by
      rw [hchar]
      omega
    rw [if_neg hne, List.count_eq_zero]
    intro hmem
    have hle := le_of_mem_utf8EncodeChar hc b hmem
    omega

/-- **Counting an ASCII byte is counting its character.** -/
theorem count_flatMap_utf8EncodeChar (hb : b.toNat ≤ 0x7F) (s : List Char) :
    (s.flatMap utf8EncodeChar).count b = s.count (Char.ofNat b.toNat) := by
  induction s with
  | nil => rfl
  | cons c s ih =>
      rw [List.flatMap_cons, List.count_append, ih, count_utf8EncodeChar hb, List.count_cons,
        Nat.add_comm]
      simp

/-- An ASCII character is one byte. -/
theorem utf8EncodeChar_ofNat (hb : b.toNat ≤ 0x7F) : utf8EncodeChar (Char.ofNat b.toNat) = [b] := by
  have hbyte : (Char.ofNat b.toNat).val.toNat = b.toNat := by
    rw [Char.ofNat, dif_pos (.inl (by omega))]
    rfl
  rw [utf8EncodeChar, hbyte, if_pos hb, UInt8.ofNat_toNat]

/-- Taking an ASCII byte out is taking its character out. -/
theorem filter_flatMap_utf8EncodeChar (hb : b.toNat ≤ 0x7F) (s : List Char) :
    (s.flatMap utf8EncodeChar).filter (· ≠ b) =
      (s.filter (· ≠ Char.ofNat b.toNat)).flatMap utf8EncodeChar := by
  induction s with
  | nil => rfl
  | cons c s ih =>
      rw [List.flatMap_cons, List.filter_append, ih]
      by_cases hc : c = Char.ofNat b.toNat
      · rw [List.filter_cons_of_neg (by simpa using hc), hc, utf8EncodeChar_ofNat hb,
          List.filter_cons_of_neg (by simp), List.filter_nil, List.nil_append]
      · have hcount := count_utf8EncodeChar hb c
        rw [if_neg hc, List.count_eq_zero] at hcount
        rw [List.filter_cons_of_pos (by simpa using hc), List.flatMap_cons]
        congr 1
        refine List.filter_eq_self.2 fun b' hb' => ?_
        exact decide_eq_true fun h => hcount (h ▸ hb')
end String
