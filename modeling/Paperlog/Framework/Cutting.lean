import Mathlib.Data.List.Defs
import Mathlib.Algebra.Order.Floor.Div
import Mathlib.Tactic.Common

/-!
# Lists cut into pieces

At separators: what `List.splitOn` leaves out, and when it returns an empty piece
(`nil_mem_splitOn_iff`).

At a fixed length: `Cut n xs pieces` says, without any reference to an algorithm, that `pieces` is
the list `xs` cut from the left into pieces of `n` elements, of which only the last may be shorter;
the empty list has no piece.  `cut_toChunks` is the link to `List.toChunks`, whose loop carries its
pieces in two accumulators.  Everything else is read off `Cut` by induction: the pieces put together
again, their sizes, and how many there are.
-/

namespace List

variable {α : Type*} {n : ℕ}

/-! ## At separators -/

section SplitOn

variable [BEq α] [LawfulBEq α] (a : α) (xs : List α)

/-- The pieces together are the list without its separators. -/
theorem flatten_splitOn : (xs.splitOn a).flatten = xs.filter (fun x => !(x == a)) := by
  induction xs with
  | nil => rfl
  | cons x xs ih =>
      rw [splitOn_cons_eq_if_modifyHead]
      by_cases hx : x = a
      · simp [hx, ih]
      · obtain ⟨piece, pieces, hpieces⟩ := exists_cons_of_ne_nil (splitOn_ne_nil a xs)
        rw [hpieces] at ih ⊢
        simpa [hx] using ih

theorem not_mem_of_mem_splitOn : ∀ piece ∈ xs.splitOn a, a ∉ piece := by
  intro piece hpiece hmem
  have hflat : a ∈ (xs.splitOn a).flatten := mem_flatten.2 ⟨piece, hpiece, hmem⟩
  rw [flatten_splitOn] at hflat
  simp at hflat

/-- A piece is empty exactly where two separators touch, the ends of the list counting as
separators. -/
theorem nil_mem_splitOn_iff : [] ∈ xs.splitOn a ↔ [a, a] <:+: a :: (xs ++ [a]) := by
  have key : ([] ∈ xs.splitOn a ↔ [a, a] <:+: a :: (xs ++ [a])) ∧
      ([] ∈ (xs.splitOn a).tail ↔ [a, a] <:+: xs ++ [a]) := by
    induction xs with
    | nil => simp [infix_cons_iff]
    | cons x xs ih =>
        rw [splitOn_cons_eq_if_modifyHead]
        by_cases hx : x = a
        · subst hx
          simp [ih.1, infix_cons_iff]
        · obtain ⟨piece, pieces, hpieces⟩ := exists_cons_of_ne_nil (splitOn_ne_nil a xs)
          rw [hpieces] at ih ⊢
          have hax : ¬ a = x := fun h => hx h.symm
          have hskip : [a, a] <:+: x :: (xs ++ [a]) ↔ [a, a] <:+: xs ++ [a] := by
            simp [infix_cons_iff, hax]
          have htail : [] ∈ pieces ↔ [a, a] <:+: xs ++ [a] := ih.2
          have hfirst : [a, a] <:+: a :: x :: (xs ++ [a]) ↔ [a, a] <:+: xs ++ [a] := by
            rw [infix_cons_iff, hskip]
            simp [hax]
          constructor
          · simp [hx, hfirst, htail]
          · simp [hx, hskip, htail]
  exact key.1

end SplitOn

/-! ## At a fixed length -/

/-- `pieces` is `xs`, cut from the left into pieces of `n`. -/
inductive Cut (n : ℕ) : List α → List (List α) → Prop
  | nil : Cut n [] []
  | last {piece : List α} (hne : piece ≠ []) (hle : piece.length ≤ n) : Cut n piece [piece]
  | cons {piece xs : List α} {pieces : List (List α)} (hfull : piece.length = n) (hne : xs ≠ [])
      (h : Cut n xs pieces) : Cut n (piece ++ xs) (piece :: pieces)

/-- The loop of `toChunks`: `piece` is being filled, `done` is finished. -/
theorem cut_toChunks_go (xs : List α) : ∀ (piece : Array α) (done : Array (List α)),
    piece.toList ≠ [] → piece.size ≤ n →
    ∃ pieces, toChunks.go n xs piece done = done.toList ++ pieces ∧
      Cut n (piece.toList ++ xs) pieces := by
  induction xs with
  | nil =>
      intro piece done hne hle
      exact ⟨[piece.toList], by simp [toChunks.go], by simpa using Cut.last hne hle⟩
  | cons x xs ih =>
      intro piece done hne hle
      by_cases hfull : piece.size = n
      · have hpos : 0 < n := by
          rw [← hfull, ← Array.length_toList]
          exact length_pos_iff.2 hne
        obtain ⟨pieces, hgo, hcut⟩ := ih #[x] (done.push piece.toList) (by simp) hpos
        refine ⟨piece.toList :: pieces, by simpa [toChunks.go, hfull] using hgo, ?_⟩
        exact .cons hfull (cons_ne_nil x xs) hcut
      · obtain ⟨pieces, hgo, hcut⟩ := ih (piece.push x) done (by simp)
          (by rw [Array.size_push]; omega)
        exact ⟨pieces, by simpa [toChunks.go, hfull] using hgo, by simpa using hcut⟩

theorem cut_toChunks (hn : 0 < n) (xs : List α) : Cut n xs (xs.toChunks n) := by
  obtain ⟨m, rfl⟩ := Nat.exists_eq_succ_of_ne_zero hn.ne'
  cases xs with
  | nil => exact .nil
  | cons x xs =>
      obtain ⟨pieces, hgo, hcut⟩ := cut_toChunks_go xs #[x] #[] (by simp) hn
      have hchunks : (x :: xs).toChunks (m + 1) = pieces := by simpa [toChunks] using hgo
      rw [hchunks]
      exact hcut

namespace Cut

variable {xs : List α} {pieces : List (List α)}

/-- Nothing is lost, added or reordered. -/
theorem flatten_eq (h : Cut n xs pieces) : pieces.flatten = xs := by
  induction h with
  | nil => rfl
  | last hne hle => simp
  | cons hfull hne h ih => simp [ih]

theorem ne_nil (h : Cut n xs pieces) (hxs : xs ≠ []) : pieces ≠ [] := by
  rintro rfl
  exact hxs h.flatten_eq.symm

theorem length_le (h : Cut n xs pieces) : ∀ piece ∈ pieces, piece.length ≤ n := by
  induction h with
  | nil => simp
  | last hne hle => simpa using hle
  | cons hfull hne h ih =>
      intro piece hpiece
      rcases mem_cons.1 hpiece with rfl | hpiece
      · exact hfull.le
      · exact ih piece hpiece

theorem piece_ne_nil (hn : 0 < n) (h : Cut n xs pieces) : ∀ piece ∈ pieces, piece ≠ [] := by
  induction h with
  | nil => simp
  | last hne hle => simpa using hne
  | cons hfull hne h ih =>
      intro piece hpiece
      rcases mem_cons.1 hpiece with rfl | hpiece
      · rintro rfl
        exact hn.ne hfull
      · exact ih piece hpiece

/-- All pieces but the last are full. -/
theorem length_of_mem_dropLast (h : Cut n xs pieces) :
    ∀ piece ∈ pieces.dropLast, piece.length = n := by
  induction h with
  | nil => simp
  | last hne hle => simp
  | cons hfull hne h ih =>
      intro piece hpiece
      rw [dropLast_cons_of_ne_nil (h.ne_nil hne)] at hpiece
      rcases mem_cons.1 hpiece with rfl | hpiece
      · exact hfull
      · exact ih piece hpiece

/-- The number of pieces is the length over `n`, rounded up. -/
theorem length_eq (hn : 0 < n) (h : Cut n xs pieces) : pieces.length = xs.length ⌈/⌉ n := by
  induction h with
  | nil => simp
  | @last piece hne hle =>
      have hpos : 0 < piece.length := length_pos_iff.2 hne
      rw [Nat.ceilDiv_eq_add_pred_div, length_singleton]
      exact (Nat.div_eq_of_lt_le (by omega) (by omega)).symm
  | @cons piece xs pieces hfull hne h ih =>
      have hsum : n + xs.length + n - 1 = n + (xs.length + n - 1) := by omega
      rw [length_cons, ih, length_append, hfull, Nat.ceilDiv_eq_add_pred_div,
        Nat.ceilDiv_eq_add_pred_div, hsum, Nat.add_div_left _ hn]

end Cut

end List
