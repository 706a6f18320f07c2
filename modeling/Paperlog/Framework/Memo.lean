import Mathlib.Data.List.Nodup
import Mathlib.Tactic.Common

/-!
# Remembering answers

`Memo.get f` answers from a table, and asks `f` only for what is not in it yet; where `f` has no
answer, neither has `Memo.get`.  As long as the table is `Sound`, nobody can tell the difference
(`get_fst`), and no question is asked twice: a table stays sound, and gets a key only when that is
asked for the first time (`Sound.get`).
-/

namespace Memo

variable {κ β : Type*} [DecidableEq κ]

/-- Questions and their answers. -/
abbrev Table (κ β : Type*) := List (κ × β)

/-- The answer, and the table afterwards. -/
def get (f : κ → Option β) (table : Table κ β) (k : κ) : Option (β × Table κ β) :=
  match table.lookup k with
  | some b => some (b, table)
  | none => (f k).map fun b => (b, (k, b) :: table)

/-- The answers are those of `f`, one for each key. -/
structure Sound (f : κ → Option β) (table : Table κ β) : Prop where
  right : ∀ e ∈ table, f e.1 = some e.2
  nodup : (table.map Prod.fst).Nodup

variable {f : κ → Option β} {table table' : Table κ β} {k : κ} {b : β}

omit [DecidableEq κ] in
theorem sound_nil : Sound f [] := ⟨nofun, List.nodup_nil⟩

theorem mem_of_lookup (h : table.lookup k = some b) : (k, b) ∈ table := by
  obtain ⟨before, after, rfl, -⟩ := List.lookup_eq_some_iff.1 h
  exact List.mem_append_right _ List.mem_cons_self

theorem not_mem_of_lookup (h : table.lookup k = none) : k ∉ table.map Prod.fst := by
  intro hk
  obtain ⟨e, he, rfl⟩ := List.mem_map.1 hk
  simpa using List.lookup_eq_none_iff.1 h e he

/-- **Nobody can tell the difference.** -/
theorem get_fst (h : Sound f table) (k : κ) : (get f table k).map Prod.fst = f k := by
  rw [get]
  split
  · rename_i b hlookup
    exact (h.right _ (mem_of_lookup hlookup)).symm
  · rw [Option.map_map]
    exact Option.map_id'

/-- **No question is asked twice.** -/
theorem Sound.get (h : Sound f table) (hget : get f table k = some (b, table')) :
    Sound f table' ∧ ∀ k', k' ∈ table'.map Prod.fst ↔ k' = k ∨ k' ∈ table.map Prod.fst := by
  rw [Memo.get] at hget
  split at hget
  · rename_i b' hlookup
    obtain ⟨-, rfl⟩ := Prod.mk.inj (Option.some.inj hget)
    refine ⟨h, fun k' => (or_iff_right_of_imp ?_).symm⟩
    rintro rfl
    exact List.mem_map_of_mem (mem_of_lookup hlookup)
  · rename_i hlookup
    obtain ⟨b', hf, hpair⟩ := Option.map_eq_some_iff.1 hget
    obtain ⟨rfl, rfl⟩ := Prod.mk.inj hpair
    refine ⟨⟨List.forall_mem_cons.2 ⟨hf, h.right⟩, ?_⟩, fun k' => List.mem_cons⟩
    exact List.nodup_cons.2 ⟨not_mem_of_lookup hlookup, h.nodup⟩

end Memo
