import Paperlog.Framework.Transition
import Mathlib.Order.WellFounded

/-!
# Runs that come to an end

A system makes *progress* when every step lowers a measure.  Under an invariant `I`, and for the
actions in `A`, this module turns that one inequality about steps into facts about runs:

* `length_add_rank_le`: with a measure in `ℕ` a run is at most as long as the measure of the state
  it starts in;
* `no_endless_run`: with a measure in any well-founded order no sequence of steps goes on for ever;
* `exists_run_atRest`: so every state can be run to one in which no action of `A` is enabled.

`AtRest` is that last property of a state.  A safety result about the states at rest, together with
the two facts above, is a liveness result: whatever the schedule, it ends, and it ends well.
-/

namespace Transition

variable {σ α : Type*} {step : σ → α → Option σ}

variable (step) in
/-- No action of the kind `A` is enabled. -/
def AtRest (A : α → Prop) (s : σ) : Prop := ∀ a, A a → step s a = none

/-- A sequence of states joined by steps with actions in `A`. -/
structure EndlessRun (step : σ → α → Option σ) (A : α → Prop) where
  state : ℕ → σ
  action : ℕ → α
  allowed : ∀ n, A (action n)
  step_eq : ∀ n, step (state n) (action n) = some (state (n + 1))

variable {I : σ → Prop} {A : α → Prop}

/-- **Bounded work.**  What a run has used up of the measure is at least its length. -/
theorem length_add_rank_le {rank : σ → ℕ}
    (hkeep : ∀ s a t, I s → A a → step s a = some t → I t)
    (hlt : ∀ s a t, I s → A a → step s a = some t → rank t < rank s) :
    ∀ {as : List α} {s t : σ}, I s → (∀ a ∈ as, A a) → run step s as = some t →
      as.length + rank t ≤ rank s := by
  intro as
  induction as with
  | nil =>
      intro s t _ _ h
      rw [run_nil, Option.some.injEq] at h
      subst h
      rw [List.length_nil, Nat.zero_add]
  | cons a as ih =>
      intro s t hs hA h
      obtain ⟨u, hu, hrun⟩ := run_cons_some h
      have ha := hA a List.mem_cons_self
      have hfirst := hlt s a u hs ha hu
      have hrest := ih (hkeep s a u hs ha hu) (fun b hb => hA b (List.mem_cons_of_mem a hb)) hrun
      rw [List.length_cons]
      omega

section WellFounded

variable {β : Type*} [LT β] [WellFoundedLT β] {measure : σ → β}

/-- **No run goes on for ever.** -/
theorem no_endless_run (hkeep : ∀ s a t, I s → A a → step s a = some t → I t)
    (hlt : ∀ s a t, I s → A a → step s a = some t → measure t < measure s)
    (r : EndlessRun step A) : ¬ I (r.state 0) := by
  intro hstart
  have hinv : ∀ n, I (r.state n) := by
    intro n
    induction n with
    | zero => exact hstart
    | succ n ih => exact hkeep _ _ _ ih (r.allowed n) (r.step_eq n)
  have hwf : WellFounded ((· < ·) : β → β → Prop) := wellFounded_lt
  obtain ⟨_, ⟨n, rfl⟩, hmin⟩ :=
    hwf.has_min (Set.range fun n => measure (r.state n)) ⟨_, 0, rfl⟩
  exact hmin _ ⟨n + 1, rfl⟩ (hlt _ _ _ (hinv n) (r.allowed n) (r.step_eq n))

/-- Every state can be run to one at rest. -/
theorem exists_run_atRest (hkeep : ∀ s a t, I s → A a → step s a = some t → I t)
    (hlt : ∀ s a t, I s → A a → step s a = some t → measure t < measure s) {s : σ} (hs : I s) :
    ∃ as t, (∀ a ∈ as, A a) ∧ run step s as = some t ∧ AtRest step A t := by
  induction hm : measure s using WellFoundedLT.induction generalizing s with
  | ind m ih =>
      subst hm
      by_cases hrest : AtRest step A s
      · exact ⟨[], s, nofun, rfl, hrest⟩
      · simp only [AtRest, not_forall] at hrest
        obtain ⟨a, ha, hne⟩ := hrest
        obtain ⟨u, hu⟩ := Option.ne_none_iff_exists'.1 hne
        obtain ⟨as, t, hA, hrun, ht⟩ := ih _ (hlt s a u hs ha hu) (hkeep s a u hs ha hu) rfl
        refine ⟨a :: as, t, ?_, ?_, ht⟩
        · intro b hb
          rcases List.mem_cons.1 hb with rfl | hb
          · exact ha
          · exact hA b hb
        · rw [run_cons, hu, Option.bind_some, hrun]

end WellFounded

end Transition
