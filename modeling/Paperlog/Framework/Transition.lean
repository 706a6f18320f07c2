import Mathlib.Data.List.Basic
import Mathlib.Logic.Relation
import Mathlib.Tactic.Common

/-!
# Runs of a partial step function

A *transition system* is a function `step : σ → α → Option σ`: in state `s` the action `a` is
either disabled (`none`) or leads to one next state.  Everything nondeterministic about a system
(who moves next, what the environment answers) is carried by the actions, so a finite run is a
list of actions and the state it ends in is computed by `run`.

Two properties of whole runs are used throughout.  `Always P s as` says that every state met
while the actions `as` are played from `s` satisfies `P`; `StepsMeet C s as` says that every
action of the run is played from a state it meets the condition `C` with.  The rules below turn
facts about one step into facts about runs:

* `run_invariant` and, for runs whose actions are all of one kind, `run_invariant_of_forall`, the
  induction along a run; `run_unchanged` for what no step changes;
* `always_of_stepsMeet`, the induction for every state on the way, and `stepsMeet_of_stepsMeet`, for
  every step on the way, with `stepsMeet_of_invariant` for runs whose actions are all of one kind;
* `always_iff_stepsMeet`, the exact form, and again `always_iff_stepsMeet_of_forall`: where a step
  off the condition leads out of `P` at once, the runs that stay in `P` are those whose steps all
  meet the condition;
* `stepsMeet_iff`, for a property of the steps themselves: under an invariant it can be replaced
  by any condition that says the same of one step;
* `run_map`, for a map of states that commutes with the steps, and `run_refines`, the simulation
  rule: where every step is matched by steps of an abstract system, so is every run.
-/

namespace Transition

variable {σ α : Type*} (step : σ → α → Option σ)

/-- The state after playing a list of actions, if every one of them is enabled in turn. -/
def run : σ → List α → Option σ
  | s, [] => some s
  | s, a :: as => (step s a).bind fun t => run t as

/-- Every state met while the actions are played satisfies `P`. -/
def Always (P : σ → Prop) : σ → List α → Prop
  | s, [] => P s
  | s, a :: as => P s ∧ ∀ t, step s a = some t → Always P t as

/-- Every action of the run meets the condition `C` in the state it is played from. -/
def StepsMeet (C : σ → α → Prop) : σ → List α → Prop
  | _, [] => True
  | s, a :: as => C s a ∧ ∀ t, step s a = some t → StepsMeet C t as

variable {step}

@[simp] lemma run_nil (s : σ) : run step s [] = some s := rfl

lemma run_cons (s : σ) (a : α) (as : List α) :
    run step s (a :: as) = (step s a).bind fun t => run step t as := rfl

lemma run_cons_some {s u : σ} {a : α} {as : List α} (h : run step s (a :: as) = some u) :
    ∃ t, step s a = some t ∧ run step t as = some u := by
  rw [run_cons, Option.bind_eq_some_iff] at h
  exact h

lemma run_append (s : σ) (as bs : List α) :
    run step s (as ++ bs) = (run step s as).bind fun t => run step t bs := by
  induction as generalizing s with
  | nil => rfl
  | cons a as ih =>
      rw [List.cons_append, run_cons, run_cons]
      cases h : step s a with
      | none => rfl
      | some t => simpa using ih t

lemma run_append_some {s u : σ} {as bs : List α} (h : run step s (as ++ bs) = some u) :
    ∃ t, run step s as = some t ∧ run step t bs = some u := by
  rw [run_append, Option.bind_eq_some_iff] at h
  exact h

lemma Always.head {P : σ → Prop} {s : σ} {as : List α} (h : Always step P s as) : P s := by
  cases as with
  | nil => exact h
  | cons a as => exact h.1

/-! ## Invariants along a run -/

/-- What one step preserves, a whole run preserves. -/
theorem run_invariant {I : σ → Prop} (hstep : ∀ s a t, I s → step s a = some t → I t) :
    ∀ {as : List α} {s t : σ}, I s → run step s as = some t → I t := by
  intro as
  induction as with
  | nil =>
      intro s t hs h
      rw [run_nil, Option.some.injEq] at h
      exact h ▸ hs
  | cons a as ih =>
      intro s t hs h
      obtain ⟨u, hu, hrun⟩ := run_cons_some h
      exact ih (hstep s a u hs hu) hrun

/-- What no step changes, no run changes. -/
theorem run_unchanged {β : Type*} {f : σ → β} (hstep : ∀ s a t, step s a = some t → f t = f s)
    {as : List α} {s t : σ} (hrun : run step s as = some t) : f t = f s := by
  have hkeep : ∀ r a r', f r = f s → step r a = some r' → f r' = f s := fun r a r' hr h =>
    (hstep r a r' h).trans hr
  exact run_invariant hkeep rfl hrun

/-- What every step with an action in `A` preserves, a run of such actions preserves. -/
theorem run_invariant_of_forall {I : σ → Prop} {A : α → Prop}
    (hstep : ∀ s a t, I s → A a → step s a = some t → I t) :
    ∀ {as : List α} {s t : σ}, I s → (∀ a ∈ as, A a) → run step s as = some t → I t := by
  intro as
  induction as with
  | nil =>
      intro s t hs _ h
      rw [run_nil, Option.some.injEq] at h
      exact h ▸ hs
  | cons a as ih =>
      intro s t hs hA h
      obtain ⟨u, hu, hrun⟩ := run_cons_some h
      have hu' := hstep s a u hs (hA a List.mem_cons_self) hu
      exact ih hu' (fun b hb => hA b (List.mem_cons_of_mem a hb)) hrun

/-- An invariant that implies `P` keeps every state of the run in `P`. -/
theorem always_of_stepsMeet {I P : σ → Prop} {C : σ → α → Prop} (hP : ∀ s, I s → P s)
    (hstep : ∀ s a t, I s → C s a → step s a = some t → I t) :
    ∀ {as : List α} {s : σ}, I s → StepsMeet step C s as → Always step P s as := by
  intro as
  induction as with
  | nil => intro s hs _; exact hP s hs
  | cons a as ih =>
      intro s hs hc
      exact ⟨hP s hs, fun t ht => ih (hstep s a t hs hc.1 ht) (hc.2 t ht)⟩

/-- The exact form below, for runs whose actions are all of one kind. -/
theorem always_iff_stepsMeet_of_forall {I P : σ → Prop} {A : α → Prop} {C : σ → α → Prop}
    (hP : ∀ s, I s → P s) (hkeep : ∀ s a t, I s → A a → C s a → step s a = some t → I t)
    (hbreak : ∀ s a t, I s → A a → ¬ C s a → step s a = some t → ¬ P t) :
    ∀ {as : List α} {s u : σ}, I s → (∀ a ∈ as, A a) → run step s as = some u →
      (Always step P s as ↔ StepsMeet step C s as) := by
  intro as
  induction as with
  | nil => intro s u hs _ _; exact ⟨fun _ => trivial, fun _ => hP s hs⟩
  | cons a as ih =>
      intro s u hs hA hrun
      have ha : A a := hA a List.mem_cons_self
      have hrest : ∀ b ∈ as, A b := fun b hb => hA b (List.mem_cons_of_mem a hb)
      obtain ⟨t, ht, hrun⟩ := run_cons_some hrun
      have honly : ∀ t', step s a = some t' → t = t' := fun t' ht' =>
        Option.some.inj (ht.symm.trans ht')
      constructor
      · intro h
        have hc : C s a := by
          by_contra hc
          exact hbreak s a t hs ha hc ht (h.2 t ht).head
        refine ⟨hc, fun t' ht' => ?_⟩
        obtain rfl := honly t' ht'
        exact (ih (hkeep s a t hs ha hc ht) hrest hrun).1 (h.2 t ht)
      · intro h
        refine ⟨hP s hs, fun t' ht' => ?_⟩
        obtain rfl := honly t' ht'
        exact (ih (hkeep s a t hs ha h.1 ht) hrest hrun).2 (h.2 t ht)

/-- **The exact form.**  `I` is kept by every step that meets `C` and implies `P`; a step off `C`
leads straight out of `P`.  Then a run stays in `P` exactly when all its steps meet `C`. -/
theorem always_iff_stepsMeet {I P : σ → Prop} {C : σ → α → Prop} (hP : ∀ s, I s → P s)
    (hkeep : ∀ s a t, I s → C s a → step s a = some t → I t)
    (hbreak : ∀ s a t, I s → ¬ C s a → step s a = some t → ¬ P t) {as : List α} {s u : σ}
    (hs : I s) (hrun : run step s as = some u) :
    Always step P s as ↔ StepsMeet step C s as :=
  always_iff_stepsMeet_of_forall hP (fun s a t hs _ => hkeep s a t hs)
    (fun s a t hs _ => hbreak s a t hs) hs (fun _ _ => trivial) hrun

/-- Where steps that meet `C` keep an invariant, what the two imply of a step every step of the run
meets. -/
theorem stepsMeet_of_stepsMeet {I : σ → Prop} {C D : σ → α → Prop}
    (hkeep : ∀ s a t, I s → C s a → step s a = some t → I t)
    (hD : ∀ s a, I s → C s a → D s a) :
    ∀ {as : List α} {s : σ}, I s → StepsMeet step C s as → StepsMeet step D s as := by
  intro as
  induction as with
  | nil => intro s _ _; exact trivial
  | cons a as ih =>
      intro s hs hc
      exact ⟨hD s a hs hc.1, fun t ht => ih (hkeep s a t hs hc.1 ht) (hc.2 t ht)⟩

/-- The steps of one run and then of another. -/
lemma stepsMeet_append {C : σ → α → Prop} {as bs : List α} {s t : σ} (h : StepsMeet step C s as)
    (hrun : run step s as = some t) (hrest : StepsMeet step C t bs) :
    StepsMeet step C s (as ++ bs) := by
  induction as generalizing s with
  | nil =>
      obtain rfl := Option.some.inj hrun
      exact hrest
  | cons a as ih =>
      refine ⟨h.1, fun u hu => ?_⟩
      obtain ⟨u', hu', hrun'⟩ := run_cons_some hrun
      obtain rfl := Option.some.inj (hu.symm.trans hu')
      exact ih (h.2 u hu) hrun'

lemma stepsMeet_of_forall {A : α → Prop} :
    ∀ {as : List α} (s : σ), (∀ a ∈ as, A a) → StepsMeet step (fun _ => A) s as := by
  intro as
  induction as with
  | nil => intro s _; exact trivial
  | cons a as ih =>
      intro s hA
      have hrest : ∀ b ∈ as, A b := fun b hb => hA b (List.mem_cons_of_mem a hb)
      exact ⟨hA a List.mem_cons_self, fun t _ => ih t hrest⟩

/-- What an invariant implies of every step, every step of a run meets.  `A` is what the run assumes
of the actions themselves. -/
theorem stepsMeet_of_invariant {I : σ → Prop} {A : α → Prop} {C : σ → α → Prop}
    (hkeep : ∀ s a t, I s → A a → step s a = some t → I t) (hC : ∀ s a, I s → A a → C s a)
    {as : List α} {s : σ} (hs : I s) (hA : ∀ a ∈ as, A a) : StepsMeet step C s as :=
  stepsMeet_of_stepsMeet hkeep hC hs (stepsMeet_of_forall s hA)

/-- Two conditions that agree on every step from an invariant state agree on whole runs.  `A` is
what the run assumes of the actions themselves. -/
theorem stepsMeet_iff {I : σ → Prop} {A : α → Prop} {C D : σ → α → Prop}
    (hkeep : ∀ s a t, I s → A a → step s a = some t → I t)
    (hiff : ∀ s a, I s → A a → (C s a ↔ D s a)) :
    ∀ {as : List α} {s : σ}, I s → (∀ a ∈ as, A a) →
      (StepsMeet step C s as ↔ StepsMeet step D s as) := by
  intro as
  induction as with
  | nil => intro s _ _; exact Iff.rfl
  | cons a as ih =>
      intro s hs hA
      have ha : A a := hA a List.mem_cons_self
      have hrest : ∀ t, step s a = some t →
          (StepsMeet step C t as ↔ StepsMeet step D t as) := fun t ht =>
        ih (hkeep s a t hs ha ht) fun b hb => hA b (List.mem_cons_of_mem a hb)
      exact and_congr (hiff s a hs ha) (forall₂_congr hrest)

/-! ## Simulation -/

/-- Where a map of states commutes with every step, it commutes with every run. -/
theorem run_map {τ : Type*} {step' : τ → α → Option τ} {f : σ → τ}
    (hstep : ∀ s a, step' (f s) a = (step s a).map f) (s : σ) (as : List α) :
    run step' (f s) as = (run step s as).map f := by
  induction as generalizing s with
  | nil => rfl
  | cons a as ih =>
      rw [run_cons, run_cons, hstep]
      cases step s a with
      | none => rfl
      | some t => exact ih t

/-- **The simulation rule.**  `R` relates the states of the system to those of an abstract one
whose steps are `T`; if every step is matched by some (possibly no) steps of `T`, so is every
run. -/
theorem run_refines {τ : Type*} {T : τ → τ → Prop} {R : σ → τ → Prop}
    (hsim : ∀ s a t j, R s j → step s a = some t → ∃ j', Relation.ReflTransGen T j j' ∧ R t j') :
    ∀ {as : List α} {s t : σ} {j : τ}, R s j → run step s as = some t →
      ∃ j', Relation.ReflTransGen T j j' ∧ R t j' := by
  intro as
  induction as with
  | nil =>
      intro s t j hR h
      rw [run_nil, Option.some.injEq] at h
      exact ⟨j, .refl, h ▸ hR⟩
  | cons a as ih =>
      intro s t j hR h
      obtain ⟨u, hu, hrun⟩ := run_cons_some h
      obtain ⟨j₁, hj₁, hR₁⟩ := hsim s a u j hR hu
      obtain ⟨j₂, hj₂, hR₂⟩ := ih hR₁ hrun
      exact ⟨j₂, hj₁.trans hj₂, hR₂⟩

end Transition
