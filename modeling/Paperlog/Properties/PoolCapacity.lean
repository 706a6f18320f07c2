import Mathlib.Order.Basic
import Paperlog.Framework.Transition
import Paperlog.Model.LogData
import Paperlog.Model.VecPool

/-!
# The capacity of pooled vectors

A vector of the pool is empty, so `reserve(new_capacity - capacity)` makes room for no more than
that difference: where the vector has some capacity already, this is short of the new one.
`resizeAll_promised_iff` says when a vector nevertheless has the new capacity afterwards.  A use
keeps what the pool promises in any case (`promised_use`), and `takes_promised` puts the two
together for whole runs.

A vector that is too small does come to light: after as many uses as there are vectors before it, it
is handed out (`takeVec_of_uses`).
-/

namespace Paperlog

namespace VecPool

open Transition

variable {α : Type} {p p' : VecPool α}

/-- A vector as `take_vec` should hand it out. -/
structure Promised (innerCapacity : ℕ) (v : Vec α) : Prop where
  empty : v.items = []
  capacity : innerCapacity ≤ v.capacity

/-- If the action takes a vector, it gets one with the promised capacity. -/
def TakesPromised (p : VecPool α) (a : PoolAction α) : Prop :=
  ∀ items grown, a = .use items grown → Promised p.innerCapacity p.takeVec.1

/-- All vectors of the pool are as promised. -/
def AllPromised (p : VecPool α) : Prop := ∀ v ∈ p.pool, Promised p.innerCapacity v

theorem allPromised_withInitialAmount (amount innerCapacity : ℕ) :
    AllPromised (withInitialAmount amount innerCapacity : VecPool α) := by
  intro v hv
  rw [List.eq_of_mem_replicate hv]
  exact ⟨rfl, le_rfl⟩

/-! ## Taking and returning -/

theorem AllPromised.takeVec (h : AllPromised p) : Promised p.innerCapacity p.takeVec.1 :=
  takeVec_of_forall ⟨rfl, le_rfl⟩ h

/-- A use keeps what is promised: the vector comes back empty and no smaller. -/
theorem promised_use (h : AllPromised p) (items : List α) (grown : ℕ) :
    AllPromised (p.takeVec.2.returnVec (p.takeVec.1.extend items grown)) := by
  have hback : Promised p.innerCapacity (p.takeVec.1.extend items grown).clear :=
    ⟨rfl, h.takeVec.capacity.trans (Vec.capacity_le_extend _ _ _)⟩
  intro v hv
  show Promised p.takeVec.2.innerCapacity v
  rw [innerCapacity_takeVec]
  rcases mem_returnVec hv with hv | rfl
  · exact h v (mem_of_mem_takeVec hv)
  · exact hback

/-! ## Resizing -/

/-- An empty vector that `resize_all` brings to the new capacity: it has it already, or it has none
at all, or the new capacity is more than twice its own and the allocator gives it freely. -/
def Enlarged (newCapacity grown : ℕ) (v : Vec α) : Prop :=
  newCapacity ≤ v.capacity ∨ v.capacity = 0 ∨ 2 * v.capacity < newCapacity ∧ newCapacity ≤ grown

/-- If the action is a `resize_all`, it brings every vector of the pool to the new capacity. -/
def Resizes (p : VecPool α) (a : PoolAction α) : Prop :=
  ∀ newCapacity grown, a = .resizeAll newCapacity grown →
    ∀ i v, p.pool[i]? = some v → Enlarged newCapacity (grown i) v

theorem le_reserve_iff {newCapacity grown : ℕ} {v : Vec α} (hempty : v.items = []) :
    newCapacity ≤ (v.reserve (newCapacity - v.capacity) grown).capacity ↔
      Enlarged newCapacity grown v := by
  rw [Vec.reserve, hempty, List.length_nil, Nat.zero_add, Enlarged]
  split
  · omega
  · simp only
    omega

/-- **When `resize_all` keeps the promise.** -/
theorem resizeAll_promised_iff {newCapacity : ℕ} {grown : ℕ → ℕ} (h : p.AllEmpty) :
    AllPromised (p.resizeAll newCapacity grown) ↔ Resizes p (.resizeAll newCapacity grown) := by
  have hpool : ∀ i, (p.resizeAll newCapacity grown).pool[i]? =
      p.pool[i]?.map fun v : Vec α => v.reserve (newCapacity - v.capacity) (grown i) := fun i =>
    List.getElem?_mapIdx
  constructor
  · rintro hall _ _ ⟨⟩ i v hv
    have hget := hpool i
    rw [hv, Option.map_some] at hget
    have hcapacity := (hall _ (List.mem_of_getElem? hget)).capacity
    exact (le_reserve_iff (h v (List.mem_of_getElem? hv))).1 hcapacity
  · intro hresizes v hv
    obtain ⟨i, hi⟩ := List.getElem?_of_mem hv
    rw [hpool, Option.map_eq_some_iff] at hi
    obtain ⟨w, hw, rfl⟩ := hi
    have hempty := h w (List.mem_of_getElem? hw)
    exact ⟨h.resizeAll newCapacity grown _ hv, (le_reserve_iff hempty).2 (hresizes _ _ rfl i w hw)⟩

/-! ## Runs -/

theorem AllPromised.allEmpty (h : AllPromised p) : p.AllEmpty := fun v hv => (h v hv).empty

theorem promised_step {a : PoolAction α} (h : AllPromised p) (hresizes : Resizes p a)
    (hstep : p.step a = some p') : AllPromised p' := by
  cases a with
  | use items grown =>
      obtain rfl := Option.some.inj hstep
      exact promised_use h items grown
  | resizeAll newCapacity grown =>
      obtain rfl := Option.some.inj hstep
      exact (resizeAll_promised_iff h.allEmpty).2 hresizes

/-- Empty the vectors always are. -/
theorem takes_empty (amount innerCapacity : ℕ) (as : List (PoolAction α)) :
    StepsMeet step (fun p _ => p.takeVec.1.items = []) (withInitialAmount amount innerCapacity)
      as := by
  have hkeep : ∀ (p : VecPool α) a q, p.AllEmpty → True → p.step a = some q → q.AllEmpty := by
    intro p a q hp _ hstep
    cases a with
    | use items grown =>
        obtain rfl := Option.some.inj hstep
        exact hp.takeVec.returnVec _
    | resizeAll newCapacity grown =>
        obtain rfl := Option.some.inj hstep
        exact hp.resizeAll newCapacity grown
  exact stepsMeet_of_invariant hkeep (fun _ _ hp _ => hp.takeVec_items)
    (allEmpty_withInitialAmount amount innerCapacity) fun _ _ => trivial

/-- **What the pool hands out.**  In a run whose every `resize_all` brings the pooled vectors to the
new capacity, every vector taken is empty and has the promised capacity. -/
theorem takes_promised (amount innerCapacity : ℕ) {as : List (PoolAction α)}
    (hresizes : StepsMeet step Resizes (withInitialAmount amount innerCapacity) as) :
    StepsMeet step TakesPromised (withInitialAmount amount innerCapacity : VecPool α) as := by
  have hkeep : ∀ (p : VecPool α) a q, AllPromised p → Resizes p a → p.step a = some q →
      AllPromised q := fun _ _ _ => promised_step
  have htake : ∀ (p : VecPool α) a, AllPromised p → Resizes p a → TakesPromised p a :=
    fun _ _ hp _ _ _ _ => hp.takeVec
  exact stepsMeet_of_stepsMeet hkeep htake (allPromised_withInitialAmount amount innerCapacity)
    hresizes

/-- The condition is exact for what the pool holds. -/
theorem allPromised_iff_resizes {as : List (PoolAction α)} (h : AllPromised p)
    (hrun : run step p as = some p') :
    Always step AllPromised p as ↔ StepsMeet step Resizes p as := by
  refine always_iff_stepsMeet (fun _ => id) (fun _ _ _ => promised_step) ?_ h hrun
  rintro q a q' hq hbreak hstep hq'
  cases a with
  | use items grown => exact hbreak fun _ _ ha => by cases ha
  | resizeAll newCapacity grown =>
      obtain rfl := Option.some.inj hstep
      exact hbreak ((resizeAll_promised_iff hq.allEmpty).1 hq')

/-- A pooled vector is handed out when those before it have been used. -/
theorem takeVec_of_uses {before after : List (Vec α)} {v : Vec α}
    (hpool : p.pool = before ++ v :: after) :
    (run step p (List.replicate before.length (.use [] 0))).map (fun q => q.takeVec.1) =
      some v := by
  induction before generalizing p after with
  | nil =>
      rw [List.nil_append] at hpool
      simp [takeVec, hpool]
  | cons w before ih =>
      have hstep : p.step (.use [] 0) =
          some { p with pool := before ++ v :: (after ++ [(w.extend [] 0).clear]) } := by
        simp [step, takeVec, hpool, returnVec]
      rw [List.length_cons, List.replicate_succ, run_cons, hstep, Option.bind_some]
      exact ih rfl

/-- One vector of 16, resized to 24: the difference of 8 is there already. -/
def halfAgain : List (PoolAction LogData) := [.resizeAll 24 fun _ => 0, .use [] 0]

/-- The vector taken afterwards still has room for 16 items. -/
theorem halfAgain_short :
    ¬ ∀ (amount innerCapacity : ℕ) (as : List (PoolAction LogData)),
      StepsMeet step TakesPromised (withInitialAmount amount innerCapacity) as := by
  intro hall
  have hmeet := hall 1 16 halfAgain
  have htaken := ((hmeet.2 _ rfl).1 [] 0 rfl).capacity
  revert htaken
  decide

/-- Resizing to less, then using the pool. -/
theorem takes_promised_shrunk :
    StepsMeet step TakesPromised (withInitialAmount 1 16 : VecPool LogData)
      [.resizeAll 8 fun _ => 0, .use [] 0] := by
  refine takes_promised 1 16 ⟨?_, fun p _ => ⟨?_, fun _ _ => trivial⟩⟩
  · rintro newCapacity grown ha i v hv
    obtain ⟨rfl, rfl⟩ := PoolAction.resizeAll.inj ha
    rw [List.eq_of_mem_replicate (List.mem_of_getElem? hv)]
    exact .inl (by decide)
  · intro newCapacity grown ha
    cases ha

end VecPool

end Paperlog
