import Mathlib.Data.List.Basic
import Mathlib.Tactic.Common

/-!
# The pool of vectors (`src/vec_pool.rs`)

`log_thread` draws the vector it leaves in the queue from a pool.  `Vec` keeps a vector's items
together with its capacity; `VecPoolGuard`'s drop is `returnVec`.

`Vec::reserve` promises room for so many more items than the vector holds; how much room it makes
beyond that is up to it, so the capacity it would like best, `grown`, is an argument here.  A guard
borrows the pool, so nothing happens to the pool between `take_vec` and the drop, and the two are
one `PoolAction`.
-/

namespace Paperlog

structure Vec (α : Type) where
  items : List α
  capacity : ℕ

namespace Vec

variable {α : Type}

/-- `Vec::with_capacity`. -/
def withCapacity (capacity : ℕ) : Vec α := ⟨[], capacity⟩

/-- `Vec::clear`: the items go, the allocation stays. -/
def clear (v : Vec α) : Vec α := { v with items := [] }

/-- `Vec::reserve`. -/
def reserve (v : Vec α) (additional grown : ℕ) : Vec α :=
  if v.items.length + additional ≤ v.capacity then v
  else { v with capacity := max grown (v.items.length + additional) }

/-- `Vec::extend`, or so many calls of `push`. -/
def extend (v : Vec α) (items : List α) (grown : ℕ) : Vec α :=
  { v.reserve items.length grown with items := v.items ++ items }

lemma items_reserve (v : Vec α) (additional grown : ℕ) :
    (v.reserve additional grown).items = v.items := by
  unfold reserve
  split <;> rfl

lemma capacity_le_reserve (v : Vec α) (additional grown : ℕ) :
    v.capacity ≤ (v.reserve additional grown).capacity := by
  unfold reserve
  split
  · exact Nat.le_refl _
  · simp only
    omega

lemma capacity_le_extend (v : Vec α) (items : List α) (grown : ℕ) :
    v.capacity ≤ (v.extend items grown).capacity :=
  v.capacity_le_reserve items.length grown

end Vec

structure VecPool (α : Type) where
  pool : List (Vec α)
  innerCapacity : ℕ

namespace VecPool

variable {α : Type}

/-- `VecPool::with_initial_amount`. -/
def withInitialAmount (amount innerCapacity : ℕ) : VecPool α :=
  { pool := List.replicate amount (.withCapacity innerCapacity), innerCapacity }

/-- `VecPool::take_vec`: the front of the pool, or a new vector when the pool is empty. -/
def takeVec (p : VecPool α) : Vec α × VecPool α :=
  match p.pool with
  | [] => (.withCapacity p.innerCapacity, p)
  | v :: rest => (v, { p with pool := rest })

/-- `VecPool::return_vec`. -/
def returnVec (p : VecPool α) (v : Vec α) : VecPool α := { p with pool := p.pool ++ [v.clear] }

/-- `VecPool::resize_all`; `grown` answers for every vector of the pool. -/
def resizeAll (p : VecPool α) (newCapacity : ℕ) (grown : ℕ → ℕ) : VecPool α :=
  { pool := p.pool.mapIdx fun i v => v.reserve (newCapacity - v.capacity) (grown i)
    innerCapacity := newCapacity }

/-- What can be done with a pool. -/
inductive PoolAction (α : Type)
  /-- `take_vec`, then the items are put in through the guard, then the guard is dropped. -/
  | use (items : List α) (grown : ℕ)
  | resizeAll (newCapacity : ℕ) (grown : ℕ → ℕ)

def step (p : VecPool α) : PoolAction α → Option (VecPool α)
  | .use items grown =>
      let (vec, p) := p.takeVec
      some (p.returnVec (vec.extend items grown))
  | .resizeAll newCapacity grown => some (p.resizeAll newCapacity grown)

/-- All pooled vectors are empty. -/
def AllEmpty (p : VecPool α) : Prop := ∀ v ∈ p.pool, v.items = []

lemma allEmpty_withInitialAmount (amount innerCapacity : ℕ) :
    (withInitialAmount amount innerCapacity : VecPool α).AllEmpty := by
  intro v hv
  rw [List.eq_of_mem_replicate hv]
  rfl

/-! ## What a use does to the pool -/

variable {p : VecPool α}

/-- A vector that is taken is a new one or comes from the pool. -/
lemma takeVec_of_forall {P : Vec α → Prop} (hnew : P (.withCapacity p.innerCapacity))
    (hpool : ∀ v ∈ p.pool, P v) : P p.takeVec.1 := by
  unfold takeVec
  split
  · exact hnew
  · rename_i v rest hfront
    exact hpool v (hfront ▸ List.mem_cons_self)

lemma mem_of_mem_takeVec {v : Vec α} (hv : v ∈ p.takeVec.2.pool) : v ∈ p.pool := by
  unfold takeVec at hv
  split at hv
  · exact hv
  · rename_i w rest hfront
    exact hfront ▸ List.mem_cons_of_mem w hv

lemma innerCapacity_takeVec (p : VecPool α) : p.takeVec.2.innerCapacity = p.innerCapacity := by
  unfold takeVec
  split
  · rfl
  · rfl

lemma mem_returnVec {v w : Vec α} (hw : w ∈ (p.returnVec v).pool) : w ∈ p.pool ∨ w = v.clear :=
  (List.mem_append.1 hw).imp_right List.mem_singleton.1

/-! ## Empty vectors stay empty -/

lemma AllEmpty.takeVec_items (h : p.AllEmpty) : p.takeVec.1.items = [] :=
  takeVec_of_forall (P := fun v => v.items = []) rfl h

lemma AllEmpty.takeVec (h : p.AllEmpty) : p.takeVec.2.AllEmpty :=
  fun v hv => h v (mem_of_mem_takeVec hv)

/-- Returning clears, so whatever was put into a vector the pool stays empty inside. -/
lemma AllEmpty.returnVec (h : p.AllEmpty) (v : Vec α) : (p.returnVec v).AllEmpty := by
  intro w hw
  rcases mem_returnVec hw with hw | rfl
  · exact h w hw
  · rfl

lemma AllEmpty.resizeAll (h : p.AllEmpty) (newCapacity : ℕ) (grown : ℕ → ℕ) :
    (p.resizeAll newCapacity grown).AllEmpty := by
  intro v hv
  obtain ⟨i, hi, rfl⟩ := List.mem_mapIdx.1 hv
  rw [Vec.items_reserve]
  exact h _ (List.getElem_mem hi)

end VecPool

end Paperlog
