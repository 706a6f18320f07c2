import Mathlib.Logic.Function.Basic
import Mathlib.Data.List.Basic
import Mathlib.Tactic.Common

/-!
# A reader–writer lock that prefers writers

The lock state over an arbitrary type `P` of parties: who holds a read guard, who holds the write
guard, and which writers are waiting.  The admission policy is the usual write-preferring one: a
new reader is admitted only when no writer holds the lock *and none is waiting*, a waiting writer
is admitted once every guard has been dropped.  Exclusion is a field of the structure, so a state
with a reader beside a writer cannot be built.

A program that uses the lock is described by the `Role` each party plays at its current program
point, and `Linked l role` says that the lock state agrees with those roles.  `Move` are the ways an
operation takes one party from one role to another; every move keeps `Linked` (`Linked.move`), and
two parties at incompatible program points then contradict exclusion
(`Linked.not_reading_of_writing`).  Where a party may ask for the lock again while it has a guard,
its waiting is not a role of its own; `Exact` then still accounts for the guards (`Exact.move`).
-/

/-- The state of a write-preferring reader–writer lock. -/
@[ext] structure RwLock (P : Type*) where
  readers : List P
  writer : Option P
  waiting : List P
  excl : readers = [] ∨ writer = none

namespace RwLock

variable {P : Type*}

/-- The lock nobody holds or waits for. -/
def free : RwLock P := ⟨[], none, [], .inl rfl⟩

/-- A read guard is handed out only when no writer holds the lock or waits for it. -/
def tryRead (l : RwLock P) (p : P) : Option (RwLock P) :=
  if h : l.writer = none ∧ l.waiting = [] then
    some { l with readers := p :: l.readers, excl := .inr h.1 }
  else none

/-- A writer joins the waiting writers; from now on new readers are held back. -/
def requestWrite (l : RwLock P) (p : P) : RwLock P := { l with waiting := p :: l.waiting }

/-- Dropping the write guard. -/
def releaseWrite (l : RwLock P) : RwLock P := { l with writer := none, excl := .inr rfl }

lemma tryRead_some {l l' : RwLock P} {p : P} (h : l.tryRead p = some l') :
    l.writer = none ∧ l.waiting = [] ∧
      l'.readers = p :: l.readers ∧ l'.writer = none ∧ l'.waiting = [] := by
  unfold tryRead at h
  split at h
  · rename_i hfree
    cases h
    exact ⟨hfree.1, hfree.2, rfl, hfree.1, hfree.2⟩
  · cases h

@[simp] lemma requestWrite_waiting (l : RwLock P) (p : P) :
    (l.requestWrite p).waiting = p :: l.waiting := rfl

/-- Behind a waiting writer no read guard is handed out. -/
lemma tryRead_of_waiting {l : RwLock P} {w : P} (hw : w ∈ l.waiting) (p : P) :
    l.tryRead p = none := by
  cases h : l.tryRead p with
  | none => rfl
  | some l' =>
      have hnil := (tryRead_some h).2.1
      rw [hnil] at hw
      exact absurd hw List.not_mem_nil

section DecidableEq

variable [DecidableEq P]

/-- A waiting writer gets the write guard once no guard of either kind is left. -/
def tryWrite (l : RwLock P) (p : P) : Option (RwLock P) :=
  if h : l.readers = [] ∧ l.writer = none then
    some { l with writer := some p, waiting := l.waiting.erase p, excl := .inl h.1 }
  else none

/-- Dropping a read guard. -/
def releaseRead (l : RwLock P) (p : P) : RwLock P :=
  { l with
    readers := l.readers.erase p
    excl := l.excl.imp (fun h => by simp [h]) id }

lemma tryWrite_some {l l' : RwLock P} {p : P} (h : l.tryWrite p = some l') :
    l.readers = [] ∧ l.writer = none ∧
      l'.readers = [] ∧ l'.writer = some p ∧ l'.waiting = l.waiting.erase p := by
  unfold tryWrite at h
  split at h
  · rename_i hfree
    cases h
    exact ⟨hfree.1, hfree.2, hfree.1, rfl, rfl⟩
  · cases h

/-- While a read guard is out, no writer gets in. -/
lemma tryWrite_of_reader {l : RwLock P} {r : P} (hr : r ∈ l.readers) (p : P) :
    l.tryWrite p = none := by
  cases h : l.tryWrite p with
  | none => rfl
  | some l' =>
      have hnil := (tryWrite_some h).1
      rw [hnil] at hr
      exact absurd hr List.not_mem_nil

/-- A read section of a lock nobody else uses. -/
lemma tryRead_free (p : P) : ∃ l, free.tryRead p = some l ∧ l.releaseRead p = free := by
  refine ⟨⟨[p], none, [], .inr rfl⟩, rfl, ?_⟩
  simp [releaseRead, free]

/-- A write section of a lock nobody else uses. -/
lemma tryWrite_free (p : P) :
    ∃ l, (free.requestWrite p).tryWrite p = some l ∧ l.releaseWrite = free := by
  refine ⟨⟨[], some p, [], .inl rfl⟩, ?_, rfl⟩
  simp [requestWrite, tryWrite, free]

end DecidableEq

/-! ## The lock against the program points of its users -/

/-- What a program point means for the lock. -/
inductive Role
  /-- Neither holds a guard nor waits as a writer. -/
  | out
  /-- Holds a read guard. -/
  | reading
  /-- Waits as a writer. -/
  | awaiting
  /-- Holds the write guard. -/
  | writing
  deriving DecidableEq

/-- The lock state grants `p` what its role says it has. -/
def Grants (l : RwLock P) (p : P) : Role → Prop
  | .out => True
  | .reading => p ∈ l.readers
  | .awaiting => p ∈ l.waiting
  | .writing => l.writer = some p

/-- The lock state agrees with the roles of all parties. -/
def Linked (l : RwLock P) (role : P → Role) : Prop := ∀ p, l.Grants p (role p)

namespace Linked

variable {l l' : RwLock P} {role : P → Role} {p q : P}

lemma free_out (h : ∀ p, role p = .out) : Linked (free : RwLock P) role := by
  intro p
  rw [h p]
  trivial

lemma mem_readers (h : l.Linked role) (hp : role p = .reading) : p ∈ l.readers := by
  have := h p
  rwa [hp] at this

lemma mem_waiting (h : l.Linked role) (hp : role p = .awaiting) : p ∈ l.waiting := by
  have := h p
  rwa [hp] at this

lemma writer_eq (h : l.Linked role) (hp : role p = .writing) : l.writer = some p := by
  have := h p
  rwa [hp] at this

/-- **Exclusion, at program points.**  Nobody is inside a read section while `p` is inside a
write section. -/
lemma not_reading_of_writing (h : l.Linked role) (hp : role p = .writing) :
    role q ≠ .reading := by
  intro hq
  have hr := h.mem_readers hq
  have hw := h.writer_eq hp
  rcases l.excl with hnil | hnone
  · rw [hnil] at hr
    exact absurd hr List.not_mem_nil
  · rw [hnone] at hw
    cases hw

/-- At most one party is inside a write section. -/
lemma writing_unique (h : l.Linked role) (hp : role p = .writing) (hq : role q = .writing) :
    p = q :=
  Option.some.inj ((h.writer_eq hp).symm.trans (h.writer_eq hq))

variable [DecidableEq P]

/-- The step of `p` changes only the role of `p`; every other party keeps what it had. -/
lemma update_role (hp : l'.Grants p r) (h : ∀ q, q ≠ p → l'.Grants q (role q)) :
    l'.Linked (Function.update role p r) := by
  intro q
  by_cases hq : q = p
  · subst hq
    rwa [Function.update_self]
  · rw [Function.update_of_ne hq]
    exact h q hq

lemma tryRead (h : l.Linked role) (hl : l.tryRead p = some l') :
    l'.Linked (Function.update role p .reading) := by
  obtain ⟨hw, hwait, hr', -, hwait'⟩ := tryRead_some hl
  refine update_role (by simp [Grants, hr']) fun q _ => ?_
  have hq := h q
  cases hrole : role q with
  | out => trivial
  | reading =>
      rw [hrole] at hq
      simp only [Grants, hr'] at hq ⊢
      exact List.mem_cons_of_mem _ hq
  | awaiting =>
      rw [hrole] at hq
      simp only [Grants, hwait] at hq
      exact absurd hq List.not_mem_nil
  | writing =>
      rw [hrole] at hq
      simp only [Grants, hw] at hq
      cases hq

lemma requestWrite (h : l.Linked role) :
    (l.requestWrite p).Linked (Function.update role p .awaiting) := by
  refine update_role (by simp [Grants]) fun q _ => ?_
  have hq := h q
  cases hrole : role q with
  | out => trivial
  | reading =>
      rw [hrole] at hq
      exact hq
  | awaiting =>
      rw [hrole] at hq
      exact List.mem_cons_of_mem _ hq
  | writing =>
      rw [hrole] at hq
      exact hq

lemma tryWrite (h : l.Linked role) (hl : l.tryWrite p = some l') :
    l'.Linked (Function.update role p .writing) := by
  obtain ⟨hr, hw, -, hw', hwait'⟩ := tryWrite_some hl
  refine update_role (by simp [Grants, hw']) fun q hqp => ?_
  have hq := h q
  cases hrole : role q with
  | out => trivial
  | reading =>
      rw [hrole] at hq
      simp only [Grants, hr] at hq
      exact absurd hq List.not_mem_nil
  | awaiting =>
      rw [hrole] at hq
      simp only [Grants, hwait'] at hq ⊢
      exact (List.mem_erase_of_ne hqp).2 hq
  | writing =>
      rw [hrole] at hq
      simp only [Grants, hw] at hq
      cases hq

lemma releaseRead (h : l.Linked role) :
    (l.releaseRead p).Linked (Function.update role p .out) := by
  refine update_role trivial fun q hqp => ?_
  have hq := h q
  cases hrole : role q with
  | out => trivial
  | reading =>
      rw [hrole] at hq
      exact (List.mem_erase_of_ne hqp).2 hq
  | awaiting =>
      rw [hrole] at hq
      exact hq
  | writing =>
      rw [hrole] at hq
      exact hq

lemma releaseWrite (h : l.Linked role) (hp : role p = .writing) :
    l.releaseWrite.Linked (Function.update role p .out) := by
  refine update_role trivial fun q hqp => ?_
  have hq := h q
  cases hrole : role q with
  | out => trivial
  | reading => exact absurd hrole (h.not_reading_of_writing hp)
  | awaiting =>
      rw [hrole] at hq
      exact hq
  | writing => exact absurd (h.writing_unique hrole hp) hqp

end Linked

/-! ## The moves of one party -/

section Move

variable [DecidableEq P]

/-- What `p` can do with the lock `l` in a role, and the role it has afterwards. -/
inductive Move (p : P) (l : RwLock P) : Role → RwLock P → Role → Prop
  | stay (r : Role) : Move p l r l r
  | read {l' : RwLock P} (h : l.tryRead p = some l') : Move p l .out l' .reading
  | leave : Move p l .reading (l.releaseRead p) .out
  | request : Move p l .out (l.requestWrite p) .awaiting
  | write {l' : RwLock P} (h : l.tryWrite p = some l') : Move p l .awaiting l' .writing
  | release : Move p l .writing l.releaseWrite .out

/-- How many read guards a role stands for. -/
def Role.reads : Role → ℕ
  | .reading => 1
  | _ => 0

variable {l l' : RwLock P} {role : P → Role} {p q : P} {r r' : Role}

lemma Move.of_eq (hr : r' = r) (hl : l' = l) : Move p l r l' r' := by
  subst hr hl
  exact .stay r'

lemma Linked.move (h : l.Linked role) (hmove : Move p l (role p) l' r') :
    l'.Linked (Function.update role p r') := by
  generalize hrole : role p = r at hmove
  cases hmove with
  | stay =>
      rw [← hrole, Function.update_eq_self]
      exact h
  | read hlock => exact h.tryRead hlock
  | leave => exact h.releaseRead
  | request => exact h.requestWrite
  | write hlock => exact h.tryWrite hlock
  | release => exact h.releaseWrite hrole

/-- The read guards of `p` change with its role, whatever else `p` holds. -/
lemma Move.count_self (h : Move p l r l' r') {k : ℕ} (hcount : l.readers.count p = r.reads + k) :
    l'.readers.count p = r'.reads + k := by
  cases h with
  | stay => exact hcount
  | read hlock =>
      rw [(tryRead_some hlock).2.2.1, List.count_cons_self, hcount]
      simp only [Role.reads]
      omega
  | leave =>
      rw [releaseRead, List.count_erase_self, hcount]
      simp only [Role.reads]
      omega
  | request => exact hcount
  | write hlock =>
      rw [(tryWrite_some hlock).2.2.1, ← (tryWrite_some hlock).1]
      exact hcount
  | release => exact hcount

/-- Nobody else's read guards change. -/
lemma Move.count_of_ne (h : Move p l r l' r') (hq : q ≠ p) :
    l'.readers.count q = l.readers.count q := by
  cases h with
  | stay => rfl
  | read hlock => rw [(tryRead_some hlock).2.2.1, List.count_cons_of_ne hq.symm]
  | leave => rw [releaseRead, List.count_erase_of_ne hq]
  | request => rfl
  | write hlock => rw [(tryWrite_some hlock).2.2.1, (tryWrite_some hlock).1]
  | release => rfl

/-- Only a request puts a writer into the waiting line. -/
lemma Move.waiting_nil (h : Move p l r l' r') (hwait : l.waiting = []) :
    l'.waiting = [] ∨ r = .out ∧ r' = .awaiting := by
  cases h with
  | stay => exact .inl hwait
  | read hlock => exact .inl (tryRead_some hlock).2.2.2.2
  | leave => exact .inl hwait
  | request => exact .inr ⟨rfl, rfl⟩
  | write hlock => exact .inl (by rw [(tryWrite_some hlock).2.2.2.2, hwait]; rfl)
  | release => exact .inl hwait

/-- While there is a reader, nobody leaves the waiting line. -/
lemma Move.waiting_ne_nil (h : Move p l r l' r') (hq : q ∈ l.readers) (hwait : l.waiting ≠ []) :
    l'.waiting ≠ [] := by
  cases h with
  | stay => exact hwait
  | read hlock => exact absurd (tryRead_some hlock).2.1 hwait
  | leave => exact hwait
  | request => exact List.cons_ne_nil _ _
  | write hlock =>
      rw [(tryWrite_some hlock).1] at hq
      exact absurd hq List.not_mem_nil
  | release => exact hwait

/-- Every guard that is out belongs to somebody whose role has it. -/
structure Exact (l : RwLock P) (role : P → Role) : Prop where
  readers : ∀ p, l.readers.count p = (role p).reads
  writer : ∀ p, l.writer = some p ↔ role p = .writing

namespace Exact

lemma free_out (h : ∀ p, role p = .out) : Exact (free : RwLock P) role :=
  ⟨fun p => by rw [h p]; rfl, fun p => by rw [h p]; simp [free]⟩

lemma of_role_eq {role' : P → Role} (h : l.Exact role) (hrole : ∀ p, role' p = role p) :
    l.Exact role' :=
  ⟨fun p => hrole p ▸ h.readers p, fun p => hrole p ▸ h.writer p⟩

/-- Every move keeps the accounts. -/
lemma move (h : l.Exact role) (hmove : Move p l (role p) l' r') :
    l'.Exact (Function.update role p r') := by
  refine ⟨fun q => ?_, fun q => ?_⟩
  · by_cases hq : q = p
    · subst hq
      rw [Function.update_self]
      have hcount : l.readers.count q = (role q).reads + 0 := h.readers q
      exact hmove.count_self hcount
    · rw [Function.update_of_ne hq, hmove.count_of_ne hq, h.readers q]
  · have hself := h.writer p
    have hother := h.writer q
    generalize hrole : role p = r at hmove hself
    by_cases hq : q = p
    · subst hq
      rw [Function.update_self]
      cases hmove with
      | stay => exact hself
      | read hlock => simp [(tryRead_some hlock).2.2.2.1]
      | leave => simpa [releaseRead] using hself
      | request => simpa [requestWrite] using hself
      | write hlock => simp [(tryWrite_some hlock).2.2.2.1]
      | release => simp [releaseWrite]
    · rw [Function.update_of_ne hq, ← hother]
      cases hmove with
      | stay => rfl
      | read hlock => rw [(tryRead_some hlock).1, (tryRead_some hlock).2.2.2.1]
      | leave => rfl
      | request => rfl
      | write hlock =>
          rw [(tryWrite_some hlock).2.1, (tryWrite_some hlock).2.2.2.1]
          simp [Ne.symm hq]
      | release =>
          rw [hself.2 rfl]
          simp [releaseWrite, Ne.symm hq]

/-- Whoever holds a guard is inside a section. -/
lemma inside_of_holds (h : l.Exact role) (hp : p ∈ l.readers ∨ l.writer = some p) :
    role p = .reading ∨ role p = .writing := by
  rcases hp with hp | hp
  · have hcount := h.readers p
    have hpos := List.count_pos_iff.2 hp
    cases hrole : role p with
    | reading => exact .inl rfl
    | _ =>
        rw [hrole] at hcount
        simp only [Role.reads] at hcount
        omega
  · exact .inr ((h.writer p).1 hp)

/-- And whoever is inside a section holds its guard. -/
lemma holds_of_inside (h : l.Exact role) (hp : role p = .reading ∨ role p = .writing) :
    p ∈ l.readers ∨ l.writer = some p := by
  rcases hp with hp | hp
  · have hcount := h.readers p
    rw [hp] at hcount
    exact .inl (List.count_pos_iff.1 (by rw [hcount]; exact Nat.one_pos))
  · exact .inr ((h.writer p).2 hp)

end Exact

/-- How many places in the waiting line a role stands for. -/
def Role.awaits : Role → ℕ
  | .awaiting => 1
  | _ => 0

/-- Every place in the waiting line belongs to somebody whose role is to wait. -/
def Queued (l : RwLock P) (role : P → Role) : Prop := ∀ p, l.waiting.count p = (role p).awaits

namespace Queued

lemma free_out (h : ∀ p, role p = .out) : Queued (free : RwLock P) role := fun p => by
  rw [h p]
  rfl

/-- Every move keeps the waiting line in step with the roles. -/
lemma move (h : l.Queued role) (hmove : Move p l (role p) l' r') :
    l'.Queued (Function.update role p r') := by
  intro q
  have hself := h p
  have hother := h q
  generalize hrole : role p = r at hmove hself
  by_cases hq : q = p
  · subst hq
    rw [Function.update_self]
    cases hmove with
    | stay => exact hself
    | read hlock =>
        rw [(tryRead_some hlock).2.2.2.2]
        rfl
    | leave => exact hself
    | request =>
        rw [requestWrite_waiting, List.count_cons_self, hself]
        rfl
    | write hlock =>
        rw [(tryWrite_some hlock).2.2.2.2, List.count_erase_self, hself]
        rfl
    | release => exact hself
  · rw [Function.update_of_ne hq, ← hother]
    cases hmove with
    | stay => rfl
    | read hlock => rw [(tryRead_some hlock).2.2.2.2, (tryRead_some hlock).2.1]
    | leave => rfl
    | request => rw [requestWrite_waiting, List.count_cons_of_ne (Ne.symm hq)]
    | write hlock => rw [(tryWrite_some hlock).2.2.2.2, List.count_erase_of_ne hq]
    | release => rfl

lemma awaiting_of_mem (h : l.Queued role) (hp : p ∈ l.waiting) : role p = .awaiting := by
  have hcount := h p
  have hpos := List.count_pos_iff.2 hp
  cases hrole : role p with
  | awaiting => rfl
  | _ =>
      rw [hrole] at hcount
      simp only [Role.awaits] at hcount
      omega

end Queued

/-- Whoever is inside a write section has the write guard.  Of the two halves of `Linked` this one
survives guards that no role stands for. -/
def WriteLinked (l : RwLock P) (role : P → Role) : Prop := ∀ p, role p = .writing → l.writer = some p

namespace WriteLinked

omit [DecidableEq P] in
lemma of_linked (h : l.Linked role) : l.WriteLinked role := fun _ hp => h.writer_eq hp

lemma of_exact (h : l.Exact role) : l.WriteLinked role := fun p hp => (h.writer p).2 hp

omit [DecidableEq P] in
lemma of_writer_eq (h : l.WriteLinked role) (hl : l'.writer = l.writer) : l'.WriteLinked role :=
  fun p hp => hl.trans (h p hp)

lemma move (h : l.WriteLinked role) (hmove : Move p l (role p) l' r') :
    l'.WriteLinked (Function.update role p r') := by
  intro q hq
  have hself := h p
  have hother := h q
  generalize hrole : role p = r at hmove hself
  by_cases hqp : q = p
  · subst hqp
    rw [Function.update_self] at hq
    subst hq
    cases hmove with
    | stay => exact hself rfl
    | write hlock => exact (tryWrite_some hlock).2.2.2.1
  · rw [Function.update_of_ne hqp] at hq
    have hwriter := hother hq
    cases hmove with
    | stay => exact hwriter
    | read hlock =>
        rw [(tryRead_some hlock).1] at hwriter
        cases hwriter
    | leave => exact hwriter
    | request => exact hwriter
    | write hlock =>
        rw [(tryWrite_some hlock).2.1] at hwriter
        cases hwriter
    | release => exact absurd (Option.some.inj (hwriter.symm.trans (hself rfl))) hqp

omit [DecidableEq P] in
/-- While a read guard is out, nobody is inside a write section. -/
lemma not_writing (h : l.WriteLinked role) (hp : p ∈ l.readers) (q : P) : role q ≠ .writing := by
  intro hq
  have hwriter := h q hq
  rcases l.excl with hnil | hnone
  · rw [hnil] at hp
    exact absurd hp List.not_mem_nil
  · rw [hnone] at hwriter
    cases hwriter

end WriteLinked

/-! ## A lock that nobody is inside -/

/-- Nobody is inside a section, so no guard is out. -/
lemma Exact.unheld (h : l.Exact role) (hout : ∀ p, role p ≠ .reading ∧ role p ≠ .writing) :
    l.readers = [] ∧ l.writer = none := by
  constructor
  · refine List.eq_nil_iff_forall_not_mem.2 fun p hp => ?_
    exact (h.inside_of_holds (.inl hp)).elim (hout p).1 (hout p).2
  · refine Option.eq_none_iff_forall_ne_some.2 fun p hp => ?_
    exact (h.inside_of_holds (.inr hp)).elim (hout p).1 (hout p).2

/-- **Admission.**  When nobody is inside, every writer can have the lock. -/
lemma Exact.tryWrite_isSome (h : l.Exact role)
    (hout : ∀ p, role p ≠ .reading ∧ role p ≠ .writing) (q : P) : (l.tryWrite q).isSome := by
  simp [tryWrite, h.unheld hout]

/-- And when nobody waits as a writer either, every reader can. -/
lemma Exact.tryRead_isSome (h : l.Exact role) (hqueued : l.Queued role)
    (hout : ∀ p, role p = .out) (q : P) : (l.tryRead q).isSome := by
  have hwriter := (h.unheld fun p => by simp [hout p]).2
  have hwaiting : l.waiting = [] := List.eq_nil_iff_forall_not_mem.2 fun p hp => by
    have hrole := hqueued.awaiting_of_mem hp
    rw [hout p] at hrole
    cases hrole
  simp [tryRead, hwriter, hwaiting]

end Move

/-- While somebody holds a guard, the write guard is not handed out. -/
lemma tryWrite_of_holds [DecidableEq P] {l : RwLock P} {p : P}
    (hp : p ∈ l.readers ∨ l.writer = some p) (q : P) : l.tryWrite q = none := by
  rcases hp with hp | hp
  · exact tryWrite_of_reader hp q
  · exact dif_neg fun hfree => by simp [hfree.2] at hp

end RwLock
