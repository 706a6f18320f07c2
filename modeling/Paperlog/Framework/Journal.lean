import Mathlib.Data.List.Basic
import Mathlib.Order.Basic
import Mathlib.Order.Lattice
import Mathlib.Logic.Relation
import Mathlib.Tactic.Common

/-!
# An append-only journal with three cursors

The abstract purpose of an asynchronous log: entries are appended at the end and never change, and
a single consumer works through them.  `taken`, `written` and `flushed` say how far the consumer
has fetched the entries, passed them on, and made them durable; that they follow each other is part
of the structure.  Between the cursors the entries fall into the parts `done`, `hand` and
`pending`, which always add up to the whole (`done_append_hand_append_pending`).

`Step` lists what may happen to a journal: entries are only added at the end, and no cursor moves back.
-/

@[ext] structure Journal (E : Type*) where
  entries : List E
  taken : ℕ
  written : ℕ
  flushed : ℕ
  flushed_le : flushed ≤ written
  written_le : written ≤ taken
  taken_le : taken ≤ entries.length

namespace Journal

variable {E : Type*}

/-- The empty journal. -/
def empty : Journal E := ⟨[], 0, 0, 0, le_rfl, le_rfl, le_rfl⟩

section

variable (j : Journal E)

/-- The entries that have been passed on. -/
def done : List E := j.entries.take j.written

/-- The entries fetched and not yet passed on. -/
def hand : List E := (j.entries.take j.taken).drop j.written

/-- The entries not yet fetched. -/
def pending : List E := j.entries.drop j.taken

theorem done_append_hand_append_pending : j.done ++ j.hand ++ j.pending = j.entries := by
  have hdone : j.done = (j.entries.take j.taken).take j.written := by
    rw [done, List.take_take, min_eq_left j.written_le]
  rw [hdone, hand, List.take_append_drop, pending, List.take_append_drop]

theorem length_done : j.done.length = j.written := by
  have h := j.written_le.trans j.taken_le
  simp [done, h]

theorem length_pending : j.pending.length = j.entries.length - j.taken := by
  simp [pending]

/-! ## What happens to a journal -/

/-- New entries at the end. -/
def push (es : List E) : Journal E :=
  { j with
    entries := j.entries ++ es
    taken_le := j.taken_le.trans (by simp) }

/-- The consumer fetches everything there is. -/
def take : Journal E :=
  { j with
    taken := j.entries.length
    written_le := j.written_le.trans j.taken_le
    taken_le := le_rfl }

/-- The consumer passes on what it holds. -/
def write : Journal E :=
  { j with
    written := j.taken
    flushed_le := j.flushed_le.trans j.written_le
    written_le := le_rfl }

/-- What has been passed on becomes durable. -/
def flush : Journal E := { j with flushed := j.written, flushed_le := le_rfl }

theorem done_push (es : List E) : (j.push es).done = j.done := by
  have h := j.written_le.trans j.taken_le
  simp [done, push, List.take_append_of_le_length h]

theorem hand_push (es : List E) : (j.push es).hand = j.hand := by
  simp [hand, push, List.take_append_of_le_length j.taken_le]

theorem pending_push (es : List E) : (j.push es).pending = j.pending ++ es := by
  simp [pending, push, List.drop_append_of_le_length j.taken_le]

@[simp] theorem done_take : j.take.done = j.done := rfl

@[simp] theorem pending_take : j.take.pending = [] := by simp [pending, take]

/-- A consumer whose hand is empty holds exactly what was pending. -/
theorem hand_take (h : j.hand = []) : j.take.hand = j.pending := by
  have hsplit := j.done_append_hand_append_pending
  have hall := j.take.done_append_hand_append_pending
  rw [h, List.append_nil] at hsplit
  rw [pending_take, List.append_nil, done_take] at hall
  exact List.append_cancel_left (hall.trans hsplit.symm)

theorem done_write : j.write.done = j.done ++ j.hand := by
  have hsplit := j.done_append_hand_append_pending
  have hpending : j.write.pending = j.pending := rfl
  have hhand : j.write.hand = [] := by simp [hand, write]
  have hall := j.write.done_append_hand_append_pending
  rw [hhand, List.append_nil, hpending] at hall
  exact List.append_cancel_right (hall.trans hsplit.symm)

@[simp] theorem hand_write : j.write.hand = [] := by simp [hand, write]

/-- With an empty hand the consumer has passed on everything it fetched. -/
theorem written_eq_taken (h : j.hand = []) : j.written = j.taken := by
  have hlen : j.hand.length = 0 := by rw [h]; rfl
  have hw := j.written_le
  have ht := j.taken_le
  simp only [hand, List.length_drop, List.length_take] at hlen
  omega

end

/-- One step of a journal. -/
inductive Step : Journal E → Journal E → Prop
  | push (j : Journal E) (es : List E) : Step j (j.push es)
  | take (j : Journal E) : j.hand = [] → Step j j.take
  | write (j : Journal E) : Step j j.write
  | flush (j : Journal E) : Step j j.flush

end Journal
