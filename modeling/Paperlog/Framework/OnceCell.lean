import Paperlog.Framework.Progress
import Paperlog.Framework.Trace

/-!
# A cell that is initialised once

A cell as the threads that share it see it.  `get` looks into it; `getOrInit` initialises it, unless
that has been done.  An initialiser works on an object behind the cell and may fail, and then the
cell is unset as before.  While a thread runs its initialiser, the others wait with theirs, and `get`
finds nothing.

`perform` is what one call does where there is only one thread.  `performAll_eq` says that threads
make no difference: however they interleave, the calls that have finished were answered, and have left
the cell and the object, as if they had been made one after another in the order in which they
finished.  So at most one initialiser succeeds and all callers get its value
(`cell_of_answer`, `made_by_one`); and nobody waits for ever (`atRest_iff_finished`).
-/

namespace OnceCell

variable {ι α σ ε ω : Type*}

/-! ## Threads -/

inductive Cell (ι σ : Type*)
  | unset
  /-- This thread runs an initialiser. -/
  | running (i : ι)
  | set (value : σ)

/-- What `get` finds. -/
def Cell.value? : Cell ι σ → Option σ
  | set value => some value
  | _ => none

inductive Op (α : Type*)
  | get
  | getOrInit (arg : α)
  deriving DecidableEq

inductive Answer (σ ε : Type*)
  | got (value : Option σ)
  | has (value : σ)
  | failed (error : ε)

/-- What the caller gets, if anything. -/
def Answer.value? : Answer σ ε → Option σ
  | got value => value
  | has value => some value
  | failed _ => none

inductive Pc (α : Type*)
  | idle
  /-- In `getOrInit`, and still has to look at the cell. -/
  | entered (arg : α)
  /-- Runs its initialiser. -/
  | running (arg : α)

structure Thread (α : Type*) where
  pc : Pc α
  todo : List (Op α)

/-- The calls a thread has not finished. -/
def Thread.remaining (thread : Thread α) : List (Op α) :=
  match thread.pc with
  | .idle => thread.todo
  | .entered arg | .running arg => .getOrInit arg :: thread.todo

structure State (ι α σ ω : Type*) where
  cell : Cell ι σ
  object : ω
  threads : ι → Thread α

/-- The cell is unset, and nobody has called yet. -/
def start (object : ω) (todo : ι → List (Op α)) : State ι α σ ω :=
  { cell := .unset, object, threads := fun i => ⟨.idle, todo i⟩ }

/-- A finished call: who made it, what it was and what the answer is. -/
structure Finished (ι α σ ε : Type*) where
  thread : ι
  op : Op α
  answer : Answer σ ε

variable [DecidableEq ι] (init : α → ω → Except ε σ × ω)

/-- Thread `i` goes on with the rest of its calls. -/
def State.goTo (s : State ι α σ ω) (i : ι) (pc : Pc α) : State ι α σ ω :=
  { s with threads := Function.update s.threads i { s.threads i with pc } }

/-- Thread `i` takes a step. -/
def step (s : State ι α σ ω) (i : ι) : Option (State ι α σ ω) :=
  match (s.threads i).pc with
  | .idle =>
      match (s.threads i).todo with
      | [] => none
      | .get :: todo => some { s with threads := Function.update s.threads i ⟨.idle, todo⟩ }
      | .getOrInit arg :: todo =>
          some { s with threads := Function.update s.threads i ⟨.entered arg, todo⟩ }
  | .entered arg =>
      match s.cell with
      | .unset => some { s.goTo i (.running arg) with cell := .running i }
      | .running _ => none
      | .set _ => some (s.goTo i .idle)
  | .running arg =>
      match init arg s.object with
      | (.ok value, object) => some { s.goTo i .idle with cell := .set value, object }
      | (.error _, object) => some { s.goTo i .idle with cell := .unset, object }

/-- The call that is finished by that step. -/
def finished (s : State ι α σ ω) (i : ι) : List (Finished ι α σ ε) :=
  match (s.threads i).pc with
  | .idle =>
      match (s.threads i).todo with
      | .get :: _ => [⟨i, .get, .got s.cell.value?⟩]
      | _ => []
  | .entered arg =>
      match s.cell with
      | .set value => [⟨i, .getOrInit arg, .has value⟩]
      | _ => []
  | .running arg =>
      match init arg s.object with
      | (.ok value, _) => [⟨i, .getOrInit arg, .has value⟩]
      | (.error e, _) => [⟨i, .getOrInit arg, .failed e⟩]

/-! ## One thread -/

/-- A call, where nobody else is there: the answer, the cell and the object. -/
def perform : Option σ × ω → Op α → Answer σ ε × Option σ × ω
  | (cell, object), .get => (.got cell, cell, object)
  | (some value, object), .getOrInit _ => (.has value, some value, object)
  | (none, object), .getOrInit arg =>
      match init arg object with
      | (.ok value, object) => (.has value, some value, object)
      | (.error e, object) => (.failed e, none, object)

/-- One call after another. -/
def performAll (start : Option σ × ω) : List (Op α) → List (Answer σ ε) × Option σ × ω
  | [] => ([], start)
  | op :: ops =>
      let rest := performAll (perform init start op).2 ops
      ((perform init start op).1 :: rest.1, rest.2)

variable {init}

omit [DecidableEq ι] in
theorem performAll_append (start : Option σ × ω) (ops ops' : List (Op α)) :
    performAll init start (ops ++ ops') =
      ((performAll init start ops).1 ++ (performAll init (performAll init start ops).2 ops').1,
        (performAll init (performAll init start ops).2 ops').2) := by
  induction ops generalizing start with
  | nil => rfl
  | cons op ops ih =>
      simp only [List.cons_append, performAll, ih]

omit [DecidableEq ι] in
/-- A value that is there stays, and the object is left alone. -/
theorem performAll_some (value : σ) (object : ω) (ops : List (Op α)) :
    (performAll init (some value, object) ops).2 = (some value, object) := by
  induction ops with
  | nil => rfl
  | cons op ops ih => cases op <;> exact ih

omit [DecidableEq ι] in
/-- A call that gets a value leaves it in the cell. -/
theorem cell_perform {start : Option σ × ω} {op : Op α} {value : σ}
    (h : (perform init start op).1.value? = some value) :
    (perform init start op).2.1 = some value := by
  obtain ⟨cell, object⟩ := start
  cases op with
  | get => exact h
  | getOrInit arg =>
      cases cell with
      | some value' => exact h
      | none =>
          cases hinit : init arg object with
          | mk result object' =>
              cases result with
              | ok value' =>
                  simp only [perform, hinit] at h ⊢
                  exact h
              | error e =>
                  simp only [perform, hinit] at h
                  exact absurd h (by simp [Answer.value?])

omit [DecidableEq ι] in
/-- All calls get the same value. -/
theorem cell_performAll {start : Option σ × ω} {ops : List (Op α)} {answer : Answer σ ε}
    (hanswer : answer ∈ (performAll init start ops).1) {value : σ}
    (hvalue : answer.value? = some value) : (performAll init start ops).2.1 = some value := by
  induction ops generalizing start with
  | nil => exact absurd hanswer List.not_mem_nil
  | cons op ops ih =>
      rcases List.mem_cons.1 hanswer with rfl | hrest
      · have hcell := cell_perform hvalue
        have hnext : (perform init start op).2 = (some value, (perform init start op).2.2) :=
          Prod.ext hcell rfl
        rw [performAll, hnext, performAll_some]
      · exact ih hrest

omit [DecidableEq ι] in
/-- What is in the cell one of the initialisers has made, and nobody has touched the object since. -/
theorem made_performAll {object : ω} {ops : List (Op α)} {value : σ}
    (h : (performAll init (none, object) ops).2.1 = some value) :
    ∃ arg, .getOrInit arg ∈ ops ∧
      ∃ before, init arg before = (.ok value, (performAll init (none, object) ops).2.2) := by
  induction ops generalizing object with
  | nil => exact absurd h (by simp [performAll])
  | cons op ops ih =>
      cases op with
      | get =>
          obtain ⟨arg, harg, hmade⟩ := ih h
          exact ⟨arg, List.mem_cons_of_mem _ harg, hmade⟩
      | getOrInit arg =>
          rw [performAll] at h ⊢
          cases hinit : init arg object with
          | mk result object' =>
              cases result with
              | ok value' =>
                  have hnext : (perform init (none, object) (.getOrInit arg)).2 =
                      (some value', object') := by simp only [perform, hinit]
                  simp only [hnext, performAll_some, Option.some.injEq] at h ⊢
                  exact ⟨arg, List.mem_cons_self, object, h ▸ hinit⟩
              | error e =>
                  have hnext : (perform init (none, object) (.getOrInit arg)).2 = (none, object') := by
                    simp only [perform, hinit]
                  simp only [hnext] at h ⊢
                  obtain ⟨arg', harg, hmade⟩ := ih h
                  exact ⟨arg', List.mem_cons_of_mem _ harg, hmade⟩

/-! ## The steps -/

/-- What a step can do, with the call that is finished by it. -/
inductive Step (init : α → ω → Except ε σ × ω) (s : State ι α σ ω) (i : ι) :
    List (Finished ι α σ ε) → State ι α σ ω → Prop
  | get {todo : List (Op α)} (hpc : (s.threads i).pc = .idle)
      (htodo : (s.threads i).todo = .get :: todo) :
      Step init s i [⟨i, .get, .got s.cell.value?⟩]
        { s with threads := Function.update s.threads i ⟨.idle, todo⟩ }
  | enter {arg : α} {todo : List (Op α)} (hpc : (s.threads i).pc = .idle)
      (htodo : (s.threads i).todo = .getOrInit arg :: todo) :
      Step init s i [] { s with threads := Function.update s.threads i ⟨.entered arg, todo⟩ }
  | begin {arg : α} (hpc : (s.threads i).pc = .entered arg) (hcell : s.cell = .unset) :
      Step init s i [] { s.goTo i (.running arg) with cell := .running i }
  | found {arg : α} {value : σ} (hpc : (s.threads i).pc = .entered arg)
      (hcell : s.cell = .set value) :
      Step init s i [⟨i, .getOrInit arg, .has value⟩] (s.goTo i .idle)
  | made {arg : α} {value : σ} {object : ω} (hpc : (s.threads i).pc = .running arg)
      (hinit : init arg s.object = (.ok value, object)) :
      Step init s i [⟨i, .getOrInit arg, .has value⟩]
        { s.goTo i .idle with cell := .set value, object }
  | failed {arg : α} {e : ε} {object : ω} (hpc : (s.threads i).pc = .running arg)
      (hinit : init arg s.object = (.error e, object)) :
      Step init s i [⟨i, .getOrInit arg, .failed e⟩]
        { s.goTo i .idle with cell := .unset, object }

theorem step_sound {s s' : State ι α σ ω} {i : ι} (h : step init s i = some s') :
    Step init s i (finished init s i) s' := by
  unfold step at h
  unfold finished
  split at h
  · rename_i hpc
    split at h
    · exact absurd h (by simp)
    · rename_i htodo
      obtain rfl := Option.some.inj h
      simp only [htodo]
      exact .get hpc htodo
    · rename_i htodo
      obtain rfl := Option.some.inj h
      simp only [htodo]
      exact .enter hpc htodo
  · rename_i hpc
    split at h
    · rename_i hcell
      obtain rfl := Option.some.inj h
      simp only [hcell]
      exact .begin hpc hcell
    · exact absurd h (by simp)
    · rename_i hcell
      obtain rfl := Option.some.inj h
      simp only [hcell]
      exact .found hpc hcell
  · rename_i hpc
    split at h
    · rename_i hinit
      obtain rfl := Option.some.inj h
      exact .made hpc hinit
    · rename_i hinit
      obtain rfl := Option.some.inj h
      exact .failed hpc hinit

/-! ## Whole runs -/

/-- Who runs an initialiser is known to the cell. -/
structure Exclusive (s : State ι α σ ω) : Prop where
  running : ∀ i arg, (s.threads i).pc = .running arg → s.cell = .running i
  cell : ∀ i, s.cell = .running i → ∃ arg, (s.threads i).pc = .running arg

omit [DecidableEq ι] in
theorem exclusive_start (object : ω) (todo : ι → List (Op α)) :
    Exclusive (start object todo : State ι α σ ω) := ⟨nofun, nofun⟩

/-- What `i` does keeps this, if the cell says the same of the others as before. -/
theorem Exclusive.update {s : State ι α σ ω} (h : Exclusive s) {i : ι} {cell : Cell ι σ} {object : ω}
    {thread : Thread α} (hpc : ∀ arg, thread.pc = .running arg → cell = .running i)
    (hcell : cell = .running i → ∃ arg, thread.pc = .running arg)
    (hothers : ∀ j, j ≠ i → (cell = .running j ↔ s.cell = .running j)) :
    Exclusive { cell, object, threads := Function.update s.threads i thread } := by
  constructor
  · intro j arg hj
    rcases eq_or_ne j i with rfl | hne
    · exact hpc arg (by simpa using hj)
    · exact (hothers j hne).2 (h.running j arg (by simpa [hne] using hj))
  · intro j hj
    rcases eq_or_ne j i with rfl | hne
    · simpa using hcell hj
    · simpa [hne] using h.cell j ((hothers j hne).1 hj)

theorem exclusive_step {s s' : State ι α σ ω} {i : ι} {calls : List (Finished ι α σ ε)}
    (h : Exclusive s) (hstep : Step init s i calls s') : Exclusive s' := by
  -- A thread that runs no initialiser is not the one the cell names.
  have hnot : (∀ arg, (s.threads i).pc ≠ .running arg) → s.cell ≠ .running i := fun hpc hcell => by
    obtain ⟨arg, harg⟩ := h.cell i hcell
    exact hpc arg harg
  cases hstep with
  | get hpc _ =>
      exact h.update nofun (fun hcell => absurd hcell (hnot (by simp [hpc]))) fun _ _ => Iff.rfl
  | enter hpc _ =>
      exact h.update nofun (fun hcell => absurd hcell (hnot (by simp [hpc]))) fun _ _ => Iff.rfl
  | found hpc _ =>
      exact h.update nofun (fun hcell => absurd hcell (hnot (by simp [hpc]))) fun _ _ => Iff.rfl
  | begin hpc hcell =>
      exact h.update (fun _ _ => rfl) (fun _ => ⟨_, rfl⟩) fun j hne => by simp [hcell, hne.symm]
  | made hpc _ =>
      exact h.update nofun nofun fun j hne => by simp [h.running _ _ hpc, hne.symm]
  | failed hpc _ =>
      exact h.update nofun nofun fun j hne => by simp [h.running _ _ hpc, hne.symm]

/-- The cell and the object, as one thread would see them. -/
def State.plain (s : State ι α σ ω) : Option σ × ω := (s.cell.value?, s.object)

/-- **One step** does what the calls it finishes would do alone. -/
theorem plain_step {s s' : State ι α σ ω} {i : ι} {calls : List (Finished ι α σ ε)}
    (h : Exclusive s) (hstep : Step init s i calls s') :
    performAll init s.plain (calls.map Finished.op) = (calls.map Finished.answer, s'.plain) := by
  cases hstep with
  | get hpc htodo => rfl
  | enter hpc htodo => rfl
  | begin hpc hcell => simp [performAll, State.plain, State.goTo, hcell, Cell.value?]
  | found hpc hcell => simp [performAll, perform, State.plain, State.goTo, hcell, Cell.value?]
  | made hpc hinit =>
      have hcell := h.running _ _ hpc
      simp [performAll, perform, State.plain, hcell, Cell.value?, hinit]
  | failed hpc hinit =>
      have hcell := h.running _ _ hpc
      simp [performAll, perform, State.plain, hcell, Cell.value?, hinit]

variable (init) in
/-- The calls that are finished in a run, in order. -/
def calls (s : State ι α σ ω) (is : List ι) : List (Finished ι α σ ε) :=
  Transition.trace (step init) (finished init) s is

section Run

variable {s s' : State ι α σ ω} {is : List ι}

/-- **Threads make no difference.**  The calls of a run, made one after another in the order in which
they finish, give the same answers and leave the same cell and object. -/
theorem performAll_eq (h : Exclusive s) (hrun : Transition.run (step init) s is = some s') :
    Exclusive s' ∧ performAll init s.plain ((calls init s is).map Finished.op) =
      ((calls init s is).map Finished.answer, s'.plain) := by
  let I (done : List (Finished ι α σ ε)) (r : State ι α σ ω) : Prop :=
    Exclusive r ∧
      performAll init s.plain (done.map Finished.op) = (done.map Finished.answer, r.plain)
  have hkeep : ∀ done (r : State ι α σ ω) i r', I done r → step init r i = some r' →
      I (done ++ finished init r i) r' := by
    rintro done r i r' ⟨hexclusive, hdone⟩ hstep
    have hsound := step_sound hstep
    refine ⟨exclusive_step hexclusive hsound, ?_⟩
    rw [List.map_append, List.map_append, performAll_append, hdone, plain_step hexclusive hsound]
  have hnone : I [] s := ⟨h, rfl⟩
  exact Transition.trace_invariant hkeep hnone hrun

/-- What a thread has finished and what it has not are together its program. -/
theorem calls_account (hrun : Transition.run (step init) s is = some s') (i : ι) :
    ((calls init s is).flatMap fun call => if call.thread = i then [call.op] else []) ++
      (s'.threads i).remaining = (s.threads i).remaining := by
  have hstep : ∀ (r : State ι α σ ω) j r', step init r j = some r' →
      ((finished init r j).flatMap fun call => if call.thread = i then [call.op] else []) ++
        (r'.threads i).remaining = (r.threads i).remaining := by
    intro r j r' hstep
    have hsound := step_sound hstep
    generalize finished init r j = done at hsound
    by_cases hj : j = i
    · subst hj
      cases hsound <;> simp [Thread.remaining, State.goTo, *]
    · have hne : i ≠ j := fun h => hj h.symm
      cases hsound <;> simp [State.goTo, hj, hne]
  exact Transition.trace_account hstep hrun

end Run

section FromStart

variable {object : ω} {todo : ι → List (Op α)} {s : State ι α σ ω} {is : List ι}
  {call : Finished ι α σ ε}

/-- **Everybody gets the same value**: the one in the cell. -/
theorem cell_of_answer (hrun : Transition.run (step init) (start object todo) is = some s)
    (hcall : call ∈ calls init (start object todo) is) {value : σ}
    (hvalue : call.answer.value? = some value) : s.cell = .set value := by
  obtain ⟨-, hall⟩ := performAll_eq (exclusive_start object todo) hrun
  have hanswer : call.answer ∈ (performAll init (start object todo : State ι α σ ω).plain
      ((calls init (start object todo) is).map Finished.op)).1 := by
    rw [hall]
    exact List.mem_map_of_mem hcall
  have hcell := cell_performAll hanswer hvalue
  rw [hall] at hcell
  cases hs : s.cell with
  | set value' =>
      rw [State.plain, hs] at hcell
      exact congrArg Cell.set (Option.some.inj hcell)
  | unset =>
      rw [State.plain, hs] at hcell
      exact absurd hcell (by simp [Cell.value?])
  | running i =>
      rw [State.plain, hs] at hcell
      exact absurd hcell (by simp [Cell.value?])

/-- **One initialiser has made it**, and none has touched the object since. -/
theorem made_by_one (hrun : Transition.run (step init) (start object todo) is = some s) {value : σ}
    (hcell : s.cell = .set value) :
    ∃ call ∈ calls init (start object todo) is, ∃ arg, call.op = .getOrInit arg ∧
      ∃ before, init arg before = (.ok value, s.object) := by
  obtain ⟨-, hall⟩ := performAll_eq (exclusive_start object todo) hrun
  have hplain : (start object todo : State ι α σ ω).plain = (none, object) := rfl
  have hvalue : (performAll init (none, object)
      ((calls init (start object todo) is).map Finished.op)).2.1 = some value := by
    rw [← hplain, hall, State.plain, hcell]
    rfl
  obtain ⟨arg, harg, before, hmade⟩ := made_performAll hvalue
  obtain ⟨call, hcall, hop⟩ := List.mem_map.1 harg
  rw [← hplain, hall] at hmade
  exact ⟨call, hcall, arg, hop, before, hmade⟩

/-- A call fails because of its own initialiser. -/
theorem failed_of_answer {s : State ι α σ ω} (hcall : call ∈ calls init s is) {e : ε}
    (hanswer : call.answer = .failed e) :
    ∃ arg, call.op = .getOrInit arg ∧ ∃ before after, init arg before = (.error e, after) := by
  let P (call : Finished ι α σ ε) : Prop := call.answer = .failed e →
    ∃ arg, call.op = .getOrInit arg ∧ ∃ before after, init arg before = (.error e, after)
  have hP : ∀ (r : State ι α σ ω) i, True → ∀ call ∈ finished init r i, P call := by
    intro r i _ call hcall hfailed
    unfold finished at hcall
    split at hcall
    · split at hcall
      · obtain rfl := List.mem_singleton.1 hcall
        exact absurd hfailed (by simp)
      · exact absurd hcall List.not_mem_nil
    · split at hcall
      · obtain rfl := List.mem_singleton.1 hcall
        exact absurd hfailed (by simp)
      · exact absurd hcall List.not_mem_nil
    · split at hcall
      · obtain rfl := List.mem_singleton.1 hcall
        exact absurd hfailed (by simp)
      · rename_i hinit
        obtain rfl := List.mem_singleton.1 hcall
        obtain rfl := Answer.failed.inj hfailed
        exact ⟨_, rfl, _, _, hinit⟩
  exact Transition.forall_mem_trace (fun _ _ _ _ _ => trivial) hP trivial call hcall hanswer

end FromStart

/-- **Nobody waits for ever.**  Where no thread can take a step, all calls are finished. -/
theorem atRest_iff_finished {s : State ι α σ ω} (h : Exclusive s) :
    Transition.AtRest (step init) (fun _ => True) s ↔ ∀ i, (s.threads i).remaining = [] := by
  constructor
  · intro hrest i
    have hi := hrest i trivial
    -- Whoever runs an initialiser can go on, so the cell is not taken.
    have hfree : ∀ j, s.cell ≠ .running j := by
      intro j hj
      obtain ⟨arg, harg⟩ := h.cell j hj
      have hstuck := hrest j trivial
      unfold step at hstuck
      simp only [harg] at hstuck
      split at hstuck <;> exact absurd hstuck (by simp)
    unfold step at hi
    split at hi
    · rename_i hpc
      split at hi
      · rename_i htodo
        rw [Thread.remaining, hpc, htodo]
      · exact absurd hi (by simp)
      · exact absurd hi (by simp)
    · split at hi
      · exact absurd hi (by simp)
      · rename_i hcell
        exact absurd hcell (hfree _)
      · exact absurd hi (by simp)
    · split at hi <;> exact absurd hi (by simp)
  · intro hdone i _
    have hi := hdone i
    unfold Thread.remaining at hi
    split at hi
    · rename_i hpc
      simp only [step, hpc, hi]
    · exact absurd hi (by simp)
    · exact absurd hi (by simp)

end OnceCell
