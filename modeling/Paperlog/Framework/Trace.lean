import Paperlog.Framework.Transition

/-!
# What a run does to an object behind it

The threads of a system share an object, and each step performs some operations on it, usually none
or one.  `trace` collects these operations in the order in which the steps are taken.  If every
step does to the object exactly what its operations do one after another (`foldl_trace`), then so
does the whole run: however the threads interleave, the object sees one sequence of operations.
`trace_account` relates that sequence to what the threads set out to do, `trace_collect` and
`trace_invariant` to what they have done, and `forall_mem_trace` carries a property of single
operations to all of it.
-/

namespace Transition

variable {σ α β : Type*} (step : σ → α → Option σ) (emit : σ → α → List β)

/-- The operations of a run, in order. -/
def trace : σ → List α → List β
  | _, [] => []
  | s, a :: as =>
      match step s a with
      | none => []
      | some t => emit s a ++ trace t as

variable {step emit}

@[simp] lemma trace_nil (s : σ) : trace step emit s [] = [] := rfl

lemma trace_cons {s t : σ} {a : α} (as : List α) (h : step s a = some t) :
    trace step emit s (a :: as) = emit s a ++ trace step emit t as := by
  simp only [trace, h]

/-- **One step at a time.**  If the operations of every step lead from the object before it to the
object after it, those of a run lead from the first object to the last. -/
theorem foldl_trace {ο : Type*} {op : ο → β → ο} {object : σ → ο}
    (hstep : ∀ s a t, step s a = some t → (emit s a).foldl op (object s) = object t) :
    ∀ {as : List α} {s t : σ}, run step s as = some t →
      (trace step emit s as).foldl op (object s) = object t := by
  intro as
  induction as with
  | nil =>
      intro s t h
      rw [run_nil, Option.some.injEq] at h
      rw [h, trace_nil, List.foldl_nil]
  | cons a as ih =>
      intro s t h
      obtain ⟨u, hu, hrun⟩ := run_cons_some h
      rw [trace_cons as hu, List.foldl_append, hstep s a u hu]
      exact ih hrun

/-- What is left to do, with what has been done put in front of it, stays the same. -/
theorem trace_account {γ : Type*} {pick : β → List γ} {left : σ → List γ}
    (hstep : ∀ s a t, step s a = some t → (emit s a).flatMap pick ++ left t = left s) :
    ∀ {as : List α} {s t : σ}, run step s as = some t →
      (trace step emit s as).flatMap pick ++ left t = left s := by
  intro as
  induction as with
  | nil =>
      intro s t h
      rw [run_nil, Option.some.injEq] at h
      rw [h, trace_nil, List.flatMap_nil, List.nil_append]
  | cons a as ih =>
      intro s t h
      obtain ⟨u, hu, hrun⟩ := run_cons_some h
      rw [trace_cons as hu, List.flatMap_append, List.append_assoc, ih hrun]
      exact hstep s a u hu

/-- What has been done so far grows by what is done.  `A` is what the run assumes of the actions
themselves. -/
theorem trace_collect {γ : Type*} {I : σ → Prop} {A : α → Prop} {pick : β → List γ}
    {got : σ → List γ} (hkeep : ∀ s a t, I s → A a → step s a = some t → I t)
    (hstep : ∀ s a t, I s → A a → step s a = some t → got t = got s ++ (emit s a).flatMap pick) :
    ∀ {as : List α} {s t : σ}, I s → (∀ a ∈ as, A a) → run step s as = some t →
      got t = got s ++ (trace step emit s as).flatMap pick := by
  intro as
  induction as with
  | nil =>
      intro s t _ _ h
      rw [run_nil, Option.some.injEq] at h
      rw [h, trace_nil, List.flatMap_nil, List.append_nil]
  | cons a as ih =>
      intro s t hs hA h
      obtain ⟨u, hu, hrun⟩ := run_cons_some h
      have ha := hA a List.mem_cons_self
      have hrest := ih (hkeep s a u hs ha hu) (fun b hb => hA b (List.mem_cons_of_mem a hb)) hrun
      rw [trace_cons as hu, List.flatMap_append, ← List.append_assoc, ← hstep s a u hs ha hu]
      exact hrest

/-- An invariant of the state together with all that has been done. -/
theorem trace_invariant {I : List β → σ → Prop}
    (hstep : ∀ bs s a t, I bs s → step s a = some t → I (bs ++ emit s a) t) :
    ∀ {as : List α} {bs : List β} {s t : σ}, I bs s → run step s as = some t →
      I (bs ++ trace step emit s as) t := by
  intro as
  induction as with
  | nil =>
      intro bs s t hs h
      rw [run_nil, Option.some.injEq] at h
      rwa [trace_nil, List.append_nil, ← h]
  | cons a as ih =>
      intro bs s t hs h
      obtain ⟨u, hu, hrun⟩ := run_cons_some h
      rw [trace_cons as hu, ← List.append_assoc]
      exact ih (hstep bs s a u hs hu) hrun

/-- What an invariant implies of the operations of a step holds of all operations of a run. -/
theorem forall_mem_trace {I : σ → Prop} {P : β → Prop}
    (hkeep : ∀ s a t, I s → step s a = some t → I t) (hP : ∀ s a, I s → ∀ b ∈ emit s a, P b) :
    ∀ {as : List α} {s : σ}, I s → ∀ b ∈ trace step emit s as, P b := by
  intro as
  induction as with
  | nil => exact fun _ b hb => absurd hb List.not_mem_nil
  | cons a as ih =>
      intro s hs b hb
      simp only [trace] at hb
      split at hb
      · exact absurd hb List.not_mem_nil
      · rename_i t ht
        rcases List.mem_append.1 hb with hb | hb
        · exact hP s a hs b hb
        · exact ih (hkeep s a t hs ht) b hb

end Transition
