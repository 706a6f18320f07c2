import Mathlib.Data.List.Infix
import Mathlib.Tactic.Common

/-!
# Text made of fields and delimiters

A line of text often is a row of fields, each followed by a delimiter that depends on its place, and
then the rest of the line.  Nothing is escaped, so the reader looks for the first occurrence of the
delimiter (`breakAt`), and gets the field back exactly when the delimiter behind the field is that
first occurrence: `EndsAt sep field`.  `readFields_append_iff` is the round trip for a whole row.

Lines work the same way with one character as the delimiter and any number of fields; what stands
behind the last delimiter is no line yet.  `terminatedBy` returns the lines that are complete.
-/

namespace List

variable {α : Type*}

section Fields

variable [DecidableEq α]

/-! ## One field -/

/-- What stands before the first occurrence of `sep`, and what stands behind it. -/
def breakAt (sep : List α) : List α → Option (List α × List α)
  | [] => none
  | x :: xs =>
      if sep.isPrefixOf (x :: xs) then some ([], (x :: xs).drop sep.length)
      else (breakAt sep xs).map fun (field, rest) => (x :: field, rest)

/-- Where `field` is followed by `sep`, that is the first occurrence of `sep`. -/
def EndsAt (sep field : List α) : Prop := breakAt sep (field ++ sep) = some (field, [])

instance (sep field : List α) : Decidable (EndsAt sep field) :=
  inferInstanceAs (Decidable (_ = _))

variable {sep field rest : List α}

/-- Nothing is lost where a text is broken. -/
theorem breakAt_sound {xs : List α} (h : breakAt sep xs = some (field, rest)) :
    xs = field ++ (sep ++ rest) := by
  induction xs generalizing field with
  | nil => cases h
  | cons x xs ih =>
      rw [breakAt] at h
      split at h
      · rename_i hfront
        obtain ⟨rfl, rfl⟩ := Prod.mk.inj (Option.some.inj h)
        obtain ⟨tail, htail⟩ := isPrefixOf_iff_prefix.1 hfront
        rw [← htail, drop_left, nil_append]
      · obtain ⟨⟨field', rest'⟩, hrec, heq⟩ := Option.map_eq_some_iff.1 h
        obtain ⟨rfl, rfl⟩ := Prod.mk.inj heq
        rw [ih hrec, cons_append]

theorem breakAt_eq_none_of_not_mem {a : α} {xs : List α} (ha : a ∈ sep) (hxs : a ∉ xs) :
    breakAt sep xs = none := by
  cases hbreak : breakAt sep xs with
  | none => rfl
  | some r =>
      rw [breakAt_sound hbreak] at hxs
      exact absurd (mem_append_right _ (mem_append_left _ ha)) hxs

omit [DecidableEq α] in
/-- Whether a list is found at the front does not depend on what stands further behind. -/
theorem prefix_append_iff_of_length_le {xs : List α} (h : sep.length ≤ xs.length) :
    sep <+: xs ++ rest ↔ sep <+: xs :=
  ⟨fun hfront => prefix_of_prefix_length_le hfront (prefix_append xs rest) h,
    fun hfront => hfront.trans (prefix_append xs rest)⟩

theorem breakAt_append_nil (hsep : sep ≠ []) : breakAt sep (sep ++ rest) = some ([], rest) := by
  obtain ⟨s, seps, rfl⟩ := exists_cons_of_ne_nil hsep
  have hfront : (s :: seps).isPrefixOf (s :: (seps ++ rest)) = true :=
    isPrefixOf_iff_prefix.2 (prefix_append (s :: seps) rest)
  rw [cons_append, breakAt, if_pos hfront, ← cons_append, drop_left]

theorem breakAt_cons_append_iff {x : α} :
    breakAt sep (x :: (field ++ (sep ++ rest))) = some (x :: field, rest) ↔
      ¬ sep <+: x :: (field ++ sep) ∧ breakAt sep (field ++ (sep ++ rest)) = some (field, rest) := by
  have hlength : sep.length ≤ (x :: (field ++ sep)).length := by simp; omega
  have hfront : sep.isPrefixOf (x :: (field ++ (sep ++ rest))) = true ↔
      sep <+: x :: (field ++ sep) := by
    rw [ isPrefixOf_iff_prefix, ← append_assoc, ← cons_append,
      prefix_append_iff_of_length_le hlength]
  rw [breakAt]
  by_cases hfound : sep <+: x :: (field ++ sep)
  · simp [hfront.2 hfound, hfound]
  · rw [if_neg (fun h => hfound (hfront.1 h)), Option.map_eq_some_iff]
    constructor
    · rintro ⟨⟨field', rest'⟩, hrec, heq⟩
      obtain ⟨hcons, rfl⟩ := Prod.mk.inj heq
      obtain ⟨-, rfl⟩ := cons_eq_cons.1 hcons
      exact ⟨hfound, hrec⟩
    · exact fun h => ⟨(field, rest), h.2, rfl⟩

theorem endsAt_nil (hsep : sep ≠ []) : EndsAt sep [] := by
  have h : breakAt sep (sep ++ []) = some ([], []) := breakAt_append_nil hsep
  rwa [append_nil] at h

theorem endsAt_cons_iff {x : α} :
    EndsAt sep (x :: field) ↔ ¬ sep <+: x :: (field ++ sep) ∧ EndsAt sep field := by
  have h : breakAt sep (x :: (field ++ (sep ++ []))) = some (x :: field, []) ↔
      ¬ sep <+: x :: (field ++ sep) ∧ breakAt sep (field ++ (sep ++ [])) = some (field, []) :=
    breakAt_cons_append_iff
  rwa [append_nil] at h

/-- **Breaking gives the field back** exactly where the delimiter behind it is the first. -/
theorem breakAt_append_iff (hsep : sep ≠ []) (rest : List α) :
    breakAt sep (field ++ (sep ++ rest)) = some (field, rest) ↔ EndsAt sep field := by
  induction field with
  | nil =>
      simp [breakAt_append_nil hsep, endsAt_nil hsep]
  | cons x field ih => rw [cons_append, breakAt_cons_append_iff, ih, endsAt_cons_iff]

/-- A field ends at its delimiter if some element of the delimiter does not occur in the field. -/
theorem endsAt_of_not_mem {a : α} (ha : a ∈ sep) (hfield : a ∉ field) : EndsAt sep field := by
  have hsep : sep ≠ [] := ne_nil_of_mem ha
  induction field with
  | nil => exact endsAt_nil hsep
  | cons x field ih =>
      refine endsAt_cons_iff.2 ⟨?_, ih fun h => hfield (mem_cons_of_mem x h)⟩
      -- An occurrence in front would have the element earlier than the delimiter has it.
      rintro ⟨tail, htail⟩
      have hindex := congrArg (idxOf a) htail
      rw [idxOf_append_of_mem ha, ← cons_append, idxOf_append_of_notMem hfield,
        length_cons] at hindex
      omega

/-! ## A row of fields -/

/-- Each field with its delimiter, then the rest. -/
def printFields (fields : List (List α × List α)) (rest : List α) : List α :=
  fields.foldr (fun field text => field.1 ++ (field.2 ++ text)) rest

/-- One field for each delimiter, and what is left. -/
def readFields : List (List α) → List α → Option (List (List α) × List α)
  | [], xs => some ([], xs)
  | sep :: seps, xs => do
      let (field, xs) ← breakAt sep xs
      let (fields, rest) ← readFields seps xs
      some (field :: fields, rest)

theorem readFields_cons_eq_some {seps fields : List (List α)} {xs : List α} :
    readFields (sep :: seps) xs = some (fields, rest) ↔
      ∃ field xs' fields', breakAt sep xs = some (field, xs') ∧
        readFields seps xs' = some (fields', rest) ∧ fields = field :: fields' := by
  constructor
  · intro h
    obtain ⟨⟨field, xs'⟩, hbreak, h⟩ := Option.bind_eq_some_iff.1 h
    obtain ⟨⟨fields', rest'⟩, hread, h⟩ := Option.bind_eq_some_iff.1 h
    obtain ⟨rfl, rfl⟩ := Prod.mk.inj (Option.some.inj h)
    exact ⟨field, xs', fields', hbreak, hread, rfl⟩
  · rintro ⟨field, xs', fields', hbreak, hread, rfl⟩
    simp [readFields, hbreak, hread]

/-- What has been read is the text, cut into pieces. -/
theorem readFields_sound {seps fields : List (List α)} {xs : List α}
    (h : readFields seps xs = some (fields, rest)) :
    fields.length = seps.length ∧ xs = printFields (fields.zip seps) rest := by
  induction seps generalizing xs fields with
  | nil =>
      obtain ⟨rfl, rfl⟩ := Prod.mk.inj (Option.some.inj h)
      exact ⟨rfl, rfl⟩
  | cons sep seps ih =>
      obtain ⟨field, xs', fields', hbreak, hread, rfl⟩ := readFields_cons_eq_some.1 h
      obtain ⟨hlength, hxs⟩ := ih hread
      refine ⟨congrArg (· + 1) hlength, ?_⟩
      rw [breakAt_sound hbreak, hxs]
      rfl

/-- **The round trip.**  The fields of a row come back exactly when each of them ends at its
delimiter, whatever follows the row. -/
theorem readFields_append_iff {fields : List (List α × List α)}
    (hsep : ∀ field ∈ fields, field.2 ≠ []) (rest : List α) :
    readFields (fields.map Prod.snd) (printFields fields rest) =
      some (fields.map Prod.fst, rest) ↔ ∀ field ∈ fields, EndsAt field.2 field.1 := by
  induction fields with
  | nil => simp [readFields, printFields]
  | cons field fields ih =>
      obtain ⟨hne, htail⟩ := forall_mem_cons.1 hsep
      rw [forall_mem_cons, map_cons, map_cons, readFields_cons_eq_some, ← ih htail,
        ← breakAt_append_iff hne (printFields fields rest)]
      constructor
      · rintro ⟨field', xs', fields', hbreak, hread, heq⟩
        obtain ⟨rfl, rfl⟩ := cons_eq_cons.1 heq
        have hxs : printFields fields rest = xs' := by
          have hsound := breakAt_sound hbreak
          exact append_cancel_left (append_cancel_left hsound)
        rw [← hxs] at hbreak hread
        exact ⟨hbreak, hread⟩
      · rintro ⟨hbreak, hread⟩
        exact ⟨field.1, _, _, hbreak, hread, rfl⟩

end Fields

/-! ## Lines -/

section Lines

variable [BEq α] {a : α}

/-- The pieces that are followed by the separator. -/
def terminatedBy (a : α) (xs : List α) : List (List α) := (xs.splitOn a).dropLast

@[simp] theorem terminatedBy_nil : terminatedBy a [] = [] := rfl

theorem terminatedBy_cons (x : α) (xs : List α) :
    terminatedBy a (x :: xs) =
      if x == a then [] :: terminatedBy a xs else (terminatedBy a xs).modifyHead (cons x) := by
  obtain ⟨piece, pieces, hpieces⟩ := exists_cons_of_ne_nil (splitOn_ne_nil a xs)
  rw [terminatedBy, terminatedBy, splitOn_cons_eq_if_modifyHead, hpieces]
  split
  · rfl
  · cases pieces <;> rfl

/-- The complete lines of a text stay as they are when the text goes on. -/
theorem terminatedBy_mono {xs ys : List α} (h : xs <+: ys) :
    terminatedBy a xs <+: terminatedBy a ys := by
  obtain ⟨rest, rfl⟩ := h
  induction xs with
  | nil => exact nil_prefix
  | cons x xs ih =>
      rw [cons_append, terminatedBy_cons, terminatedBy_cons]
      split
      · exact (prefix_cons_inj []).2 ih
      · obtain ⟨more, hmore⟩ := ih
        rw [← hmore]
        cases terminatedBy a xs with
        | nil => exact nil_prefix
        | cons line lines => exact prefix_append _ _

variable [LawfulBEq α]

/-- Behind a separator the lines start afresh. -/
theorem terminatedBy_append_cons (xs ys : List α) :
    terminatedBy a (xs ++ a :: ys) = xs.splitOn a ++ terminatedBy a ys := by
  rw [terminatedBy, splitOn_append_cons_self, dropLast_append_of_ne_nil (splitOn_ne_nil a ys),
    terminatedBy]

theorem splitOn_ne_singleton_of_mem {xs : List α} (h : a ∈ xs) :
    2 ≤ (xs.splitOn a).length := by
  obtain ⟨before, after, rfl⟩ := append_of_mem h
  rw [splitOn_append_cons_self, length_append]
  have hbefore := length_pos_iff.2 (splitOn_ne_nil a before)
  have hafter := length_pos_iff.2 (splitOn_ne_nil a after)
  omega

/-- One line and its separator. -/
theorem terminatedBy_concat_eq_singleton_iff {xs line : List α} :
    terminatedBy a (xs ++ [a]) = [line] ↔ a ∉ xs ∧ xs = line := by
  rw [terminatedBy_append_cons, terminatedBy_nil, append_nil]
  constructor
  · intro h
    have hmem : a ∉ xs := by
      intro hmem
      have hlength := splitOn_ne_singleton_of_mem hmem
      rw [h, length_singleton] at hlength
      omega
    rw [splitOn_eq_singleton hmem] at h
    exact ⟨hmem, (cons_eq_cons.1 h).1⟩
  · rintro ⟨hmem, rfl⟩
    exact splitOn_eq_singleton hmem

/-- Texts that end with the separator are read one after another. -/
theorem terminatedBy_flatMap {β : Type*} (text : β → List α) (bs : List β) (rest : List α) :
    terminatedBy a (bs.flatMap (fun b => text b ++ [a]) ++ rest) =
      bs.flatMap (fun b => terminatedBy a (text b ++ [a])) ++ terminatedBy a rest := by
  induction bs with
  | nil => rfl
  | cons b bs ih =>
      have hassoc : (text b ++ [a]) ++ bs.flatMap (fun b => text b ++ [a]) ++ rest =
          text b ++ a :: (bs.flatMap (fun b => text b ++ [a]) ++ rest) := by simp
      rw [flatMap_cons, flatMap_cons, hassoc, terminatedBy_append_cons, ih,
        terminatedBy_append_cons, terminatedBy_nil, append_nil, append_assoc]

section Read

variable {β γ : Type*} {text : β → List α} {value : β → γ} {read : List α → γ}

/-- Every text has a line, and so there are no fewer lines than texts. -/
theorem length_le_length_lines (text : β → List α) (read : List α → γ) (bs : List β) :
    bs.length ≤ (bs.flatMap fun b => (terminatedBy a (text b ++ [a])).map read).length := by
  induction bs with
  | nil => exact Nat.zero_le _
  | cons b bs ih =>
      have hone := length_pos_iff.2 (splitOn_ne_nil a (text b))
      rw [flatMap_cons, length_append, length_map, terminatedBy_append_cons, terminatedBy_nil,
        append_nil, length_cons]
      omega

/-- The texts together are read as their values exactly when each of them is: one that has several
lines is not made up for by another. -/
theorem map_terminatedBy_flatMap_iff {bs : List β} :
    (terminatedBy a (bs.flatMap fun b => text b ++ [a])).map read = bs.map value ↔
      ∀ b ∈ bs, (terminatedBy a (text b ++ [a])).map read = [value b] := by
  have hlines : terminatedBy a (bs.flatMap fun b => text b ++ [a]) =
      bs.flatMap fun b => terminatedBy a (text b ++ [a]) := by
    simpa using terminatedBy_flatMap text bs []
  rw [hlines, map_flatMap]
  clear hlines
  induction bs with
  | nil => simp
  | cons b bs ih =>
      have hvalues : (b :: bs).map value = [value b] ++ bs.map value := rfl
      rw [flatMap_cons, hvalues, forall_mem_cons]
      refine Iff.trans ?_ (and_congr_right fun _ => ih)
      constructor
      · intro h
        refine append_inj h ?_
        have hfirst := length_le_length_lines (a := a) text read [b]
        have hothers := length_le_length_lines (a := a) text read bs
        have hlength := congrArg length h
        rw [flatMap_singleton] at hfirst
        simp only [length_append, length_map, length_singleton] at hfirst hlength ⊢
        omega
      · rintro ⟨hfirst, hothers⟩
        rw [hfirst, hothers]

end Read

end Lines

end List
