import Mathlib.Data.List.Basic
import Mathlib.Tactic.Common

/-!
# Paths as lists of components

A path, read lexically, is a list of components: the root, `.`, `..`, or a name, over an arbitrary
type `ν` of names.  `walk here path` follows a path from a place, where the place is itself such a
list: a name goes down, `.` stays, `..` goes up one level (from the root it stays there, and with
nothing left to go up to it is remembered), and the root starts over.  `normalizeLexically` walks
from nowhere, so it leaves no `.` and no `..` behind a name.

`Below base place` says that the place is reached from `base` by going down at least one level.  The
rules at the end are about the last name of a path, which is where extensions are changed:
`mapLast f` rewrites it, an injective `f` loses nothing (`mapLast_inj`), and whether a path leads
below a place does not depend on what its last name is (`below_walk_mapLast`).  `fileAt here path` is
the place of a file: only a path that ends in a name can name one, and its place ends in that name
(`fileAt_mapLast`).
-/

namespace LexicalPath

inductive Component (ν : Type*)
  | rootDir
  | curDir
  | parentDir
  | normal (name : ν)
  deriving DecidableEq

variable {ν : Type*}

/-- One component further. -/
def push (here : List (Component ν)) : Component ν → List (Component ν)
  | .rootDir => [.rootDir]
  | .curDir => here
  | .parentDir =>
      match here.getLast? with
      | some (.normal _) => here.dropLast
      | some .rootDir => here
      | _ => here ++ [.parentDir]
  | .normal name => here ++ [.normal name]

/-- Where `path` leads from `here`. -/
def walk (here path : List (Component ν)) : List (Component ν) := path.foldl push here

/-- The path without `.` and without `..` behind a name. -/
def normalizeLexically (path : List (Component ν)) : List (Component ν) := walk [] path

theorem walk_append (here path path' : List (Component ν)) :
    walk here (path ++ path') = walk (walk here path) path' :=
  List.foldl_append

theorem walk_concat_normal (here path : List (Component ν)) (name : ν) :
    walk here (path ++ [.normal name]) = walk here path ++ [.normal name] := by
  rw [walk_append]
  rfl

theorem walk_names (here : List (Component ν)) (names : List ν) :
    walk here (names.map .normal) = here ++ names.map .normal := by
  induction names generalizing here with
  | nil => simp [walk]
  | cons name names ih =>
      have hstep : walk here ((name :: names).map .normal) =
          walk (here ++ [.normal name]) (names.map .normal) := rfl
      rw [hstep, ih]
      simp

/-! ## Below a place -/

/-- `place` lies under `base`, at least one level down. -/
def Below (base place : List (Component ν)) : Prop :=
  ∃ names : List ν, names ≠ [] ∧ place = base ++ names.map .normal

/-- Whether a component is a name. -/
def Component.isNormal : Component ν → Bool
  | .normal _ => true
  | _ => false

/-- Components that are names are the names of a path. -/
theorem exists_names {path : List (Component ν)} (h : ∀ c ∈ path, c.isNormal) :
    ∃ names : List ν, path = names.map .normal := by
  induction path with
  | nil => exact ⟨[], rfl⟩
  | cons c path ih =>
      obtain ⟨names, rfl⟩ := ih fun d hd => h d (List.mem_cons_of_mem c hd)
      cases c with
      | normal name => exact ⟨name :: names, rfl⟩
      | _ => simpa [Component.isNormal] using h _ List.mem_cons_self

/-- `Below`, as it is checked: `base` is a proper prefix, and names come after it. -/
theorem below_iff {base place : List (Component ν)} :
    Below base place ↔
      base <+: place ∧ place ≠ base ∧ ∀ c ∈ place.drop base.length, c.isNormal := by
  constructor
  · rintro ⟨names, hne, rfl⟩
    refine ⟨List.prefix_append _ _, by simpa using hne, fun c hc => ?_⟩
    rw [List.drop_left] at hc
    obtain ⟨name, -, rfl⟩ := List.mem_map.1 hc
    rfl
  · rintro ⟨⟨rest, rfl⟩, hne, hnames⟩
    rw [List.drop_left] at hnames
    obtain ⟨names, rfl⟩ := exists_names hnames
    exact ⟨names, by rintro rfl; exact hne (List.append_nil base), rfl⟩

instance [DecidableEq ν] (base place : List (Component ν)) : Decidable (Below base place) :=
  decidable_of_iff _ below_iff.symm

theorem not_below_self (base : List (Component ν)) : ¬ Below base base := by
  rintro ⟨names, hne, hplace⟩
  have hnil : (names.map Component.normal : List (Component ν)) = [] := by simpa using hplace
  exact hne (List.map_eq_nil_iff.1 hnil)

/-- The last name of a place says nothing about where the place lies. -/
theorem below_concat_iff {base place : List (Component ν)} {name : ν} :
    Below base (place ++ [.normal name]) ↔ ∃ names : List ν, place = base ++ names.map .normal := by
  constructor
  · rintro ⟨names, hne, hplace⟩
    rcases List.eq_nil_or_concat names with rfl | ⟨names, last, rfl⟩
    · exact absurd rfl hne
    · rw [List.concat_eq_append, List.map_append, ← List.append_assoc] at hplace
      exact ⟨names, (List.append_inj' hplace rfl).1⟩
  · rintro ⟨names, rfl⟩
    exact ⟨names ++ [name], by simp, by simp⟩

/-! ## The last name -/

/-- Rewrites the last component, if it is a name. -/
def mapLast (f : ν → ν) (path : List (Component ν)) : List (Component ν) :=
  match path.getLast? with
  | some (.normal name) => path.dropLast ++ [.normal (f name)]
  | _ => path

@[simp] theorem mapLast_concat (f : ν → ν) (path : List (Component ν)) (name : ν) :
    mapLast f (path ++ [.normal name]) = path ++ [.normal (f name)] := by
  simp [mapLast]

/-- A path ends in a name, or `mapLast` leaves it alone. -/
theorem concat_or_mapLast_eq (path : List (Component ν)) :
    (∃ before name, path = before ++ [.normal name]) ∨
      (∀ f : ν → ν, mapLast f path = path) ∧ ∀ before name, path ≠ before ++ [.normal name] := by
  rcases List.eq_nil_or_concat path with rfl | ⟨before, last, rfl⟩
  · exact .inr ⟨fun f => rfl, by simp⟩
  · rw [List.concat_eq_append]
    cases last with
    | normal name => exact .inl ⟨before, name, rfl⟩
    | _ =>
        refine .inr ⟨fun f => by simp [mapLast], fun before' name h => ?_⟩
        have hlast := List.singleton_inj.1 (List.append_inj' h rfl).2
        cases hlast

theorem mapLast_mapLast (f g : ν → ν) (path : List (Component ν)) :
    mapLast f (mapLast g path) = mapLast (fun name => f (g name)) path := by
  rcases concat_or_mapLast_eq path with ⟨before, name, rfl⟩ | ⟨hkeep, -⟩
  · simp
  · rw [hkeep, hkeep, hkeep]

theorem mapLast_inj {f : ν → ν} (hf : Function.Injective f) {path path' : List (Component ν)} :
    mapLast f path = mapLast f path' ↔ path = path' := by
  refine ⟨fun h => ?_, fun h => h ▸ rfl⟩
  rcases concat_or_mapLast_eq path with ⟨before, name, rfl⟩ | ⟨hkeep, hnot⟩ <;>
    rcases concat_or_mapLast_eq path' with ⟨before', name', rfl⟩ | ⟨hkeep', hnot'⟩
  · rw [mapLast_concat, mapLast_concat] at h
    obtain ⟨rfl, hlast⟩ := List.append_inj' h rfl
    rw [List.singleton_inj, Component.normal.injEq] at hlast
    rw [hf hlast]
  · rw [mapLast_concat, hkeep'] at h
    exact absurd h.symm (hnot' _ _)
  · rw [mapLast_concat, hkeep] at h
    exact absurd h (hnot _ _)
  · rwa [hkeep, hkeep'] at h

/-- **Whether a path leads below a place does not depend on its last name.** -/
theorem below_walk_mapLast {base here path : List (Component ν)} (f : ν → ν) :
    Below base (walk here (mapLast f path)) ↔ Below base (walk here path) := by
  rcases concat_or_mapLast_eq path with ⟨before, name, rfl⟩ | ⟨hkeep, -⟩
  · rw [mapLast_concat, walk_concat_normal, walk_concat_normal, below_concat_iff, below_concat_iff]
  · rw [hkeep]

/-- The file a path names, followed from `here`.  A path that does not end in a name leads to a
directory. -/
def fileAt (here path : List (Component ν)) : Option (List (Component ν)) :=
  match path.getLast? with
  | some (.normal _) => some (walk here path)
  | _ => none

@[simp] theorem fileAt_concat_normal (here path : List (Component ν)) (name : ν) :
    fileAt here (path ++ [.normal name]) = some (walk here path ++ [.normal name]) := by
  simp [fileAt, walk_concat_normal]

/-- What rewrites the last name of a path rewrites the last name of its file. -/
theorem fileAt_mapLast (f : ν → ν) (here path : List (Component ν)) :
    fileAt here (mapLast f path) = (fileAt here path).map (mapLast f) := by
  rcases concat_or_mapLast_eq path with ⟨before, name, rfl⟩ | ⟨hkeep, hnot⟩
  · simp
  · have hnone : fileAt here path = none := by
      unfold fileAt
      split
      · rename_i name hlast
        obtain ⟨before, hpath⟩ := List.getLast?_eq_some_iff.1 hlast
        exact absurd hpath (hnot before name)
      · rfl
    rw [hkeep, hnone, Option.map_none]

theorem walk_of_fileAt {here path file : List (Component ν)} (h : fileAt here path = some file) :
    walk here path = file := by
  unfold fileAt at h
  split at h
  · exact Option.some.inj h
  · cases h

end LexicalPath
