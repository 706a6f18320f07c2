import Mathlib.Data.List.TakeWhile
import Paperlog.Framework.LexicalPath
import Paperlog.Model.Path

/-!
# The components of a path

`Path::components` reads a Unix path as a list of components: a leading separator is the root, a
leading `.` is kept, and apart from that empty parts and `.` parts disappear.  Two paths are equal,
for `std`, when their components are.

`components_join` and `components_withExtension` say what the two operations on strings in
`Model/Path.lean` do to the components: a relative argument of `join` is put behind the base, and
`with_extension` rewrites the last component if it is a name.
-/

namespace Paperlog

open LexicalPath

namespace PathBuf

/-- The parts of a path that are neither empty nor `.`. -/
def parts (path : PathBuf) : List Str :=
  (path.splitOn '/').filter fun part => !(part == []) && !(part == ['.'])

/-- A part as a component. -/
def ofPart (part : Str) : Component Str :=
  if part = ['.', '.'] then .parentDir else .normal part

/-- What a path starts with: the root, or a `.` of its own. -/
def anchor (path : PathBuf) : List (Component Str) :=
  if path.head? = some '/' then [.rootDir]
  else if (path.splitOn '/').head? = some ['.'] then [.curDir]
  else []

/-- `Path::components`. -/
def components (path : PathBuf) : List (Component Str) := anchor path ++ (parts path).map ofPart

example : components "./logs//a/../b.log/".toList =
    [.curDir, .normal "logs".toList, .normal "a".toList, .parentDir, .normal "b.log".toList] := by
  decide

/-- Where a path leads from the working directory `cwd`, when no directory on the way is a link. -/
def place (cwd : List (Component Str)) (path : PathBuf) : List (Component Str) :=
  walk cwd (components path)

/-! ## Putting paths together -/

theorem parts_append (path path' : PathBuf) :
    parts (path ++ '/' :: path') = parts path ++ parts path' := by
  simp [parts, List.splitOn_append_cons_self]

theorem anchor_append {path : PathBuf} (h : path ≠ []) (path' : PathBuf) :
    anchor (path ++ '/' :: path') = anchor path := by
  obtain ⟨c, rest, rfl⟩ := List.exists_cons_of_ne_nil h
  obtain ⟨part, parts, hparts⟩ := List.exists_cons_of_ne_nil (List.splitOn_ne_nil '/' (c :: rest))
  rw [anchor, anchor, List.splitOn_append_cons_self, hparts]
  rfl

/-- What stands behind a separator only adds its parts. -/
theorem components_append {path : PathBuf} (h : path ≠ []) (path' : PathBuf) :
    components (path ++ '/' :: path') = components path ++ (parts path').map ofPart := by
  rw [components, components, anchor_append h, parts_append, List.map_append, List.append_assoc]

/-- A trailing separator adds nothing. -/
theorem components_concat {path : PathBuf} (h : path ≠ []) :
    components (path ++ ['/']) = components path := by
  rw [components_append h []]
  simp [parts]

theorem components_nil : components [] = [] := by decide

theorem components_of_root (path : PathBuf) :
    components ('/' :: path) = .rootDir :: (parts path).map ofPart := by
  simp [components, anchor, parts, List.splitOn_cons_eq_if_modifyHead]

/-- **`join`, on components.** -/
theorem components_join (base tag : PathBuf) :
    components (base.join tag) =
      if tag.head? = some '/' ∨ base = [] then components tag
      else components base ++ (parts tag).map ofPart := by
  by_cases habs : tag.head? = some '/'
  · obtain ⟨rest, rfl⟩ : ∃ rest, tag = '/' :: rest := by
      cases tag with
      | nil => cases habs
      | cons c rest => exact ⟨rest, by simpa using habs⟩
    simp [join]
  · have hjoin : base.join tag =
        if base = [] ∨ base.getLast? = some '/' then base ++ tag else base ++ '/' :: tag := by
      unfold join
      split
      · simp at habs
      · rfl
    rw [hjoin, if_congr (or_iff_right habs) rfl rfl]
    by_cases hbase : base = []
    · simp [hbase]
    · rw [if_neg hbase]
      by_cases hlast : base.getLast? = some '/'
      · obtain ⟨base, rfl⟩ : ∃ before, base = before ++ ['/'] :=
          List.getLast?_eq_some_iff.1 hlast
        rw [if_pos (.inr hlast), List.append_assoc, List.singleton_append]
        by_cases hnil : base = []
        · subst hnil
          rw [List.nil_append, List.nil_append, components_of_root, components_of_root]
          simp [parts]
        · rw [components_append hnil, components_concat hnil]
      · rw [if_neg (not_or.2 ⟨hbase, hlast⟩), components_append hbase]

/-! ## The last component -/

/-- Stripping the end takes away no component, as long as something is left. -/
theorem components_stripTail (reversed : Str) (h : stripTail reversed ≠ []) :
    components (stripTail reversed).reverse = components reversed.reverse := by
  induction reversed using stripTail.induct with
  | case1 rest ih =>
      rw [stripTail] at h ⊢
      have hrest : rest.reverse ≠ [] := by
        rintro hnil
        rw [List.reverse_eq_nil_iff.1 hnil] at h
        exact h rfl
      rw [ih h, List.reverse_cons, components_concat hrest]
  | case2 rest ih =>
      rw [stripTail] at h ⊢
      have hrest : rest.reverse ≠ [] := by
        rintro hnil
        rw [List.reverse_eq_nil_iff.1 hnil] at h
        exact h rfl
      have hdot : parts ['.'] = [] := by decide
      rw [ih h, List.reverse_cons, components_concat hrest, List.reverse_cons, List.reverse_cons,
        List.append_assoc, List.singleton_append, components_append hrest, hdot, List.map_nil,
        List.append_nil]
  | case3 rest h₁ h₂ => rw [stripTail] <;> assumption

/-- A path of which nothing is left has no names. -/
theorem parts_of_stripTail_eq_nil (reversed : Str) (h : stripTail reversed = []) :
    parts reversed.reverse = [] := by
  induction reversed using stripTail.induct with
  | case1 rest ih =>
      rw [stripTail] at h
      rw [List.reverse_cons, parts_append, ih h]
      decide
  | case2 rest ih =>
      rw [stripTail] at h
      have hrest := ih h
      rw [List.reverse_cons, parts_append] at hrest
      rw [List.reverse_cons, List.reverse_cons, List.append_assoc, List.singleton_append,
        parts_append, List.append_eq_nil_iff.1 hrest |>.1]
      decide
  | case3 rest h₁ h₂ =>
      rw [stripTail] at h
      · subst h
        decide
      · assumption
      · assumption

/-- What is left ends neither in a separator nor in a `.` component. -/
theorem stripTail_shape (reversed rest : Str) :
    stripTail reversed ≠ '/' :: rest ∧ stripTail reversed ≠ '.' :: '/' :: rest := by
  induction reversed using stripTail.induct with
  | case1 tail ih =>
      rw [stripTail]
      exact ih
  | case2 tail ih =>
      rw [stripTail]
      exact ih
  | case3 tail h₁ h₂ =>
      have hsame : stripTail tail = tail := by rw [stripTail] <;> assumption
      rw [hsame]
      exact ⟨fun h => h₁ rest h, fun h => h₂ rest h⟩

/-- A part behind a separator, or alone, is the last component. -/
theorem components_append_part {dir : PathBuf} (hdir : dir = [] ∨ ∃ before, dir = before ++ ['/']) :
    ∃ before, ∀ part : Str, '/' ∉ part → part ≠ [] → part ≠ ['.'] →
      components (dir ++ part) = before ++ [ofPart part] := by
  have hparts : ∀ part : Str, '/' ∉ part → part ≠ [] → part ≠ ['.'] → parts part = [part] := by
    intro part hslash hnil hdot
    simp [parts, List.splitOn_eq_singleton hslash, hnil, hdot]
  rcases hdir with rfl | ⟨dir, rfl⟩
  · refine ⟨[], fun part hslash hnil hdot => ?_⟩
    have hanchor : anchor part = [] := by
      have hhead : part.head? ≠ some '/' := fun h => hslash (List.mem_of_head? h)
      simp [anchor, hhead, List.splitOn_eq_singleton hslash, hdot]
    rw [List.nil_append, components, hanchor, hparts part hslash hnil hdot]
    rfl
  · by_cases hnil : dir = []
    · subst hnil
      refine ⟨[.rootDir], fun part hslash hne hdot => ?_⟩
      rw [List.nil_append, List.singleton_append, components_of_root, hparts part hslash hne hdot]
      rfl
    · refine ⟨components dir, fun part hslash hne hdot => ?_⟩
      rw [List.append_assoc, List.singleton_append, components_append hnil,
        hparts part hslash hne hdot]
      rfl

/-- What `split_file_name` works on: the path without its tail, cut at the last separator. -/
theorem exists_dir_name (path : PathBuf) : ∃ dir name : Str,
    dir = ((stripTail path.reverse).dropWhile (· ≠ '/')).reverse ∧
    name = ((stripTail path.reverse).takeWhile (· ≠ '/')).reverse ∧
    (stripTail path.reverse).reverse = dir ++ name ∧
    (dir = [] ∨ ∃ before, dir = before ++ ['/']) ∧ '/' ∉ name := by
  refine ⟨_, _, rfl, rfl, ?_, ?_, ?_⟩
  · rw [← List.reverse_append, List.takeWhile_append_dropWhile]
  · cases hrest : (stripTail path.reverse).dropWhile (· ≠ '/') with
    | nil => exact .inl rfl
    | cons c rest =>
        have hc : c = '/' := by
          have hhead := List.head?_dropWhile_not (fun d => decide (d ≠ '/')) (stripTail path.reverse)
          rw [hrest] at hhead
          simpa using hhead
        exact .inr ⟨rest.reverse, by rw [hc, List.reverse_cons]⟩
  · intro hmem
    have := List.mem_takeWhile_imp (List.mem_reverse.1 hmem)
    simp at this

/-- A path with a file name: its last component is that name. -/
theorem components_of_splitFileName {path : PathBuf} {dir name : Str}
    (h : splitFileName path = some (dir, name)) :
    ∃ before, components path = before ++ [.normal name] ∧
      ∀ part : Str, '/' ∉ part → part ≠ [] → part ≠ ['.'] →
        components (dir ++ part) = before ++ [ofPart part] := by
  obtain ⟨dir', name', hdir', hname', hsplit, hshape, hslash⟩ := exists_dir_name path
  rw [splitFileName, ← hdir', ← hname'] at h
  split at h
  · cases h
  · rename_i hplain
    cases h
    simp only [not_or] at hplain
    obtain ⟨hnil, hdot, hdotdot⟩ := hplain
    obtain ⟨before, hbefore⟩ := components_append_part hshape
    have hrest : stripTail path.reverse ≠ [] := by
      intro hstrip
      rw [hstrip] at hname'
      exact hnil hname'
    have hpath := components_stripTail path.reverse hrest
    rw [List.reverse_reverse, hsplit, hbefore name hslash hnil hdot] at hpath
    exact ⟨before, by rw [← hpath, ofPart, if_neg hdotdot], hbefore⟩

/-- A path without a file name does not end in a name. -/
theorem mapLast_of_splitFileName {path : PathBuf} (h : splitFileName path = none) (f : Str → Str) :
    mapLast f (components path) = components path := by
  obtain ⟨dir, name, hdir, hname, hsplit, hshape, hslash⟩ := exists_dir_name path
  rw [splitFileName, ← hdir, ← hname] at h
  split at h
  · rename_i hplain
    cases hstrip : stripTail path.reverse with
    | nil =>
        have hparts := parts_of_stripTail_eq_nil path.reverse hstrip
        rw [List.reverse_reverse] at hparts
        rw [components, hparts, anchor]
        split
        · rfl
        · split <;> rfl
    | cons c rest =>
        have hrest : stripTail path.reverse ≠ [] := by rw [hstrip]; exact List.cons_ne_nil c rest
        have hpath := components_stripTail path.reverse hrest
        rw [List.reverse_reverse, hsplit] at hpath
        have hfirst : c ≠ '/' := fun hc => (stripTail_shape path.reverse rest).1 (hc ▸ hstrip)
        rcases hplain with rfl | rfl | rfl
        · simp [hstrip, hfirst] at hname
        · -- The whole rest is a `.`.
          have hwhole : (rest.takeWhile (· ≠ '/')).reverse ++ [c] = [] ++ ['.'] := by
            simpa [hstrip, hfirst] using hname.symm
          have htake : rest.takeWhile (· ≠ '/') = [] ∧ c = '.' := by
            obtain ⟨hnil, hc⟩ := List.append_inj' hwhole rfl
            exact ⟨List.reverse_eq_nil_iff.1 hnil, List.singleton_inj.1 hc⟩
          obtain ⟨htake, rfl⟩ := htake
          have hnil : rest = [] := by
            cases rest with
            | nil => rfl
            | cons d rest =>
                have hd : d = '/' := by
                  by_contra hd
                  simp [hd] at htake
                exact absurd (hd ▸ hstrip) (stripTail_shape path.reverse rest).2
          subst hnil
          have hdirnil : dir = [] := by simpa [hstrip] using hdir
          rw [← hpath, hdirnil]
          rfl
        · obtain ⟨before, hbefore⟩ := components_append_part hshape
          rw [← hpath, hbefore _ hslash (by decide) (by decide)]
          have hparent : ofPart ['.', '.'] = .parentDir := rfl
          simp [mapLast, hparent]
  · cases h

theorem not_mem_fileStem {name : Str} (h : '/' ∉ name) : '/' ∉ fileStem name := by
  unfold fileStem
  split
  · exact h
  · rename_i c before hdrop
    split
    · exact h
    · intro hmem
      have hsub : before <:+ name.reverse := by
        have hdrop' : (c :: before) <:+ name.reverse := hdrop ▸ List.dropWhile_suffix _
        exact (List.suffix_cons c before).trans hdrop'
      exact h (List.mem_reverse.1 (hsub.subset (List.mem_reverse.1 hmem)))

/-- **`with_extension`, on components.** -/
theorem components_withExtension {extension : Str} (hne : extension ≠ []) (hslash : '/' ∉ extension)
    (hdot : '.' ∉ extension) (path : PathBuf) :
    components (path.withExtension extension) =
      mapLast (fun name => fileStem name ++ '.' :: extension) (components path) := by
  cases hsplit : splitFileName path with
  | none => rw [mapLast_of_splitFileName hsplit, withExtension, hsplit]
  | some split =>
      obtain ⟨dir, name⟩ := split
      obtain ⟨before, hpath, happend⟩ := components_of_splitFileName hsplit
      have hname : '/' ∉ name := by
        obtain ⟨dir', name', hdir', hname', -, -, hslash'⟩ := exists_dir_name path
        rw [splitFileName, ← hdir', ← hname'] at hsplit
        split at hsplit
        · cases hsplit
        · cases hsplit
          exact hslash'
      have hnew : ofPart (fileStem name ++ '.' :: extension) =
          .normal (fileStem name ++ '.' :: extension) := by
        -- The two would end in the same character, and no extension here ends in a dot.
        refine if_neg fun hdotdot => hdot ?_
        rcases List.eq_nil_or_concat extension with rfl | ⟨init, last, rfl⟩
        · exact absurd rfl hne
        · have hends : (fileStem name ++ '.' :: init) ++ [last] = ['.'] ++ ['.'] := by
            simpa using hdotdot
          have hlast := List.singleton_inj.1 (List.append_inj' hends rfl).2
          simp [hlast]
      rw [withExtension, hsplit, hpath, mapLast_concat]
      have hnonempty : fileStem name ++ '.' :: extension ≠ [] := by simp
      have hnotdot : fileStem name ++ '.' :: extension ≠ ['.'] := by
        intro hsingle
        have hlength := congrArg List.length hsingle
        have hpos : 0 < extension.length := List.length_pos_iff.2 hne
        simp only [List.length_append, List.length_cons, List.length_nil] at hlength
        omega
      have hnoslash : '/' ∉ fileStem name ++ '.' :: extension := by
        simp [not_mem_fileStem hname, hslash]
      have happended := happend _ hnoslash hnonempty hnotdot
      rw [hnew] at happended
      simpa using happended

end PathBuf

end Paperlog
