import Paperlog.Model.DiskIo
import Paperlog.Model.PathComponents
import Paperlog.Model.Scenario

/-!
# Where the file of a context is

`add_context` creates `context_log_path.join(tag).with_extension("log")`.  `components_contextPath`
reads this path component by component: the tag is put behind the folder, unless it is absolute, and
of the last name everything from its last dot on gives way to `.log`.

Two paths may be spelled differently and name one file, so paths are compared by where they lead
when `.` and `..` are followed (`SameFile`); links are not followed.  On a disk that resolves paths in
this way, creating one of them empties the file the other names exactly when they are the same
(`read_create_of_sameFile`, `read_create_of_not_sameFile`).

`contextPaths_separate_iff` says exactly which tags get files of their own: those that still lead to
different places when the last name is cut at its last dot, and that do not lead to the global file.
`contextPath_inside_iff` says exactly which tags stay in the folder: those that lead strictly below
it when they are followed from it.
-/

namespace Paperlog

open LexicalPath PathBuf LoggerThreadCtx

/-- The components a tag stands for in a folder: its own if it is absolute, else its parts behind
those of the folder. -/
def placeOf (contextLogPath : PathBuf) (tag : Str) : List (Component Str) :=
  if tag.head? = some '/' ∨ contextLogPath = [] then components tag
  else components contextLogPath ++ (parts tag).map ofPart

/-- The same, the last name cut at its last dot. -/
def stemPlace (contextLogPath : PathBuf) (tag : Str) : List (Component Str) :=
  mapLast fileStem (placeOf contextLogPath tag)

/-- The file of a stem. -/
def logOf (place : List (Component Str)) : List (Component Str) :=
  mapLast (fun stem => stem ++ ".log".toList) place

theorem components_contextPath (config : LoggerConfig) (tag : Str) :
    components (contextPath config tag) = logOf (stemPlace config.contextLogPath tag) := by
  rw [contextPath, components_withExtension (by decide) (by decide) (by decide), components_join,
    logOf, stemPlace, mapLast_mapLast]
  rfl

/-! ## Files of their own -/

/-- The file a path names, for the working directory `cwd`.  A path that does not end in a name leads
to a directory, which `File::create` refuses. -/
def fileOf (cwd : Place) (path : PathBuf) : Option Place := fileAt cwd (components path)

/-- The two paths, however they are spelled, name one file. -/
def SameFile (cwd : Place) (path path' : PathBuf) : Prop :=
  ∃ file ∈ fileOf cwd path, file ∈ fileOf cwd path'

instance (cwd : Place) (path path' : PathBuf) : Decidable (SameFile cwd path path') :=
  inferInstanceAs (Decidable (∃ file ∈ fileOf cwd path, file ∈ fileOf cwd path'))

section

variable {cwd : Place} {path path' : PathBuf}

theorem place_of_fileOf {file : Place} (h : file ∈ fileOf cwd path) : place cwd path = file :=
  walk_of_fileAt h

/-- Creating a file empties it under every path that names it. -/
theorem read_create_of_sameFile (h : SameFile cwd path path') (disk : Disk (place cwd)) :
    (disk.create path').1.read path = some [] := by
  obtain ⟨file, hfile, hfile'⟩ := h
  simp [Disk.read, Disk.create, place_of_fileOf hfile, place_of_fileOf hfile']

/-- It leaves every other file alone. -/
theorem read_create_of_not_sameFile (h : ¬ SameFile cwd path path') {file file' : Place}
    (hfile : file ∈ fileOf cwd path) (hfile' : file' ∈ fileOf cwd path')
    (disk : Disk (place cwd)) : (disk.create path').1.read path = disk.read path := by
  have hne : file ≠ file' := by
    rintro rfl
    exact h ⟨file, hfile, hfile'⟩
  simp [Disk.read, Disk.create, place_of_fileOf hfile, place_of_fileOf hfile', hne]

end

/-- The stem of the file a tag gets: where the tag leads, the last name cut at its last dot. -/
def stemOf (cwd : Place) (contextLogPath : PathBuf) (tag : Str) : Option Place :=
  fileAt cwd (stemPlace contextLogPath tag)

theorem fileOf_contextPath (cwd : Place) (config : LoggerConfig) (tag : Str) :
    fileOf cwd (contextPath config tag) = (stemOf cwd config.contextLogPath tag).map logOf := by
  rw [fileOf, components_contextPath, logOf, fileAt_mapLast]
  rfl

theorem logOf_injective : Function.Injective logOf := fun _ _ h =>
  (mapLast_inj fun _ _ hstem => (List.append_inj' hstem rfl).1).1 h

theorem sameFile_contextPath_iff (cwd : Place) (config : LoggerConfig) (tag₁ tag₂ : Str) :
    SameFile cwd (contextPath config tag₁) (contextPath config tag₂) ↔
      ∃ stem ∈ stemOf cwd config.contextLogPath tag₁,
        stem ∈ stemOf cwd config.contextLogPath tag₂ := by
  simp only [SameFile, fileOf_contextPath, Option.mem_map]
  constructor
  · rintro ⟨_, ⟨stem, hstem, rfl⟩, stem', hstem', hsame⟩
    exact ⟨stem, hstem, logOf_injective hsame ▸ hstem'⟩
  · rintro ⟨stem, hstem, hstem'⟩
    exact ⟨logOf stem, ⟨stem, hstem, rfl⟩, stem, hstem', rfl⟩

/-- The two contexts have different files, and neither file is the global one. -/
structure Separate (cwd : Place) (config : LoggerConfig) (logPath : PathBuf) (tag₁ tag₂ : Str) :
    Prop where
  distinct : ¬ SameFile cwd (contextPath config tag₁) (contextPath config tag₂)
  notGlobal₁ : ¬ SameFile cwd (contextPath config tag₁) logPath
  notGlobal₂ : ¬ SameFile cwd (contextPath config tag₂) logPath

/-- **Which contexts do not share a file.**  The tags lead to different stems, and the global file
is the file of neither, from whatever directory the process runs in. -/
theorem contextPaths_separate_iff (cwd : Place) (config : LoggerConfig) (logPath : PathBuf)
    (tag₁ tag₂ : Str) :
    Separate cwd config logPath tag₁ tag₂ ↔
      (∀ stem ∈ stemOf cwd config.contextLogPath tag₁,
        stem ∉ stemOf cwd config.contextLogPath tag₂) ∧
      (∀ stem ∈ stemOf cwd config.contextLogPath tag₁, logOf stem ∉ fileOf cwd logPath) ∧
      ∀ stem ∈ stemOf cwd config.contextLogPath tag₂, logOf stem ∉ fileOf cwd logPath := by
  have hdistinct : ¬ SameFile cwd (contextPath config tag₁) (contextPath config tag₂) ↔
      ∀ stem ∈ stemOf cwd config.contextLogPath tag₁,
        stem ∉ stemOf cwd config.contextLogPath tag₂ := by
    rw [sameFile_contextPath_iff]
    simp only [not_exists, not_and]
  have hglobal : ∀ tag, ¬ SameFile cwd (contextPath config tag) logPath ↔
      ∀ stem ∈ stemOf cwd config.contextLogPath tag, logOf stem ∉ fileOf cwd logPath := by
    intro tag
    simp only [SameFile, fileOf_contextPath, Option.mem_map, not_exists, not_and]
    exact ⟨fun h stem hstem => h _ ⟨stem, hstem, rfl⟩,
      fun h file hfile => by obtain ⟨stem, hstem, rfl⟩ := hfile; exact h stem hstem⟩
  rw [← hdistinct, ← hglobal, ← hglobal]
  exact ⟨fun h => ⟨h.distinct, h.notGlobal₁, h.notGlobal₂⟩, fun h => ⟨h.1, h.2.1, h.2.2⟩⟩

/-- Registering the second context leaves the file of the first and the global file alone. -/
theorem Separate.create_leaves {cwd : Place} {config : LoggerConfig} {logPath : PathBuf}
    {tag₁ tag₂ : Str} (h : Separate cwd config logPath tag₁ tag₂) {file₁ file₂ file : Place}
    (h₁ : file₁ ∈ fileOf cwd (contextPath config tag₁))
    (h₂ : file₂ ∈ fileOf cwd (contextPath config tag₂)) (hglobal : file ∈ fileOf cwd logPath)
    (disk : Disk (place cwd)) :
    (disk.create (contextPath config tag₂)).1.read (contextPath config tag₁) =
        disk.read (contextPath config tag₁) ∧
      (disk.create (contextPath config tag₂)).1.read logPath = disk.read logPath := by
  refine ⟨read_create_of_not_sameFile h.distinct h₁ h₂ disk, ?_⟩
  refine read_create_of_not_sameFile (fun hsame => h.notGlobal₂ ?_) hglobal h₂ disk
  obtain ⟨file', hfile, hfile'⟩ := hsame
  exact ⟨file', hfile', hfile⟩

/-- A tag that is a plain file name. -/
structure PlainName (tag : Str) : Prop where
  noSlash : '/' ∉ tag
  ne_nil : tag ≠ []
  ne_dot : tag ≠ ['.']
  ne_dotdot : tag ≠ ['.', '.']

theorem parts_of_plainName {tag : Str} (h : PlainName tag) : parts tag = [tag] := by
  simp [parts, List.splitOn_eq_singleton h.noSlash, h.ne_nil, h.ne_dot]

theorem stemPlace_of_plainName {base : PathBuf} {tag : Str} (h : PlainName tag) :
    stemPlace base tag = components base ++ [.normal (fileStem tag)] := by
  have hrel : tag.head? ≠ some '/' := fun hhead => h.noSlash (List.mem_of_head? hhead)
  have hplace : placeOf base tag = components base ++ [.normal tag] := by
    have hpart : ofPart tag = .normal tag := if_neg h.ne_dotdot
    rw [placeOf]
    by_cases hbase : base = []
    · have hanchor : anchor tag = [] := by
        simp [anchor, hrel, List.splitOn_eq_singleton h.noSlash, h.ne_dot]
      rw [if_pos (.inr hbase), components, hanchor, parts_of_plainName h, hbase, components_nil]
      simp [hpart]
    · rw [if_neg (not_or.2 ⟨hrel, hbase⟩), parts_of_plainName h]
      simp [hpart]
  rw [stemPlace, hplace, mapLast_concat]

/-- Two plain names share a file exactly when they agree up to the last dot. -/
theorem sameFile_of_plainName {cwd : Place} {config : LoggerConfig} {tag₁ tag₂ : Str}
    (h₁ : PlainName tag₁) (h₂ : PlainName tag₂) :
    SameFile cwd (contextPath config tag₁) (contextPath config tag₂) ↔
      fileStem tag₁ = fileStem tag₂ := by
  rw [sameFile_contextPath_iff, stemOf, stemOf, stemPlace_of_plainName h₁,
    stemPlace_of_plainName h₂, fileAt_concat_normal, fileAt_concat_normal]
  simp [eq_comm]

/-- The configuration of `scotland2`, for an application `app`. -/
def scotlandConfig : LoggerConfig :=
  { LoggerConfig.default with contextLogPath := "/sdcard/ModData/app/logs2".toList }

/-- `path.join("Paperlog.log")`. -/
def scotlandLogPath : PathBuf := scotlandConfig.contextLogPath.join "Paperlog.log".toList

/-- Registering `tag` creates its file and succeeds. -/
def Registers (config : LoggerConfig) (logPath : PathBuf) (tag : Str) : Prop :=
  ∃ r, addContext tag ((Scenario.disk.create logPath).1,
    .ofGlobalFile config (Scenario.disk.create logPath).2) = .ok () r

/-- Two versions of one mod share a file, a context named like the global file takes that, and both
can be spelled in other ways. -/
theorem dottedTags_share :
    (∀ tag ∈ ["mod 1.2".toList, "mod 1.3".toList, "Paperlog".toList, "../logs2/Paperlog".toList,
      "../logs2/mod 1".toList], Registers scotlandConfig scotlandLogPath tag) ∧
    SameFile [.rootDir] (contextPath scotlandConfig "mod 1.2".toList)
      (contextPath scotlandConfig "mod 1.3".toList) ∧
    SameFile [.rootDir] (contextPath scotlandConfig "mod 1.2".toList)
      (contextPath scotlandConfig "../logs2/mod 1".toList) ∧
    SameFile [.rootDir] (contextPath scotlandConfig "Paperlog".toList) scotlandLogPath ∧
    SameFile [.rootDir] (contextPath scotlandConfig "../logs2/Paperlog".toList) scotlandLogPath ∧
    ¬ Separate [.rootDir] scotlandConfig scotlandLogPath "mod 1.2".toList "mod 1.3".toList ∧
    ¬ Separate [.rootDir] scotlandConfig scotlandLogPath "mod 1.2".toList "Paperlog".toList := by
  have hversions : SameFile [.rootDir] (contextPath scotlandConfig "mod 1.2".toList)
      (contextPath scotlandConfig "mod 1.3".toList) := by
    decide
  have hglobal : SameFile [.rootDir] (contextPath scotlandConfig "Paperlog".toList)
      scotlandLogPath := by
    decide
  refine ⟨?_, hversions, by decide, hglobal, by decide, fun h => h.distinct hversions,
    fun h => h.notGlobal₂ hglobal⟩
  intro tag _
  exact ⟨_, rfl⟩

/-! ## Inside the folder -/

/-- Lexically, `path` lies strictly inside the folder `base`. -/
def Inside (base path : PathBuf) : Prop :=
  Below (normalizeLexically (components base)) (normalizeLexically (components path))

instance (base path : PathBuf) : Decidable (Inside base path) :=
  inferInstanceAs (Decidable (Below _ _))

/-- A relative path, whatever it starts with, is followed part by part. -/
theorem walk_components_of_relative {tag : Str} (h : tag.head? ≠ some '/')
    (here : List (Component Str)) :
    walk here (components tag) = walk here ((parts tag).map ofPart) := by
  rw [components, anchor, if_neg h]
  split
  · rfl
  · rfl

/-- Where a tag leads: it is followed from the folder. -/
theorem normalizeLexically_placeOf (base : PathBuf) (tag : Str) :
    normalizeLexically (placeOf base tag) =
      walk (normalizeLexically (components base)) (components tag) := by
  rw [placeOf]
  by_cases habs : tag.head? = some '/'
  · -- The root starts over, from wherever one is.
    rw [if_pos (.inl habs), components, anchor, if_pos habs]
    rfl
  · by_cases hbase : base = []
    · rw [if_pos (.inr hbase), hbase]
      rfl
    · rw [if_neg (not_or.2 ⟨habs, hbase⟩), normalizeLexically, walk_append,
        walk_components_of_relative habs]
      rfl

/-- **Which tags stay in the folder.**  The file a tag gets lies strictly inside `context_log_path`
exactly when the tag, followed from there, leads strictly below it. -/
theorem contextPath_inside_iff (config : LoggerConfig) (tag : Str) :
    Inside config.contextLogPath (contextPath config tag) ↔
      Below (normalizeLexically (components config.contextLogPath))
        (walk (normalizeLexically (components config.contextLogPath)) (components tag)) := by
  rw [Inside, ← normalizeLexically_placeOf, components_contextPath, logOf, stemPlace]
  exact (below_walk_mapLast _).trans (below_walk_mapLast _)

/-- A relative tag of names alone stays in the folder. -/
theorem inside_of_names {config : LoggerConfig} {tag : Str} (hrel : tag.head? ≠ some '/')
    (hnames : ∀ part ∈ parts tag, part ≠ ['.', '.']) (hsome : parts tag ≠ []) :
    Inside config.contextLogPath (contextPath config tag) := by
  have hparts : (parts tag).map ofPart = (parts tag).map .normal :=
    List.map_congr_left fun part hpart => if_neg (hnames part hpart)
  rw [contextPath_inside_iff, walk_components_of_relative hrel, hparts, walk_names]
  exact ⟨parts tag, hsome, rfl⟩

/-- A tag that names nothing stands for the folder itself, whose name gets the extension. -/
theorem not_inside_of_no_names {config : LoggerConfig} {tag : Str} (hrel : tag.head? ≠ some '/')
    (hnone : parts tag = []) : ¬ Inside config.contextLogPath (contextPath config tag) := by
  rw [contextPath_inside_iff, walk_components_of_relative hrel, hnone]
  exact not_below_self _

/-- With the default configuration the tag registers, and its file is created elsewhere. -/
def Leaves (tag : Str) : Prop :=
  Registers .default Scenario.logPath tag ∧
    ¬ Inside LoggerConfig.default.contextLogPath (contextPath .default tag)

theorem foreignTags_leave : Leaves "../x".toList ∧ Leaves "/etc/x".toList ∧ Leaves [] :=
  ⟨⟨⟨_, rfl⟩, by decide⟩, ⟨⟨_, rfl⟩, by decide⟩, ⟨⟨_, rfl⟩, by decide⟩⟩

end Paperlog
