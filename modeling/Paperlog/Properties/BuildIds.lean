import Paperlog.Model.BuildId
import Paperlog.Properties.CStrings

/-!
# Which build id `getBuildId` finds

`getBuildId_eq_some_iff` reads the search off the file: the build id is that of the first section
that holds one (`HoldsBuildId`), provided everything up to there lies in the file (`Readable`).  A read
past the end of the file never leads to a build id, because the stream stays in its fail state and
the variables stay as they are.

What is printed are the bytes of the note, two digits each and in their order (`buildIdText_eq`): the
swap within each word undoes the order in which the machine stores it.  So the build id reads back
as those bytes.
-/

namespace Paperlog

/-! ## Bytes in the file and in memory -/

/-- The bytes of a field of the structure at `base`. -/
def fileBytes (file : Bytes) (base : ℕ) (field : Field) : Bytes :=
  (file.drop (base + field.offset)).take field.size

/-- The number in it. -/
def fileNat (file : Bytes) (base : ℕ) (field : Field) : ℕ :=
  LittleEndian.value (fileBytes file base field)

/-- The field lies within a structure of `n` bytes. -/
def Field.Within (field : Field) (n : ℕ) : Prop := field.offset + field.size ≤ n

instance (field : Field) (n : ℕ) : Decidable (field.Within n) := inferInstanceAs (Decidable (_ ≤ _))

theorem ElfClass.within_ehdr (cls : ElfClass) : cls.eShoff.Within cls.sizeofEhdr ∧
    cls.eShentsize.Within cls.sizeofEhdr ∧ cls.eShnum.Within cls.sizeofEhdr := by
  cases cls <;> decide

theorem ElfClass.within_shdr (cls : ElfClass) : cls.shType.Within cls.sizeofShdr ∧
    cls.shSize.Within cls.sizeofShdr ∧ cls.shOffset.Within cls.sizeofShdr := by
  cases cls <;> decide

namespace Memory

variable {file : Bytes} {base n : ℕ} {field : Field}

/-- What a whole read has put there. -/
def ofFile (file : Bytes) (base n : ℕ) : Memory := ((file.drop base).take n).map some

theorem bytes_ofFile (h : field.Within n) :
    (ofFile file base n).bytes field = some (fileBytes file base field) := by
  have hsame : ((ofFile file base n).drop field.offset).take field.size =
      (fileBytes file base field).map some := by
    rw [ofFile, fileBytes, ← List.map_drop, ← List.map_take, List.drop_take, List.take_take,
      List.drop_drop, Nat.min_eq_left]
    rw [Field.Within] at h
    omega
  rw [bytes, hsame]
  exact CStr.mapM_id_eq_some_iff.2 rfl

theorem load_ofFile (h : field.Within n) :
    (ofFile file base n).load field = some (fileNat file base field) := by
  rw [load, bytes_ofFile h]
  rfl

/-- A byte that has not been written spoils every field it is in. -/
theorem bytes_eq_none {memory : Memory} {i : ℕ} (hi : memory[field.offset + i]? = some none)
    (hlt : i < field.size) : memory.bytes field = none := by
  have hmem : none ∈ (memory.drop field.offset).take field.size := by
    apply List.mem_of_getElem? (i := i)
    rw [List.getElem?_take_of_lt hlt, List.getElem?_drop]
    exact hi
  cases hbytes : memory.bytes field with
  | none => rfl
  | some cells =>
      rw [bytes] at hbytes
      rw [CStr.mapM_id_eq_some_iff.1 hbytes] at hmem
      obtain ⟨b, -, hb⟩ := List.mem_map.1 hmem
      exact absurd hb (Option.some_ne_none b)

theorem load_eq_none {memory : Memory} {i : ℕ} (hi : memory[field.offset + i]? = some none)
    (hlt : i < field.size) : memory.load field = none := by
  rw [load, bytes_eq_none hi hlt]
  rfl

theorem load_replicate_none (hwithin : field.Within n) (hpos : 0 < field.size) :
    Memory.load (List.replicate n none) field = none := by
  apply load_eq_none (i := 0) _ hpos
  rw [Field.Within] at hwithin
  rw [List.getElem?_replicate, if_pos (by omega)]

end Memory

namespace IfStream

variable {s : IfStream} {n pos : ℕ}

theorem seekg_of_failed (h : s.failed = true) (pos : ℕ) : s.seekg pos = s := by
  rw [seekg, if_pos h]

theorem read_of_failed (h : s.failed = true) (n : ℕ) : s.read n = (List.replicate n none, s) := by
  rw [read, if_pos h]

/-- A read of bytes that are all in the file. -/
theorem read_seekg (h : s.failed = false) (hpos : pos < 2 ^ 63) (hin : pos + n ≤ s.file.length) :
    (s.seekg pos).read n = (Memory.ofFile s.file pos n, ⟨s.file, pos + n, false⟩) := by
  have hgot : ((s.file.drop pos).take n).length = n := by
    rw [List.length_take, List.length_drop]
    omega
  simp only [seekg, h, Bool.false_eq_true, if_false, if_pos hpos, read, hgot, Nat.sub_self,
    List.replicate_zero, List.append_nil, Nat.lt_irrefl, decide_false]
  rfl

/-- Any other read leaves the stream failed and the last byte unwritten. -/
theorem read_seekg_short (hn : 0 < n) (hshort : ¬ (pos < 2 ^ 63 ∧ pos + n ≤ s.file.length)) :
    ((s.seekg pos).read n).2.failed = true ∧ ((s.seekg pos).read n).1[n - 1]? = some none := by
  have hlast : (List.replicate n none : Memory)[n - 1]? = some none := by
    rw [List.getElem?_replicate, if_pos (by omega)]
  by_cases hfailed : s.failed = true
  · rw [seekg_of_failed hfailed, read_of_failed hfailed]
    exact ⟨hfailed, hlast⟩
  · by_cases hpos : pos < 2 ^ 63
    · have hgot : ((s.file.drop pos).take n).length < n := by
        rw [List.length_take, List.length_drop]
        omega
      simp only [seekg, if_neg hfailed, if_pos hpos, read]
      refine ⟨by simpa using hgot, ?_⟩
      rw [List.getElem?_append_right (by rw [List.length_map]; omega), List.length_map,
        List.getElem?_replicate, if_pos (by omega)]
    · simp only [seekg, if_neg hfailed, if_neg hpos]
      rw [read_of_failed rfl]
      exact ⟨rfl, hlast⟩

end IfStream

/-! ## Sections -/

/-- `seekg` reaches the position, and `n` bytes from there on lie in the file. -/
def InFile (file : Bytes) (pos n : ℕ) : Prop := pos < 2 ^ 63 ∧ pos + n ≤ file.length

/-- Where the `i`-th section header is. -/
def sectionPos (cls : ElfClass) (file : Bytes) (i : ℕ) : ℕ :=
  (fileNat file 0 cls.eShoff + i * fileNat file 0 cls.eShentsize) % 2 ^ cls.bits

/-- It announces a note of the size that one with a build id has. -/
def IsNote (cls : ElfClass) (file : Bytes) (i : ℕ) : Prop :=
  fileNat file (sectionPos cls file i) cls.shType = shtNote ∧
    fileNat file (sectionPos cls file i) cls.shSize = 0x24

/-- Where it says that the section is. -/
def notePos (cls : ElfClass) (file : Bytes) (i : ℕ) : ℕ :=
  fileNat file (sectionPos cls file i) cls.shOffset

/-- What is read of the `i`-th section lies in the file. -/
structure Readable (cls : ElfClass) (file : Bytes) (i : ℕ) : Prop where
  int : i * fileNat file 0 cls.eShentsize < 2 ^ 31
  header : InFile file (sectionPos cls file i) cls.sizeofShdr
  note : IsNote cls file i → InFile file (notePos cls file i) 0x24

/-- The `i`-th section is the note with the build id, and `desc` are its bytes. -/
structure HoldsBuildId (cls : ElfClass) (file : Bytes) (i : ℕ) (desc : Bytes) : Prop where
  isNote : IsNote cls file i
  namesz : fileNat file (notePos cls file i) nNamesz = 4
  descsz : fileNat file (notePos cls file i) nDescsz = 20
  name : fileBytes file (notePos cls file i) noteName = gnu
  desc : desc = fileBytes file (notePos cls file i) noteDesc

/-- Among the sections from the `i`-th on, the `k`-th is the first to hold a build id. -/
structure FirstBuildId (cls : ElfClass) (file : Bytes) (i k : ℕ) (desc : Bytes) : Prop where
  le : i ≤ k
  readable : ∀ j, i ≤ j → j ≤ k → Readable cls file j
  before : ∀ j, i ≤ j → j < k → ∀ desc', ¬ HoldsBuildId cls file j desc'
  holds : HoldsBuildId cls file k desc

section

variable {cls : ElfClass} {file : Bytes} {i k n : ℕ} {desc desc' : Bytes}

theorem FirstBuildId.here (hreadable : Readable cls file i) (hholds : HoldsBuildId cls file i desc) :
    FirstBuildId cls file i i desc where
  le := Nat.le_refl i
  readable _ hle hle' := Nat.le_antisymm hle hle' ▸ hreadable
  before _ hle hlt := absurd hle (Nat.not_le_of_lt hlt)
  holds := hholds

theorem FirstBuildId.of_holds (h : FirstBuildId cls file i k desc')
    (hholds : HoldsBuildId cls file i desc) : k = i ∧ desc' = desc := by
  obtain rfl : k = i := by
    by_contra hne
    exact h.before i (Nat.le_refl i) (Nat.lt_of_le_of_ne h.le (Ne.symm hne)) desc hholds
  exact ⟨rfl, h.holds.desc.trans hholds.desc.symm⟩

/-- A section without a build id is passed over. -/
theorem FirstBuildId.succ_iff (hreadable : Readable cls file i)
    (hnone : ∀ desc', ¬ HoldsBuildId cls file i desc') :
    FirstBuildId cls file i k desc ↔ FirstBuildId cls file (i + 1) k desc := by
  constructor
  · intro h
    have hne : k ≠ i := by
      rintro rfl
      exact hnone desc h.holds
    exact ⟨Nat.lt_of_le_of_ne h.le hne.symm, fun j hj => h.readable j (by omega),
      fun j hj => h.before j (by omega), h.holds⟩
  · intro h
    refine ⟨Nat.le_of_succ_le h.le, fun j hle hle' => ?_, fun j hle hlt => ?_, h.holds⟩
    · rcases Nat.eq_or_lt_of_le hle with rfl | hlt
      · exact hreadable
      · exact h.readable j hlt hle'
    · rcases Nat.eq_or_lt_of_le hle with rfl | hlt'
      · exact hnone
      · exact h.before j hlt' hlt

/-! ## The text -/

theorem length_fileBytes {base : ℕ} {field : Field} (h : field.Within n)
    (hin : InFile file base n) : (fileBytes file base field).length = field.size := by
  have hlength := hin.2
  rw [Field.Within] at h
  rw [fileBytes, List.length_take, List.length_drop]
  omega

/-- **The words show the bytes**, two digits each. -/
theorem buildIdText_eq (h : desc.length = 20) : buildIdText desc = Hex.ofBytes desc := by
  have hword (j : ℕ) (hj : j < 5) :
      (Nat.toDigits 16 (buildIdWord desc j)).leftpad 8 '0' =
        Hex.ofBytes ((desc.drop (j * 4)).take 4) := by
    have hlength : ((desc.drop (j * 4)).take 4).length = 4 := by
      rw [List.length_take, List.length_drop]
      omega
    have hlt := LittleEndian.value_lt ((desc.drop (j * 4)).take 4).reverse
    rw [List.length_reverse, hlength] at hlt
    rw [buildIdWord, Nat.leftpad_toDigits (by decide) (k := 7) hlt,
      ← Hex.fixedDigits_value_reverse, hlength]
  have hprefix : ∀ j ≤ 5, ((List.range j).flatMap fun j =>
      (Nat.toDigits 16 (buildIdWord desc j)).leftpad 8 '0') = Hex.ofBytes (desc.take (j * 4)) := by
    intro j hj
    induction j with
    | zero => simp [Hex.ofBytes]
    | succ j ih =>
        rw [List.range_succ, List.flatMap_append, ih (Nat.le_of_succ_le hj), List.flatMap_singleton,
          hword j hj, ← Hex.ofBytes_append, Nat.succ_mul, List.take_add]
  rw [buildIdText, hprefix 5 (Nat.le_refl 5), List.take_of_length_le (by omega)]

/-! ## The search -/

/-- `noteBuildId`, on a note that is in the file. -/
theorem noteBuildId_ofFile (file : Bytes) (pos : ℕ) :
    ∃ found, noteBuildId (Memory.ofFile file pos 0x24) = some found ∧ ∀ id, (found = some id ↔
      (fileNat file pos nNamesz = 4 ∧ fileNat file pos nDescsz = 20 ∧
        fileBytes file pos noteName = gnu) ∧ id = buildIdText (fileBytes file pos noteDesc)) := by
  rw [noteBuildId, Memory.load_ofFile (by decide), Memory.load_ofFile (by decide),
    Memory.bytes_ofFile (by decide), Memory.bytes_ofFile (by decide)]
  simp only [Option.bind_eq_bind, Option.bind_some, Option.pure_def]
  split_ifs with hnamesz hdescsz hname
  · refine ⟨_, rfl, fun id => ?_⟩
    simp only [Option.some.injEq, hnamesz, hdescsz, hname, true_and]
    exact eq_comm
  all_goals
    refine ⟨none, rfl, fun id => ?_⟩
    simp [*]

/-- A note of which a byte is missing has no build id. -/
theorem noteBuildId_short {data : Memory} (h : data[0x23]? = some none) (id : Str) :
    noteBuildId data ≠ some (some id) := by
  intro hsome
  have hdesc : data.bytes noteDesc = none := Memory.bytes_eq_none (i := 19) h (by decide)
  rw [noteBuildId] at hsome
  obtain ⟨namesz, -, hsome⟩ := Option.bind_eq_some_iff.1 hsome
  split_ifs at hsome
  · obtain ⟨descsz, -, hsome⟩ := Option.bind_eq_some_iff.1 hsome
    split_ifs at hsome
    · obtain ⟨name, -, hsome⟩ := Option.bind_eq_some_iff.1 hsome
      split_ifs at hsome
      · rw [hdesc] at hsome
        exact absurd hsome (by simp)
      · exact absurd hsome (by simp)
    · exact absurd hsome (by simp)
  · exact absurd hsome (by simp)

/-- Once the stream has failed, there is nothing more to be read of a section. -/
theorem sectionBuildId_of_failed {s : IfStream} (h : s.failed = true) (header : Memory) :
    ∀ id s', sectionBuildId cls s header = some (id, s') → id = none ∧ s' = s := by
  intro id s' hsome
  rw [sectionBuildId] at hsome
  obtain ⟨type, -, hsome⟩ := Option.bind_eq_some_iff.1 hsome
  split_ifs at hsome
  · obtain ⟨size, -, hsome⟩ := Option.bind_eq_some_iff.1 hsome
    split_ifs at hsome
    · obtain ⟨offset, -, hsome⟩ := Option.bind_eq_some_iff.1 hsome
      rw [IfStream.seekg_of_failed h, IfStream.read_of_failed h] at hsome
      have hnote : noteBuildId (List.replicate 0x24 none) = none := by
        rw [noteBuildId, Memory.load_replicate_none (by decide) (by decide)]
        rfl
      simp only [hnote] at hsome
      exact absurd hsome (by simp)
    · simpa [eq_comm] using hsome
  · simpa [eq_comm] using hsome

/-- Nor is there a build id to be found. -/
theorem searchSections_of_failed {s : IfStream} (h : s.failed = true) (elf : Memory)
    (left i : ℕ) (id : Str) : searchSections cls elf left i s ≠ some (some id) := by
  cases left with
  | zero => exact fun hsome => absurd hsome (by simp [searchSections])
  | succ left =>
      intro hsome
      rw [searchSections] at hsome
      obtain ⟨shoff, -, hsome⟩ := Option.bind_eq_some_iff.1 hsome
      obtain ⟨shentsize, -, hsome⟩ := Option.bind_eq_some_iff.1 hsome
      split_ifs at hsome
      have hsection : sectionBuildId cls s (List.replicate cls.sizeofShdr none) = none := by
        rw [sectionBuildId, Memory.load_replicate_none cls.within_shdr.1 (by cases cls <;> decide)]
        rfl
      simp only [IfStream.seekg_of_failed h, IfStream.read_of_failed h, hsection] at hsome
      exact absurd hsome (by simp)

/-- A readable section gives its build id and leaves the stream usable. -/
theorem sectionBuildId_readable {s : IfStream} (hs : s.failed = false) (hfile : s.file = file)
    (h : Readable cls file i) :
    ∃ found s', sectionBuildId cls s (Memory.ofFile file (sectionPos cls file i) cls.sizeofShdr) =
        some (found, s') ∧ s'.failed = false ∧ s'.file = file ∧
      ∀ id, (found = some id ↔ ∃ desc, HoldsBuildId cls file i desc ∧ id = buildIdText desc) := by
  subst hfile
  obtain ⟨htype, hsize, hoffset⟩ := cls.within_shdr
  rw [sectionBuildId, Memory.load_ofFile htype, Memory.load_ofFile hsize,
    Memory.load_ofFile hoffset]
  simp only [Option.bind_eq_bind, Option.bind_some, Option.pure_def]
  by_cases hnote : IsNote cls s.file i
  · obtain ⟨hpos, hin⟩ := h.note hnote
    obtain ⟨found, hfound, hiff⟩ := noteBuildId_ofFile s.file (notePos cls s.file i)
    rw [if_pos hnote.1, if_pos hnote.2, ← notePos, IfStream.read_seekg hs hpos hin, hfound]
    refine ⟨found, _, rfl, rfl, rfl, fun id => (hiff id).trans ?_⟩
    constructor
    · rintro ⟨⟨hnamesz, hdescsz, hname⟩, rfl⟩
      exact ⟨_, ⟨hnote, hnamesz, hdescsz, hname, rfl⟩, rfl⟩
    · rintro ⟨desc, hholds, rfl⟩
      exact ⟨⟨hholds.namesz, hholds.descsz, hholds.name⟩, by rw [hholds.desc]⟩
  · have hnone (id : Str) : ¬ ∃ desc, HoldsBuildId cls s.file i desc ∧ id = buildIdText desc :=
      fun ⟨desc, hholds, _⟩ => hnote hholds.isNote
    refine ⟨none, s, ?_, hs, rfl, by simpa using hnone⟩
    split_ifs with hty hsz
    · exact absurd ⟨hty, hsz⟩ hnote
    · rfl
    · rfl

/-- A note that is not in the file has none, and reading it fails. -/
theorem sectionBuildId_noteOutside {s : IfStream} (hfile : s.file = file)
    (hnote : IsNote cls file i) (h : ¬ InFile file (notePos cls file i) 0x24)
    {found : Option Str} {s' : IfStream}
    (hsome : sectionBuildId cls s (Memory.ofFile file (sectionPos cls file i) cls.sizeofShdr) =
      some (found, s')) : found = none ∧ s'.failed = true := by
  subst hfile
  obtain ⟨htype, hsize, hoffset⟩ := cls.within_shdr
  have hshort := IfStream.read_seekg_short (s := s) (n := 0x24) (by decide) h
  rw [sectionBuildId, Memory.load_ofFile htype, Memory.load_ofFile hsize,
    Memory.load_ofFile hoffset] at hsome
  simp only [Option.bind_eq_bind, Option.bind_some, Option.pure_def] at hsome
  rw [if_pos hnote.1, if_pos hnote.2, ← notePos] at hsome
  obtain ⟨id, hid, hsome⟩ := Option.bind_eq_some_iff.1 hsome
  obtain ⟨rfl, rfl⟩ := Prod.mk.inj (Option.some.inj hsome)
  refine ⟨?_, hshort.1⟩
  cases id with
  | none => rfl
  | some id => exact absurd hid (noteBuildId_short hshort.2 id)

/-- The loop, when the header of the file has been read. -/
theorem searchSections_succ (s : IfStream) (left i : ℕ) :
    searchSections cls (Memory.ofFile file 0 cls.sizeofEhdr) (left + 1) i s =
      if 2 ^ 31 ≤ i * fileNat file 0 cls.eShentsize then none
      else
        (sectionBuildId cls ((s.seekg (sectionPos cls file i)).read cls.sizeofShdr).2
          ((s.seekg (sectionPos cls file i)).read cls.sizeofShdr).1).bind fun r =>
            match r.1 with
            | some buildId => some (some buildId)
            | none => searchSections cls (Memory.ofFile file 0 cls.sizeofEhdr) left (i + 1) r.2 := by
  obtain ⟨hshoff, hshentsize, -⟩ := cls.within_ehdr
  rw [searchSections, Memory.load_ofFile hshoff, Memory.load_ofFile hshentsize]
  rfl

/-- **A turn of the loop** at a readable section. -/
theorem searchSections_readable {s : IfStream} (hs : s.failed = false) (hfile : s.file = file)
    (left : ℕ) (h : Readable cls file i) :
    ∃ found s', s'.failed = false ∧ s'.file = file ∧
      (∀ id, (found = some id ↔ ∃ desc, HoldsBuildId cls file i desc ∧ id = buildIdText desc)) ∧
      searchSections cls (Memory.ofFile file 0 cls.sizeofEhdr) (left + 1) i s =
        match found with
        | some id => some (some id)
        | none => searchSections cls (Memory.ofFile file 0 cls.sizeofEhdr) left (i + 1) s' := by
  obtain ⟨hpos, hin⟩ := h.header
  rw [searchSections_succ, if_neg (Nat.not_le_of_lt h.int)]
  subst hfile
  rw [IfStream.read_seekg hs hpos hin]
  obtain ⟨found, s', hsection, hs', hfile', hfound⟩ := sectionBuildId_readable (s := ⟨s.file,
    sectionPos cls s.file i + cls.sizeofShdr, false⟩) rfl rfl h
  refine ⟨found, s', hs', hfile', hfound, ?_⟩
  rw [hsection, Option.bind_some]
  cases found <;> rfl

/-- At a section that is not readable the search ends without a build id, sooner or later. -/
theorem searchSections_unreadable {s : IfStream} (hs : s.failed = false) (hfile : s.file = file)
    (left : ℕ) (h : ¬ Readable cls file i) (id : Str) :
    searchSections cls (Memory.ofFile file 0 cls.sizeofEhdr) (left + 1) i s ≠ some (some id) := by
  subst hfile
  rw [searchSections_succ]
  intro hsome
  split_ifs at hsome with hint
  obtain ⟨⟨found, s'⟩, hsection, hsome⟩ := Option.bind_eq_some_iff.1 hsome
  have hfailed : found = none ∧ s'.failed = true := by
    by_cases hheader : InFile s.file (sectionPos cls s.file i) cls.sizeofShdr
    · have hnote : ¬ (IsNote cls s.file i → InFile s.file (notePos cls s.file i) 0x24) :=
        fun hnote => h ⟨Nat.lt_of_not_le hint, hheader, hnote⟩
      rw [Classical.not_imp] at hnote
      rw [IfStream.read_seekg hs hheader.1 hheader.2] at hsection
      exact sectionBuildId_noteOutside (s := ⟨s.file, _, false⟩) rfl hnote.1 hnote.2 hsection
    · have hshort := IfStream.read_seekg_short (by cases cls <;> decide) hheader
      obtain ⟨hnone, rfl⟩ := sectionBuildId_of_failed hshort.1 _ _ _ hsection
      exact ⟨hnone, hshort.1⟩
  obtain ⟨rfl, hfailed⟩ := hfailed
  exact searchSections_of_failed hfailed _ left (i + 1) id hsome

theorem searchSections_eq_some_iff {s : IfStream} (hs : s.failed = false) (hfile : s.file = file)
    (left : ℕ) (id : Str) :
    searchSections cls (Memory.ofFile file 0 cls.sizeofEhdr) left i s = some (some id) ↔
      ∃ k < i + left, ∃ desc, FirstBuildId cls file i k desc ∧ id = buildIdText desc := by
  induction left generalizing i s with
  | zero =>
      constructor
      · exact fun hsome => absurd hsome (by simp [searchSections])
      · rintro ⟨k, hk, desc, hfirst, -⟩
        exact absurd hfirst.le (Nat.not_le_of_lt hk)
  | succ left ih =>
      by_cases h : Readable cls file i
      · obtain ⟨found, s', hs', hfile', hfound, hturn⟩ := searchSections_readable hs hfile left h
        rw [hturn]
        cases found with
        | some id' =>
            obtain ⟨desc, hholds, rfl⟩ := (hfound id').1 rfl
            constructor
            · intro hid
              obtain rfl := Option.some.inj (Option.some.inj hid)
              exact ⟨i, by omega, desc, .here h hholds, rfl⟩
            · rintro ⟨k, -, desc', hfirst, rfl⟩
              obtain ⟨-, rfl⟩ := hfirst.of_holds hholds
              rfl
        | none =>
            have hnone : ∀ desc, ¬ HoldsBuildId cls file i desc := fun desc hholds =>
              absurd ((hfound _).2 ⟨desc, hholds, rfl⟩) (by simp)
            have hend : i + (left + 1) = i + 1 + left := by omega
            simp only [FirstBuildId.succ_iff h hnone, hend]
            exact ih hs' hfile'
      · refine iff_of_false (searchSections_unreadable hs hfile left h id) ?_
        rintro ⟨k, -, desc, hfirst, -⟩
        exact h (hfirst.readable i (Nat.le_refl i) hfirst.le)

/-- The text reads back as the bytes. -/
theorem FirstBuildId.toBytes_text (h : FirstBuildId cls file i k desc) :
    Hex.toBytes (buildIdText desc) = some desc := by
  have hlength : desc.length = 20 := by
    rw [h.holds.desc]
    exact length_fileBytes (n := 0x24) (by decide)
      ((h.readable k h.le (Nat.le_refl k)).note h.holds.isNote)
  rw [buildIdText_eq hlength]
  exact Hex.toBytes_ofBytes desc

/-- What the search finds. -/
theorem getBuildId_found_iff {id : Str} :
    getBuildId cls (some file) = some (some id) ↔
      InFile file 0 cls.sizeofEhdr ∧ ∃ k < fileNat file 0 cls.eShnum, ∃ desc,
        FirstBuildId cls file 0 k desc ∧ id = buildIdText desc := by
  rw [getBuildId]
  by_cases hheader : InFile file 0 cls.sizeofEhdr
  · have hread := IfStream.read_seekg (s := ⟨file, 0, false⟩) rfl hheader.1 hheader.2
    simp only [hread, Memory.load_ofFile cls.within_ehdr.2.2, Option.bind_eq_bind, Option.bind_some]
    rw [searchSections_eq_some_iff (s := ⟨file, _, false⟩) rfl rfl, Nat.zero_add,
      and_iff_right hheader]
  · refine iff_of_false (fun hsome => ?_) (fun h => hheader h.1)
    have hshort := IfStream.read_seekg_short (s := ⟨file, 0, false⟩) (by cases cls <;> decide) hheader
    obtain ⟨shnum, -, hsome⟩ := Option.bind_eq_some_iff.1 hsome
    exact searchSections_of_failed hshort.1 _ shnum 0 id hsome

/-- **The build id** is that of the first section to hold one, if all that is read up to there is
in the file: the string whose digits, two to a byte, read back as the bytes of the note. -/
theorem getBuildId_eq_some_iff (cls : ElfClass) (file : Bytes) (id : Str) :
    getBuildId cls (some file) = some (some id) ↔
      InFile file 0 cls.sizeofEhdr ∧ ∃ k < fileNat file 0 cls.eShnum, ∃ desc,
        FirstBuildId cls file 0 k desc ∧ Hex.toBytes id = some desc := by
  rw [getBuildId_found_iff]
  refine and_congr_right fun _ => exists_congr fun k => and_congr_right fun _ =>
    exists_congr fun desc => and_congr_right fun hfirst => ?_
  have htext := hfirst.toBytes_text
  constructor
  · rintro rfl
    exact htext
  · intro hid
    rw [Hex.toBytes_eq_some_iff] at hid htext
    rw [hid, htext]

end

end Paperlog
