import Paperlog.Model.BacktraceLoop
import Paperlog.Properties.BacktraceReads
import Paperlog.Properties.BuildIds
import Paperlog.Properties.CStrings

/-!
# What the lines of a backtrace say

The cache of build ids does no harm and saves work: `Process.backtrace_cached` compares the loop with
the one that has none, and says which files it goes through, each once.

The lines are text made for tools, which look for the address and the build id in them.  `readFrame`
is such a reader.  It gets both, whatever the names of objects and functions are, because it looks
for the numbers from the front and for the build id from the end; and it takes no other line for that
of a frame.  With `BuildIds` this closes the way from the file of an object to the reader
(`Process.backtrace_tells`).

The lines are the messages that `Backtrace` hands to the logger.  One with a line end in a name, or
longer than `max_string_len`, is cut into several by the logger afterwards (`splitStrIntoChunks`).
-/

namespace Paperlog

variable {w : ℕ}

namespace Process

variable {process : Process w} {cls : ElfClass} {stack : List (BitVec w)} {frameCount : UInt16}

/-! ## The cache -/

/-- The object of the frame can be searched for its build id. -/
def Searchable (process : Process w) (cls : ElfClass) (pc : BitVec w) : Prop :=
  ∀ info, process.dladdr pc = some info → process.searchBuildId cls info.fname ≠ none

/-- The keys of the cache are the objects of these frames. -/
def ObjectsOf (process : Process w) (pcs : List (BitVec w)) (fname : BitVec w) : Prop :=
  ∃ pc ∈ pcs, ∃ info, process.dladdr pc = some info ∧ info.fname = fname

/-- The line of a frame, with and without the cache. -/
theorem frameReport_symbols {pc : BitVec w} {info : DlAddr w} {buildId : Option Str} (index : ℕ)
    (hinfo : process.dladdr pc = some info)
    (hsearch : process.searchBuildId cls info.fname = some buildId) :
    Paperlog.frameReport (process.symbols cls) index pc =
      some (process.frameReport index pc info buildId) := by
  have hbuildId : (process.symbols cls).getBuildId (process.cString info.fname) = buildId := by
    rw [searchBuildId] at hsearch
    simp only [symbols, hsearch, Option.join_some]
  simp only [symbols] at hbuildId
  simp [Paperlog.frameReport, frameReport, symbols, hinfo, hbuildId]

theorem frameReport_symbols_none {pc : BitVec w} (index : ℕ) (h : process.dladdr pc = none) :
    Paperlog.frameReport (process.symbols cls) index pc = none := by
  simp [Paperlog.frameReport, symbols, h]

section

variable {buildIds buildIds' : Memo.Table (BitVec w) (Option Str)} {index : ℕ} {pc : BitVec w}
  {pcs : List (BitVec w)} {reports : List (FrameReport w)}

/-- **One turn of the loop.** -/
theorem frameTurn_some (h : Memo.Sound (process.searchBuildId cls) buildIds)
    (hturn : process.frameTurn cls index pc buildIds = some (reports, buildIds')) :
    Searchable process cls pc ∧
      reports = (Paperlog.frameReport (process.symbols cls) index pc).toList ∧
      Memo.Sound (process.searchBuildId cls) buildIds' ∧
      ∀ fname, fname ∈ buildIds'.map Prod.fst ↔
        ObjectsOf process [pc] fname ∨ fname ∈ buildIds.map Prod.fst := by
  rw [frameTurn] at hturn
  split at hturn
  · rename_i hnone
    obtain ⟨rfl, rfl⟩ := Prod.mk.inj (Option.some.inj hturn)
    refine ⟨by simp [Searchable, hnone], by rw [frameReport_symbols_none index hnone]; rfl, h, ?_⟩
    simp [ObjectsOf, hnone]
  · rename_i info hinfo
    obtain ⟨⟨buildId, table⟩, hget, hturn⟩ := Option.bind_eq_some_iff.1 hturn
    obtain ⟨rfl, rfl⟩ := Prod.mk.inj (Option.some.inj hturn)
    have hsearch : process.searchBuildId cls info.fname = some buildId := by
      rw [← Memo.get_fst h, hget]
      rfl
    obtain ⟨hsound, hkeys⟩ := h.get hget
    refine ⟨?_, by rw [frameReport_symbols index hinfo hsearch]; rfl, hsound, ?_⟩
    · intro info' hinfo'
      obtain rfl := Option.some.inj (hinfo.symm.trans hinfo')
      simp [hsearch]
    · intro fname
      rw [hkeys]
      simp [ObjectsOf, hinfo, eq_comm]

theorem exists_frameTurn (index : ℕ) (h : Memo.Sound (process.searchBuildId cls) buildIds)
    (hsearchable : Searchable process cls pc) :
    ∃ r, process.frameTurn cls index pc buildIds = some r := by
  rw [frameTurn]
  split
  · exact ⟨_, rfl⟩
  · rename_i info hinfo
    obtain ⟨buildId, hsearch⟩ := Option.ne_none_iff_exists'.1 (hsearchable info hinfo)
    have hget := Memo.get_fst h info.fname
    rw [hsearch, Option.map_eq_some_iff] at hget
    obtain ⟨r, hr, -⟩ := hget
    exact ⟨_, by rw [hr]; rfl⟩

/-- The loop. -/
theorem frameLoop_some (h : Memo.Sound (process.searchBuildId cls) buildIds)
    (hloop : process.frameLoop cls index pcs buildIds = some (reports, buildIds')) :
    (∀ pc ∈ pcs, Searchable process cls pc) ∧
      reports = (pcs.zipIdx index).filterMap (fun (pc, i) =>
        Paperlog.frameReport (process.symbols cls) i pc) ∧
      Memo.Sound (process.searchBuildId cls) buildIds' ∧
      ∀ fname, fname ∈ buildIds'.map Prod.fst ↔
        ObjectsOf process pcs fname ∨ fname ∈ buildIds.map Prod.fst := by
  induction pcs generalizing index buildIds reports with
  | nil =>
      obtain ⟨rfl, rfl⟩ := Prod.mk.inj (Option.some.inj hloop)
      exact ⟨fun pc hpc => absurd hpc List.not_mem_nil, rfl, h, by simp [ObjectsOf]⟩
  | cons pc pcs ih =>
      rw [frameLoop] at hloop
      obtain ⟨⟨report, table⟩, hturn, hloop⟩ := Option.bind_eq_some_iff.1 hloop
      obtain ⟨⟨rest, table'⟩, hrest, hloop⟩ := Option.bind_eq_some_iff.1 hloop
      obtain ⟨rfl, rfl⟩ := Prod.mk.inj (Option.some.inj hloop)
      obtain ⟨hsearchable, rfl, hsound, hkeys⟩ := frameTurn_some h hturn
      obtain ⟨hall, rfl, hsound', hkeys'⟩ := ih hsound hrest
      refine ⟨List.forall_mem_cons.2 ⟨hsearchable, hall⟩, ?_, hsound', fun fname => ?_⟩
      · rw [List.zipIdx_cons]
        cases hreport : Paperlog.frameReport (process.symbols cls) index pc with
        | none => simp only [List.filterMap_cons, hreport, Option.toList_none, List.nil_append]
        | some report =>
            simp only [List.filterMap_cons, hreport, Option.toList_some, List.singleton_append]
      · rw [hkeys', hkeys, ← or_assoc]
        simp [ObjectsOf, or_comm]

theorem exists_frameLoop (index : ℕ) (h : Memo.Sound (process.searchBuildId cls) buildIds)
    (hsearchable : ∀ pc ∈ pcs, Searchable process cls pc) :
    ∃ r, process.frameLoop cls index pcs buildIds = some r := by
  induction pcs generalizing index buildIds with
  | nil => exact ⟨_, rfl⟩
  | cons pc pcs ih =>
      obtain ⟨hpc, hpcs⟩ := List.forall_mem_cons.1 hsearchable
      obtain ⟨⟨report, table⟩, hturn⟩ := exists_frameTurn index h hpc
      obtain ⟨-, -, hsound, -⟩ := frameTurn_some h hturn
      obtain ⟨r, hr⟩ := ih (index + 1) hsound hpcs
      refine ⟨(report ++ r.1, r.2), ?_⟩
      rw [frameLoop, hturn]
      simp only [Option.bind_eq_bind, Option.bind_some]
      rw [hr]
      rfl

end

theorem reads_of_le_zero (h : frameCount ≤ 0) : Backtrace.reads stack frameCount = [] := by
  have hcount : frameCount.toNat = 0 := by simpa using UInt16.le_iff_toNat_le.1 h
  rw [Backtrace.reads, hcount]
  rfl

/-- **The cache makes no difference.**  A backtrace prints what it would print if it went through the
file of its object for every frame, provided that none of these files leads to undefined behaviour;
and it goes through each of them once. -/
theorem backtrace_cached (process : Process w) (cls : ElfClass) (pid tid : ℤ)
    (stack : List (BitVec w)) (frameCount : UInt16) (lines : List (BacktraceLine w)) :
    Paperlog.backtrace (process.symbols cls) pid tid stack frameCount = some lines ∧
        (∀ pc, some pc ∈ Backtrace.reads stack frameCount → Searchable process cls pc) ↔
      ∃ buildIds, process.backtrace cls pid tid stack frameCount = some (lines, buildIds) ∧
        (buildIds.map Prod.fst).Nodup ∧
        (∀ e ∈ buildIds, process.searchBuildId cls e.1 = some e.2) ∧
        ∀ fname, fname ∈ buildIds.map Prod.fst ↔
          ∃ pc info, some pc ∈ Backtrace.reads stack frameCount ∧
            process.dladdr pc = some info ∧ info.fname = fname := by
  rw [Paperlog.backtrace, backtrace]
  split
  · rename_i hle
    rw [reads_of_le_zero hle]
    constructor
    · rintro ⟨hlines, -⟩
      obtain rfl := Option.some.inj hlines
      exact ⟨[], rfl, List.nodup_nil, fun e he => absurd he List.not_mem_nil, by simp⟩
    · rintro ⟨buildIds, hlines, -⟩
      obtain ⟨rfl, -⟩ := Prod.mk.inj (Option.some.inj hlines)
      exact ⟨rfl, fun pc hpc => absurd hpc List.not_mem_nil⟩
  · constructor
    · rintro ⟨hplain, hsearchable⟩
      obtain ⟨pcs, hpcs, hplain⟩ := Option.bind_eq_some_iff.1 hplain
      obtain rfl := Option.some.inj hplain
      have hreads := CStr.mapM_id_eq_some_iff.1 hpcs
      have hread : ∀ pc, some pc ∈ Backtrace.reads stack frameCount ↔ pc ∈ pcs := by
        simp [hreads]
      obtain ⟨⟨reports, buildIds⟩, hloop⟩ := exists_frameLoop 0 Memo.sound_nil
        fun pc hpc => hsearchable pc ((hread pc).2 hpc)
      obtain ⟨-, rfl, hsound, hkeys⟩ := frameLoop_some Memo.sound_nil hloop
      refine ⟨buildIds, ?_, hsound.nodup, hsound.right, fun fname => ?_⟩
      · simp only [hpcs, hloop, Option.bind_eq_bind, Option.bind_some]
        rfl
      · simp only [hkeys, hread, ObjectsOf, List.map_nil, List.not_mem_nil, or_false,
          exists_and_left]
    · rintro ⟨buildIds, hlines, -⟩
      obtain ⟨pcs, hpcs, hlines⟩ := Option.bind_eq_some_iff.1 hlines
      obtain ⟨⟨reports, buildIds'⟩, hloop, hlines⟩ := Option.bind_eq_some_iff.1 hlines
      obtain ⟨rfl, rfl⟩ := Prod.mk.inj (Option.some.inj hlines)
      obtain ⟨hsearchable, rfl, -, -⟩ := frameLoop_some Memo.sound_nil hloop
      have hreads := CStr.mapM_id_eq_some_iff.1 hpcs
      refine ⟨?_, ?_⟩
      · rw [hpcs]
        rfl
      · simpa [hreads] using hsearchable

end Process

/-! ## The reader -/

/-- What the line of a frame tells a tool. -/
structure ShownFrame where
  index : ℕ
  addr : ℕ
  buildId : Option Bytes

/-- The build id is looked for from the end. -/
def readBuildId (s : Str) : Option Bytes :=
  match List.readFields [")".toList, " (BuildId: ".toList.reverse] s.reverse with
  | some ([[], buildId], _) => Hex.toBytes buildId.reverse
  | _ => none

/-- What a line shows, if it is that of a frame. -/
def readFrame (s : Str) : Option ShownFrame :=
  match List.readFields ["      #".toList, " pc ".toList, "  ".toList] s with
  | some ([[], index, addr], rest) => do
      let index ← Nat.readDigits 10 index
      let addr ← Nat.readDigits 16 addr
      some { index, addr, buildId := readBuildId rest }
  | _ => none

/-- **The build id is read back**, whatever stands before it. -/
theorem readBuildId_append {buildId : Str} {desc : Bytes} (h : Hex.toBytes buildId = some desc)
    (s : Str) :
    readBuildId (s ++ (" (BuildId: ".toList ++ buildId ++ ")".toList)) = some desc := by
  have hends : List.EndsAt " (BuildId: ".toList.reverse buildId.reverse :=
    List.endsAt_of_not_mem (a := '(') (by decide)
      fun hmem => Hex.not_mem_of_toBytes (by decide) h (List.mem_reverse.1 hmem)
  have hprint : (s ++ (" (BuildId: ".toList ++ buildId ++ ")".toList)).reverse =
      List.printFields [([], ")".toList), (buildId.reverse, " (BuildId: ".toList.reverse)]
        s.reverse := by
    simp [List.printFields]
  have hfields : ∀ field ∈ [(([] : Str), ")".toList),
      (buildId.reverse, " (BuildId: ".toList.reverse)], List.EndsAt field.2 field.1 := by
    simp only [List.forall_mem_cons, List.not_mem_nil, false_imp_iff, implies_true, and_true]
    exact ⟨List.endsAt_nil (by decide), hends⟩
  have hread := (List.readFields_append_iff (by simp) s.reverse).2 hfields
  rw [readBuildId, hprint]
  simp only [List.map_cons, List.map_nil] at hread
  simp only [hread, List.reverse_reverse, h]

/-- **The line of a frame reads back**, whatever the names in it are. -/
theorem readFrame_text (report : FrameReport w) :
    readFrame report.text = some
      { index := report.index
        addr := report.addr.toNat
        buildId := readBuildId (report.fname ++ report.symbolText ++ report.buildIdText) } := by
  have hindex : Nat.readDigits 10 ((decimal report.index).leftpad 2 '0') = some report.index :=
    Nat.readDigits_leftpad (by decide) (by decide) 2 report.index
  have haddr : Nat.readDigits 16 ((Nat.toDigits 16 report.addr.toNat).leftpad 16 '0') =
      some report.addr.toNat :=
    Nat.readDigits_leftpad (by decide) (by decide) 16 report.addr.toNat
  have hends : ∀ field ∈ report.fields, List.EndsAt field.2 field.1 := by
    simp only [FrameReport.fields, List.forall_mem_cons, List.not_mem_nil, false_imp_iff,
      implies_true, and_true]
    exact ⟨List.endsAt_nil (by decide),
      List.endsAt_of_not_mem (a := ' ') (by decide) (Nat.not_mem_of_readDigits (by decide) hindex),
      List.endsAt_of_not_mem (a := ' ') (by decide) (Nat.not_mem_of_readDigits (by decide) haddr)⟩
  have hne : ∀ field ∈ report.fields, field.2 ≠ [] := by
    simp [FrameReport.fields]
  have hread := (List.readFields_append_iff hne
    (report.fname ++ report.symbolText ++ report.buildIdText)).2 hends
  rw [readFrame, FrameReport.text]
  simp only [FrameReport.fields, List.map_cons, List.map_nil] at hread ⊢
  simp only [hread, hindex, haddr, Option.bind_eq_bind, Option.bind_some]

theorem not_mem_decimal {c : Char} (hc : Hex.digitValue c = none) (n : ℕ) : c ∉ decimal n := by
  have hread := Nat.readDigits_leftpad (b := 10) (by decide) (by decide) 0 n
  rw [List.leftpad, Nat.zero_sub, List.replicate_zero, List.nil_append] at hread
  exact Nat.not_mem_of_readDigits hc hread

theorem readFrame_eq_none {s : Str} (h : '#' ∉ s) : readFrame s = none := by
  have hbreak : List.breakAt "      #".toList s = none :=
    List.breakAt_eq_none_of_not_mem (a := '#') (by decide) h
  rw [readFrame, List.readFields, hbreak]
  rfl

theorem not_mem_signedDecimal {c : Char} (hc : Hex.digitValue c = none) (hne : c ∉ "-".toList)
    (n : ℤ) : c ∉ signedDecimal n := by
  rw [signedDecimal]
  refine List.not_mem_append ?_ (not_mem_decimal hc _)
  split
  · exact hne
  · exact List.not_mem_nil

/-- The lines in front are not taken for those of frames. -/
theorem readFrame_front (frameCount : UInt16) (pid tid : ℤ) :
    ∀ line ∈ ([.header frameCount, .stars, .ids pid tid] : List (BacktraceLine w)),
      readFrame line.text = none := by
  have hdigit : Hex.digitValue '#' = none := by decide
  have hprinting : '#' ∉ "Printing backtrace with: ".toList := by decide
  have hmax : '#' ∉ " max lines:".toList := by decide
  have hpid : '#' ∉ "pid: ".toList := by decide
  have htid : '#' ∉ ", tid: ".toList := by decide
  have hheader : '#' ∉ (BacktraceLine.header frameCount : BacktraceLine w).text :=
    List.not_mem_append (List.not_mem_append hprinting (not_mem_decimal hdigit _)) hmax
  have hids : '#' ∉ (BacktraceLine.ids pid tid : BacktraceLine w).text :=
    List.not_mem_append (List.not_mem_append (List.not_mem_append hpid
      (not_mem_signedDecimal hdigit (by decide) _)) htid)
      (not_mem_signedDecimal hdigit (by decide) _)
  have hstars : '#' ∉ "*** *** *** *** *** *** *** *** *** *** *** *** *** *** *** ***".toList := by
    decide
  simp only [List.forall_mem_cons, List.not_mem_nil, false_imp_iff, implies_true, and_true]
  exact ⟨readFrame_eq_none hheader, readFrame_eq_none hstars, readFrame_eq_none hids⟩

/-! ## From the file to the reader -/

namespace Process

variable {process : Process w} {cls : ElfClass}

/-- The frames that resolve, with their indices. -/
def resolved (process : Process w) (pcs : List (BitVec w)) : List (ℕ × BitVec w × DlAddr w) :=
  pcs.zipIdx.filterMap fun (pc, i) => (process.dladdr pc).map fun info => (i, pc, info)

/-- What is read is true of the frame. -/
structure Tells (process : Process w) (cls : ElfClass) (frame : ℕ × BitVec w × DlAddr w)
    (shown : ShownFrame) : Prop where
  index : shown.index = frame.1
  addr : shown.addr = (frame.2.1 - frame.2.2.fbase - 4).toNat
  /-- The build id that the file of the object has, if it has one. -/
  buildId : ∀ file k desc, process.file (process.cString frame.2.2.fname) = some file →
    InFile file 0 cls.sizeofEhdr → k < fileNat file 0 cls.eShnum →
    FirstBuildId cls file 0 k desc → shown.buildId = some desc

/-- The line of a frame that resolves. -/
theorem tells_frameReport (index : ℕ) (pc : BitVec w) (info : DlAddr w) {buildId : Option Str}
    (hsearch : process.searchBuildId cls info.fname = some buildId) :
    ∃ shown, readFrame (process.frameReport index pc info buildId).text = some shown ∧
      Tells process cls (index, pc, info) shown := by
  refine ⟨_, readFrame_text _, rfl, rfl, fun file k desc hfile hin hk hfirst => ?_⟩
  have hfound : getBuildId cls (some file) = some (some (buildIdText desc)) :=
    getBuildId_found_iff.2 ⟨hin, k, hk, desc, hfirst, rfl⟩
  rw [searchBuildId, hfile, hfound] at hsearch
  obtain rfl := Option.some.inj hsearch
  exact readBuildId_append hfirst.toBytes_text _

/-- **From the file to the reader.**  The messages that a backtrace hands to the logger and that read
as those of frames tell, one by one, of the frames that resolve: the index, the address in the object,
and the build id that is in the file of the object. -/
theorem backtrace_tells {pid tid : ℤ} {stack : List (BitVec w)} {frameCount : UInt16}
    {lines : List (BacktraceLine w)} {buildIds : Memo.Table (BitVec w) (Option Str)}
    (h : process.backtrace cls pid tid stack frameCount = some (lines, buildIds)) :
    ∃ pcs, Backtrace.reads stack frameCount = pcs.map some ∧
      List.Forall₂ (Tells process cls) (process.resolved pcs)
        (lines.filterMap fun line => readFrame line.text) := by
  rw [backtrace] at h
  split at h
  · rename_i hle
    obtain ⟨rfl, -⟩ := Prod.mk.inj (Option.some.inj h)
    exact ⟨[], reads_of_le_zero hle, .nil⟩
  · obtain ⟨pcs, hpcs, h⟩ := Option.bind_eq_some_iff.1 h
    obtain ⟨⟨reports, table⟩, hloop, h⟩ := Option.bind_eq_some_iff.1 h
    obtain ⟨rfl, -⟩ := Prod.mk.inj (Option.some.inj h)
    obtain ⟨hsearchable, rfl, -, -⟩ := frameLoop_some Memo.sound_nil hloop
    refine ⟨pcs, CStr.mapM_id_eq_some_iff.1 hpcs, ?_⟩
    rw [List.filterMap_append, List.filterMap_eq_nil_iff.2 (readFrame_front _ _ _),
      List.nil_append, List.filterMap_map, List.filterMap_filterMap, resolved]
    refine List.rel_filterMap (R := fun e e' => e = e' ∧ e.1 ∈ pcs) ?_ ?_
    · rintro ⟨pc, i⟩ - ⟨rfl, hpc⟩
      cases hinfo : process.dladdr pc with
      | none =>
          simp only [frameReport_symbols_none i hinfo, hinfo, Option.map_none, Option.bind_none]
          exact .none
      | some info =>
          obtain ⟨buildId, hsearch⟩ :=
            Option.ne_none_iff_exists'.1 (hsearchable pc hpc info hinfo)
          obtain ⟨shown, hread, htells⟩ := tells_frameReport i pc info hsearch
          simp only [frameReport_symbols i hinfo hsearch, hinfo, Option.map_some, Option.bind_some,
            Function.comp_apply, BacktraceLine.text_frame, hread]
          exact .some htells
    · refine List.forall₂_same.2 fun e he => ⟨rfl, ?_⟩
      exact List.fst_mem_of_mem_zipIdx he

/-- An object with one section, the note with its build id. -/
def oneNote (desc : Bytes) : Bytes :=
  let ehdr := List.replicate 40 0 ++ [64, 0, 0, 0, 0, 0, 0, 0] ++ List.replicate 10 0 ++
    [64, 0, 1, 0, 0, 0]
  let shdr := [0, 0, 0, 0, 7, 0, 0, 0] ++ List.replicate 16 0 ++ [128, 0, 0, 0, 0, 0, 0, 0] ++
    [0x24, 0, 0, 0, 0, 0, 0, 0] ++ List.replicate 24 0
  ehdr ++ shdr ++ [4, 0, 0, 0, 20, 0, 0, 0, 3, 0, 0, 0] ++ gnu ++ desc

/-- A process of one object. -/
def oneObject (desc : Bytes) : Process 64 where
  dladdr _ := some { fname := 0x7000, fbase := 0x1000, sname := none, saddr := 0 }
  cString _ := "libmain.so".toList
  demangle _ := none
  file _ := some (oneNote desc)

theorem backtrace_tells_oneObject :
    ∃ lines buildIds, (oneObject (List.replicate 20 0xAB)).backtrace .elf64 1 2 [0x1010, 0x1020] 1 =
        some (lines, buildIds) ∧
      ∃ pcs, Backtrace.reads [0x1010, 0x1020] 1 = pcs.map some ∧
        List.Forall₂ (Tells (oneObject (List.replicate 20 0xAB)) .elf64)
          ((oneObject (List.replicate 20 0xAB)).resolved pcs)
          (lines.filterMap fun line => readFrame line.text) := by
  have hsome : ((oneObject (List.replicate 20 0xAB)).backtrace .elf64 1 2
      [0x1010, 0x1020] 1).isSome := by
    decide +kernel
  obtain ⟨⟨lines, buildIds⟩, h⟩ := Option.isSome_iff_exists.1 hsome
  exact ⟨lines, buildIds, h, backtrace_tells h⟩

end Process

end Paperlog
