import Paperlog.Model.CppLogger
import Paperlog.Model.Scenario

/-!
# What Rust stores of a C++ string

The two sides disagree about where a string ends.  A view ends after `size` bytes; Rust reads on to
the first NUL of the buffer.  The message comes from a `std::string` and brings its own NUL, but a
tag arrives whole only if a NUL happens to stand right behind the view: `cppStrings_whole_iff`.
Otherwise the rest of the buffer up to its first NUL is stored along with it, or there is no NUL and
the reading runs out of the buffer.
-/

namespace Paperlog

open LoggerThreadCtx

namespace CStr

theorem fromPtr_append {bytes : Bytes} (h : 0 ∉ bytes) (rest : Bytes) :
    fromPtr (bytes ++ rest) = (fromPtr rest).map (bytes ++ ·) := by
  have hkept : ∀ b ∈ bytes, decide (b ≠ 0) = true := fun b hb =>
    decide_eq_true fun hzero => h (hzero ▸ hb)
  simp only [fromPtr, List.mem_append, h, false_or, List.takeWhile_append_of_pos hkept]
  split <;> rfl

/-- A NUL-free string with its NUL. -/
theorem fromPtr_concat {bytes : Bytes} (h : 0 ∉ bytes) : fromPtr (bytes ++ [0]) = some bytes := by
  rw [fromPtr_append h]
  simp [fromPtr]

/-- The reading finds nothing exactly where the NUL comes at once. -/
theorem fromPtr_eq_some_nil_iff {rest : Bytes} : fromPtr rest = some [] ↔ rest.head? = some 0 := by
  cases rest with
  | nil => simp [fromPtr]
  | cons b rest =>
      by_cases hb : b = 0
      · simp [fromPtr, hb]
      · simp [fromPtr, hb]

/-- **A string in a buffer is read back whole exactly if a NUL follows it.** -/
theorem fromPtr_lossy_iff {s : Str} (h : 0 ∉ s.utf8) (rest : Bytes) :
    (fromPtr (s.utf8 ++ rest)).map toStringLossy = some s ↔ rest.head? = some 0 := by
  rw [fromPtr_append h, ← fromPtr_eq_some_nil_iff]
  cases fromPtr rest with
  | none => simp
  | some bytes => simp [toStringLossy_utf8_append, toStringLossy_eq_nil_iff]

end CStr

/-! ## What the three functions store -/

section

variable {W ω Tid : Type} (logger : Sys W ω Tid) {sourceOffset : ℕ} (now : DateTime)

theorem registerFileContextId_eq {view : StringView} {memory : Bytes}
    (hdata : view.data = some memory) :
    registerFileContextId (some logger) view now = (CStr.fromPtr memory).map fun tag =>
      some (.write (.registerContext (CStr.toStringLossy tag) now)) := by
  rw [registerFileContextId, hdata]
  cases hptr : CStr.fromPtr memory with
  | none => simp [paper2RegisterContextId, hptr]
  | some tag => simp [paper2RegisterContextId, hptr]

theorem unregisterFileContextId_eq {view : StringView} {memory : Bytes}
    (hdata : view.data = some memory) :
    unregisterFileContextId (some logger) view = (CStr.fromPtr memory).map fun tag =>
      some (.write (.unregisterContext (CStr.toStringLossy tag))) := by
  rw [unregisterFileContextId, hdata]
  cases hptr : CStr.fromPtr memory with
  | none => simp [paper2UnregisterContextId, hptr]
  | some tag => simp [paper2UnregisterContextId, hptr]

variable (level : LogLevel) {message : Str} (hmessage : 0 ∉ message.utf8)
  (sourceLoc : SourceLocation sourceOffset)

include hmessage

/-- Message and source position are always read whole, the tag as the buffer has it. -/
theorem fmtLogTag_eq : ∃ file functionName, ∀ view : StringView,
    fmtLogTag (some logger) level message.utf8 sourceLoc view now =
      (CStr.ofCharPtr view.data).map fun tag =>
        (some (.paper2QueueLogFfi
          { level
            tag := tag.map CStr.toStringLossy
            message
            timestamp := now
            file
            line := sourceLoc.line
            column := sourceLoc.column
            functionName := some functionName }), true) := by
  have hsome : ∀ ptr : Bytes, 0 ∈ ptr → ∃ bytes, CStr.fromPtr ptr = some bytes := fun ptr hptr =>
    ⟨_, if_pos hptr⟩
  have hnul : 0 ∈ (sourceLoc.fileName ++ [0]).drop sourceOffset := by
    rw [List.drop_append_of_le_length sourceLoc.offset_le]
    simp
  obtain ⟨file, hfile⟩ := hsome _ hnul
  obtain ⟨functionName, hfunction⟩ := hsome (sourceLoc.functionName ++ [0]) (by simp)
  refine ⟨CStr.toStringLossy file, CStr.toStringLossy functionName, fun view => ?_⟩
  have hwhole := CStr.fromPtr_concat hmessage
  have hmessagePtr : CStr.ofCharPtr (cStr message.utf8) = some (some message.utf8) := by
    simp [CStr.ofCharPtr, cStr, hwhole]
  rw [fmtLogTag, vfmtLog, paper2QueueLogPtr, hmessagePtr]
  simp only [cStr, StringView.ofCString, CharPtr.add, Option.map_some]
  cases htag : CStr.ofCharPtr view.data with
  | none => rfl
  | some tag =>
      simp [paper2QueueLogFfi, LogData.default, CStr.toStringLossy_utf8, CStr.ofCharPtr, hfile,
        hfunction]

/-- A log without a tag has none. -/
theorem fmtLog_eq : ∃ log,
    fmtLog (some logger) level message.utf8 sourceLoc now =
      some (some (.paper2QueueLogFfi log), true) ∧ log.tag = none ∧ log.message = message := by
  obtain ⟨file, functionName, hlog⟩ := fmtLogTag_eq logger now level hmessage sourceLoc
  exact ⟨_, hlog .empty, rfl, rfl⟩

end

/-! ## Whole strings -/

section

variable {W ω Tid : Type} (logger : Sys W ω Tid) {sourceOffset : ℕ} (level : LogLevel)
  (message : Str) (sourceLoc : SourceLocation sourceOffset) (view : StringView) (now : DateTime)

/-- The record is written to the file of `s`, which the registration of `registered` has created. -/
def ReachesFile (registered : Str) (log : LogData) (s : Str) : Prop :=
  ∀ {resolve : PathBuf → Place} {disk disk₁ disk₂ : Disk resolve}
    {ctx ctx₁ ctx₂ : LoggerThreadCtx BufWriter},
    addContext registered (disk, ctx) = .ok () (disk₁, ctx₁) →
    fileDoLog log (disk₁, ctx₁) = .ok () (disk₂, ctx₂) →
    ∃ file, ctx₂.contextMap.lookup s = some file ∧
      file.inner.place = resolve (contextPath ctx.config s) ∧ file.contents = log.compactLine

/-- What Rust stores of the tag is `s`, what it stores of the message is the message, and a log with
the registered tag is written to that tag's file. -/
structure StringsWhole (s : Str) : Prop where
  log : ∃ log, fmtLogTag (some logger) level message.utf8 sourceLoc view now =
      some (some (.paper2QueueLogFfi log), true) ∧
    log.tag = some s ∧ log.message = message ∧ ReachesFile s log s
  register : registerFileContextId (some logger) view now =
    some (some (.write (.registerContext s now)))
  unregister : unregisterFileContextId (some logger) view =
    some (some (.write (.unregisterContext s)))

theorem reachesFile_of_tag {log : LogData} {s : Str} (h : log.tag = some s) :
    ReachesFile s log s := by
  intro resolve disk disk₁ disk₂ ctx ctx₁ ctx₂ hadd hlog
  rw [addContext_disk] at hadd
  cases hadd
  rcases Logged.of_fileDoLog hlog with ⟨hfile, -, -⟩ | ⟨htag, hfile, -, -, hcontext, -⟩
  · rw [tagFile, h, Option.bind_some, List.lookup_cons_self] at hfile
    cases hfile
  · obtain rfl := Option.some.inj (h.symm.trans htag)
    rw [List.lookup_cons_self] at hfile
    obtain rfl := Option.some.inj hfile
    refine ⟨_, ?_, hcontext.place,
      by simpa [Disk.create, BufWriter.contents] using hcontext.contents⟩
    rw [setContextFile, List.map_cons, if_pos rfl, List.lookup_cons_self]

variable {view} {memory : Bytes} {s : Str}

/-- **Which strings arrive whole.**  A tag and a message without NULs are stored as they are, and the
log reaches the tag's file, exactly when the byte right behind the view is a NUL. -/
theorem cppStrings_whole_iff (hdata : view.data = some memory) (hviewed : view.viewed = s.utf8)
    (hnul : 0 ∉ view.viewed) (hmessage : 0 ∉ message.utf8) :
    StringsWhole logger level message sourceLoc view now s ↔ memory[view.size]? = some 0 := by
  have hmemory : memory = s.utf8 ++ memory.drop view.size := by
    rw [← hviewed, StringView.viewed, hdata]
    exact (List.take_append_drop view.size memory).symm
  have hwhole := CStr.fromPtr_lossy_iff (hviewed ▸ hnul) (memory.drop view.size)
  rw [← hmemory, List.head?_drop] at hwhole
  rw [← hwhole]
  constructor
  · intro h
    have hregister := h.register
    rw [registerFileContextId_eq logger now hdata, Option.map_eq_some_iff] at hregister
    obtain ⟨tag, hptr, htag⟩ := hregister
    simp only [Option.some.injEq, Call.write.injEq, WriteCall.registerContext.injEq, and_true]
      at htag
    rw [hptr, Option.map_some, htag]
  · intro h
    obtain ⟨tag, hptr, rfl⟩ := Option.map_eq_some_iff.1 h
    obtain ⟨file, functionName, hlogs⟩ := fmtLogTag_eq logger now level hmessage sourceLoc
    have hlog := hlogs view
    rw [hdata, CStr.ofCharPtr, hptr] at hlog
    refine ⟨⟨_, hlog, rfl, rfl, reachesFile_of_tag rfl⟩, ?_, ?_⟩
    · rw [registerFileContextId_eq logger now hdata, hptr]
      rfl
    · rw [unregisterFileContextId_eq logger hdata, hptr]
      rfl

end

/-- A logger that has just been started. -/
def freshLogger : Sys (Disk Scenario.resolve) BufWriter Unit := Scenario.start .default fun _ => []

/-- The first three bytes of a buffer. -/
def firstThree (memory : Bytes) (h : 3 ≤ memory.length) : StringView := ⟨some memory, 3, h⟩

/-- The place of a log in `main.cpp`. -/
def mainCpp : SourceLocation 0 :=
  { fileName := Str.utf8 "main.cpp".toList
    functionName := Str.utf8 "main".toList
    line := 12
    column := 5
    offset_le := Nat.zero_le _ }

/-- A tag with its own NUL arrives. -/
theorem cppStrings_whole_iff_terminated :
    StringsWhole freshLogger .info "hello".toList mainCpp
        (firstThree (Str.utf8 "Foo".toList ++ [0]) (by decide)) Scenario.time "Foo".toList ↔
      (Str.utf8 "Foo".toList ++ [0])[3]? = some 0 :=
  cppStrings_whole_iff freshLogger .info "hello".toList mainCpp Scenario.time rfl (by decide +kernel)
    (by decide +kernel) (by decide +kernel)

/-- A view of the first half of a word: Rust stores the whole word.  Without a NUL in the buffer the
reading runs out of it. -/
theorem tagView_overread :
    (firstThree (Str.utf8 "FooBar".toList ++ [0]) (by decide)).viewed = Str.utf8 "Foo".toList ∧
    registerFileContextId (some freshLogger)
        (firstThree (Str.utf8 "FooBar".toList ++ [0]) (by decide)) Scenario.time =
      some (some (.write (.registerContext "FooBar".toList Scenario.time))) ∧
    registerFileContextId (some freshLogger)
        (firstThree (Str.utf8 "FooBar".toList) (by decide)) Scenario.time = none ∧
    ¬ StringsWhole freshLogger .info "hello".toList mainCpp
        (firstThree (Str.utf8 "FooBar".toList ++ [0]) (by decide)) Scenario.time "Foo".toList := by
  have hptr : CStr.fromPtr (Str.utf8 "FooBar".toList ++ [0]) = some (Str.utf8 "FooBar".toList) :=
    CStr.fromPtr_concat (by decide +kernel)
  have hstored : registerFileContextId (some freshLogger)
      (firstThree (Str.utf8 "FooBar".toList ++ [0]) (by decide)) Scenario.time =
        some (some (.write (.registerContext "FooBar".toList Scenario.time))) := by
    rw [registerFileContextId_eq freshLogger Scenario.time rfl, hptr, Option.map_some,
      CStr.toStringLossy_utf8]
  refine ⟨by decide +kernel, hstored, ?_, fun h => ?_⟩
  · rw [registerFileContextId_eq freshLogger Scenario.time rfl]
    decide +kernel
  · have hregister := h.register
    rw [hstored] at hregister
    revert hregister
    decide +kernel

end Paperlog
