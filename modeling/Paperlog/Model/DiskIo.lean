import Paperlog.Model.LoggerThreadCtx

/-!
# Writing to a disk that never fails

What the operations of the logger do to one `BufWriter` and to the files, when the operating system
never refuses.  `Appended` is the whole effect of a write or a flush: the bytes are at the end of
what the writer has been given, every other file is untouched, and the file of the writer holds
what its handle has written (`Backed`).  The results for `write_fmt`, `do_log`, `do_log_batch` and
`flush` follow by composition.
-/

namespace Paperlog

variable {resolve : PathBuf → Place}

namespace BufWriter

/-- The file of `w` holds what its handle has written, over what is left of older bytes. -/
def Backed (disk : Disk resolve) (w : BufWriter) (stale : Bytes) : Prop :=
  disk.files w.inner.place = some (w.inner.written ++ stale.drop w.inner.written.length)

/-- The file at `place` exists and has at least `n` bytes. -/
def FileReaches (disk : Disk resolve) (place : Place) (n : ℕ) : Prop :=
  ∃ content, disk.files place = some content ∧ n ≤ content.length

/-- `w` has been given `bytes` and has become `w'`. -/
structure Appended (disk : Disk resolve) (w : BufWriter) (bytes : Bytes) (disk' : Disk resolve)
    (w' : BufWriter) : Prop where
  contents : w'.contents = w.contents ++ bytes
  place : w'.inner.place = w.inner.place
  written : w.inner.written <+: w'.inner.written
  frame : ∀ q, q ≠ w.inner.place → disk'.files q = disk.files q
  backed : ∀ stale, Backed disk w stale → Backed disk' w' stale
  grows : ∀ n, FileReaches disk w.inner.place n → FileReaches disk' w.inner.place n
  reaches : w'.inner.written ≠ w.inner.written →
    FileReaches disk' w.inner.place w'.inner.written.length

namespace Appended

variable {disk disk₁ disk₂ : Disk resolve} {w w₁ w₂ : BufWriter} {bytes bytes' : Bytes}

theorem refl (disk : Disk resolve) (w : BufWriter) : Appended disk w [] disk w :=
  ⟨by simp, rfl, List.prefix_rfl, fun _ _ => rfl, fun _ h => h, fun _ h => h, fun h => absurd rfl h⟩

theorem trans (h : Appended disk w bytes disk₁ w₁) (h' : Appended disk₁ w₁ bytes' disk₂ w₂) :
    Appended disk w (bytes ++ bytes') disk₂ w₂ where
  contents := by rw [h'.contents, h.contents, List.append_assoc]
  place := h'.place.trans h.place
  written := h.written.trans h'.written
  frame q hq := (h'.frame q (h.place ▸ hq)).trans (h.frame q hq)
  backed stale hs := h'.backed stale (h.backed stale hs)
  grows n hn := h.place ▸ h'.grows n (h.place ▸ h.grows n hn)
  reaches hne := by
    by_cases hsecond : w₂.inner.written = w₁.inner.written
    · rw [hsecond] at hne ⊢
      have hfirst := h'.grows _ (h.place ▸ h.reaches hne)
      rwa [h.place] at hfirst
    · exact h.place ▸ h'.reaches hsecond

/-- No file gets shorter. -/
theorem fileReaches (h : Appended disk w bytes disk₁ w₁) {q : Place} {n : ℕ}
    (hq : FileReaches disk q n) : FileReaches disk₁ q n := by
  by_cases hpath : q = w.inner.place
  · subst hpath
    exact h.grows n hq
  · obtain ⟨content, hcontent, hn⟩ := hq
    exact ⟨content, (h.frame q hpath).trans hcontent, hn⟩

end Appended

end BufWriter

theorem writeAt_end (written rest new : Bytes) :
    writeAt (written ++ rest) written.length new = written ++ new ++ rest.drop new.length := by
  have hgap : written.length - (written ++ rest).length = 0 := by simp
  have hrest : (written ++ rest).drop (written.length + new.length) = rest.drop new.length := by
    rw [← List.drop_drop, List.drop_left]
  rw [writeAt, hgap, hrest, List.take_left]
  simp

theorem File.writeAll_written (disk : Disk resolve) (file : File) (new : Bytes) :
    (file.writeAll disk new).2.written = file.written ++ new := by
  unfold File.writeAll
  split
  · rename_i h
    simp [h]
  · rfl

theorem File.writeAll_place (disk : Disk resolve) (file : File) (new : Bytes) :
    (file.writeAll disk new).2.place = file.place := by
  unfold File.writeAll
  split <;> rfl

theorem File.writeAll_frame (disk : Disk resolve) (file : File) (new : Bytes) {q : Place}
    (hq : q ≠ file.place) : (file.writeAll disk new).1.files q = disk.files q := by
  unfold File.writeAll
  split
  · rfl
  · simp [hq]

/-- The handle goes on where it stopped; the older bytes behind it are overwritten one by one. -/
theorem File.writeAll_files {disk : Disk resolve} {file : File} {stale : Bytes} (new : Bytes)
    (h : disk.files file.place = some (file.written ++ stale.drop file.written.length)) :
    (file.writeAll disk new).1.files file.place =
      some (file.written ++ new ++ stale.drop (file.written ++ new).length) := by
  unfold File.writeAll
  split
  · rename_i hnew
    simp [hnew, h]
  · have hdrop : (stale.drop file.written.length).drop new.length =
        stale.drop (file.written ++ new).length := by
      rw [List.drop_drop, List.length_append]
    simp [h, writeAt_end, hdrop]

theorem File.writeAll_grows (disk : Disk resolve) (file : File) (new : Bytes) {n : ℕ}
    (h : BufWriter.FileReaches disk file.place n) :
    BufWriter.FileReaches (file.writeAll disk new).1 file.place n := by
  obtain ⟨content, hcontent, hn⟩ := h
  unfold File.writeAll
  split
  · exact ⟨content, hcontent, hn⟩
  · refine ⟨writeAt content file.written.length new, by simp [hcontent], hn.trans ?_⟩
    simp only [writeAt, List.length_append, List.length_take, List.length_replicate,
      List.length_drop]
    omega

theorem File.writeAll_reaches (disk : Disk resolve) (file : File) (new : Bytes)
    (h : (file.writeAll disk new).2.written ≠ file.written) :
    BufWriter.FileReaches (file.writeAll disk new).1 file.place
      (file.writeAll disk new).2.written.length := by
  unfold File.writeAll at h ⊢
  split at h
  · exact absurd rfl h
  · rename_i hnew
    rw [if_neg hnew]
    refine ⟨writeAt ((disk.files file.place).getD []) file.written.length new, by simp, ?_⟩
    simp only [writeAt, List.length_append, List.length_take, List.length_replicate,
      List.length_drop]
    omega

namespace BufWriter

/-- Bytes that go straight to the handle of a writer with an empty buffer. -/
theorem appended_inner (disk : Disk resolve) {w : BufWriter} (hw : w.buf = []) (new : Bytes) :
    Appended disk w new (w.inner.writeAll disk new).1
      { w with inner := (w.inner.writeAll disk new).2 } where
  contents := by simp [contents, File.writeAll_written, hw]
  place := File.writeAll_place disk w.inner new
  written := by
    rw [File.writeAll_written]
    exact List.prefix_append _ _
  frame _ hq := File.writeAll_frame disk w.inner new hq
  backed stale hs := by
    have hfiles := File.writeAll_files new hs
    simpa [Backed, File.writeAll_place, File.writeAll_written] using hfiles
  grows _ hn := File.writeAll_grows disk w.inner new hn
  reaches hne := File.writeAll_reaches disk w.inner new hne

theorem appended_buf (disk : Disk resolve) (w : BufWriter) (new : Bytes) :
    Appended disk w new disk { w with buf := w.buf ++ new } :=
  ⟨by simp [contents], rfl, List.prefix_rfl, fun _ _ => rfl, fun _ h => h, fun _ h => h,
    fun h => absurd rfl h⟩

theorem flushBuf_appended (disk : Disk resolve) (w : BufWriter) :
    Appended disk w [] (w.flushBuf disk).1 (w.flushBuf disk).2 where
  contents := by simp [flushBuf, contents, File.writeAll_written]
  place := File.writeAll_place disk w.inner w.buf
  written := by
    rw [flushBuf, File.writeAll_written]
    exact List.prefix_append _ _
  frame _ hq := File.writeAll_frame disk w.inner w.buf hq
  backed stale hs := by
    have hfiles := File.writeAll_files w.buf hs
    simpa [Backed, flushBuf, File.writeAll_place, File.writeAll_written] using hfiles
  grows _ hn := File.writeAll_grows disk w.inner w.buf hn
  reaches hne := File.writeAll_reaches disk w.inner w.buf hne

/-- Without pending bytes a flush does not touch the disk. -/
theorem flushBuf_of_buf_nil (disk : Disk resolve) {w : BufWriter} (h : w.buf = []) :
    (w.flushBuf disk).1 = disk := by
  simp [flushBuf, File.writeAll, h]

@[simp] theorem flushBuf_buf (disk : Disk resolve) (w : BufWriter) : (w.flushBuf disk).2.buf = [] :=
  rfl

theorem flushBuf_written (disk : Disk resolve) (w : BufWriter) :
    (w.flushBuf disk).2.inner.written = w.contents :=
  File.writeAll_written disk w.inner w.buf

theorem writeAll_appended (disk : Disk resolve) (w : BufWriter) (new : Bytes) :
    Appended disk w new (w.writeAll disk new).1 (w.writeAll disk new).2 := by
  unfold writeAll
  by_cases hfast : new.length < capacity - w.buf.length
  · rw [if_pos hfast]
    exact appended_buf disk w new
  · rw [if_neg hfast]
    by_cases hflush : capacity - w.buf.length < new.length
    · rw [if_pos hflush]
      have h₁ := flushBuf_appended disk w
      by_cases hbig : capacity ≤ new.length
      · simpa only [if_pos hbig, List.nil_append] using
          h₁.trans (appended_inner (w.flushBuf disk).1 (flushBuf_buf disk w) new)
      · simpa only [if_neg hbig, List.nil_append] using
          h₁.trans (appended_buf (w.flushBuf disk).1 (w.flushBuf disk).2 new)
    · rw [if_neg hflush]
      by_cases hbig : capacity ≤ new.length
      · -- A write of a whole buffer that is not too big for the space left: the buffer is empty.
        have hempty : w.buf = [] := by
          have hcap : 0 < capacity := by decide
          have hlen : w.buf.length = 0 := by omega
          exact List.length_eq_zero_iff.1 hlen
        simpa only [if_pos hbig] using appended_inner disk hempty new
      · simpa only [if_neg hbig] using appended_buf disk w new

/-- A small write is never on disk when it returns. -/
theorem writeAll_buf_ne_nil (disk : Disk resolve) (w : BufWriter) {new : Bytes} (hnew : new ≠ [])
    (hsmall : new.length < capacity) : (w.writeAll disk new).2.buf ≠ [] := by
  have hbuf : (w.writeAll disk new).2.buf = w.buf ++ new ∨
      (w.writeAll disk new).2.buf = new := by
    unfold writeAll
    have hbig : ¬ capacity ≤ new.length := Nat.not_le.2 hsmall
    by_cases hfast : new.length < capacity - w.buf.length
    · simp [hfast]
    · by_cases hflush : capacity - w.buf.length < new.length
      · simp [hfast, hflush, hbig]
      · simp [hfast, hflush, hbig]
  rcases hbuf with h | h
  · simp [h, hnew]
  · simp [h, hnew]

end BufWriter

open BufWriter

theorem writeFmt_cons (piece : Str) (pieces : List Str) (disk : Disk resolve) (w : BufWriter) :
    writeFmt (piece :: pieces) (disk, w) = writeFmt pieces (w.writeAll disk piece.utf8) := rfl

/-- `write_fmt` of pieces whose last is a line end leaves that line end in the buffer. -/
theorem writeFmt_disk (pieces : List Str) (disk : Disk resolve) (w : BufWriter) :
    ∃ disk' w', writeFmt (pieces ++ ["\n".toList]) (disk, w) = .ok () (disk', w') ∧
      Appended disk w ((pieces ++ ["\n".toList]).flatMap Str.utf8) disk' w' ∧ w'.buf ≠ [] := by
  induction pieces generalizing disk w with
  | nil =>
      have happ := w.writeAll_appended disk (Str.utf8 "\n".toList)
      have hbuf : (w.writeAll disk (Str.utf8 "\n".toList)).2.buf ≠ [] :=
        w.writeAll_buf_ne_nil disk (by decide) (by decide)
      refine ⟨(w.writeAll disk (Str.utf8 "\n".toList)).1, (w.writeAll disk (Str.utf8 "\n".toList)).2,
        writeFmt_cons _ [] disk w, ?_, hbuf⟩
      rwa [List.nil_append, List.flatMap_singleton]
  | cons piece pieces ih =>
      have hpiece := w.writeAll_appended disk piece.utf8
      obtain ⟨disk', w', hrun, happ, hbuf⟩ :=
        ih (w.writeAll disk piece.utf8).1 (w.writeAll disk piece.utf8).2
      refine ⟨disk', w', ?_, by simpa using hpiece.trans happ, hbuf⟩
      rw [List.cons_append, writeFmt_cons, hrun]

theorem writeToIo_disk (log : LogData) (disk : Disk resolve) (w : BufWriter) :
    ∃ disk' w', log.writeToIo (disk, w) = .ok () (disk', w') ∧
      Appended disk w log.ioLine disk' w' ∧ w'.buf ≠ [] := by
  have h := writeFmt_disk ([[log.level.short], " ".toList, log.timestamp.calendar, " [".toList,
    log.tag.getD defaultTag, "] [".toList] ++ log.locationPieces ++ [log.message]) disk w
  simpa [LogData.writeToIo, LogData.ioLine, LogData.ioPieces, List.append_assoc] using h

theorem writeCompactToIo_disk (log : LogData) (disk : Disk resolve) (w : BufWriter) :
    ∃ disk' w', log.writeCompactToIo (disk, w) = .ok () (disk', w') ∧
      Appended disk w log.compactLine disk' w' ∧ w'.buf ≠ [] := by
  have h := writeFmt_disk ([[log.level.short], " ".toList, log.timestamp.calendar, " [".toList] ++
    log.locationPieces ++ [log.message]) disk w
  simpa [LogData.writeCompactToIo, LogData.compactLine, LogData.compactPieces,
    List.append_assoc] using h

/-! ## The operations behind the lock -/

namespace LoggerThreadCtx

variable {disk : Disk resolve} {ctx : LoggerThreadCtx BufWriter}

/-- The file a record with this tag goes to, besides the global one. -/
def tagFile (ctx : LoggerThreadCtx BufWriter) (tag : Option Str) : Option BufWriter :=
  tag.bind fun tag => ctx.contextMap.lookup tag

/-- What one record does: it is appended to the global file and, when its tag has a file, there
too; both writers end up with a nonempty buffer. -/
inductive Logged (log : LogData) (disk : Disk resolve) (ctx : LoggerThreadCtx BufWriter) :
    Disk resolve → LoggerThreadCtx BufWriter → Prop
  | untagged {disk' globalFile} (hfile : ctx.tagFile log.tag = none)
      (hglobal : Appended disk ctx.globalFile log.ioLine disk' globalFile)
      (hbuf : globalFile.buf ≠ []) :
      Logged log disk ctx disk' { ctx with globalFile }
  | tagged {tag file disk₁ disk' globalFile file'} (htag : log.tag = some tag)
      (hfile : ctx.contextMap.lookup tag = some file)
      (hglobal : Appended disk ctx.globalFile log.ioLine disk₁ globalFile)
      (hbuf : globalFile.buf ≠ [])
      (hcontext : Appended disk₁ file log.compactLine disk' file') (hbuf' : file'.buf ≠ []) :
      Logged log disk ctx disk'
        { ctx with globalFile, contextMap := setContextFile ctx.contextMap tag file' }

theorem onGlobalFile_ok {op : EStateM IoError (Disk resolve × BufWriter) Unit} {disk' : Disk resolve}
    {globalFile : BufWriter} (h : op (disk, ctx.globalFile) = .ok () (disk', globalFile)) :
    onGlobalFile op (disk, ctx) = .ok () (disk', { ctx with globalFile }) := by
  simp only [onGlobalFile, h]

theorem onContextFile_none (op : EStateM IoError (Disk resolve × BufWriter) Unit) {tag : Str}
    (h : ctx.contextMap.lookup tag = none) :
    onContextFile tag op (disk, ctx) = .ok () (disk, ctx) := by
  simp only [onContextFile, h]

theorem onContextFile_ok {op : EStateM IoError (Disk resolve × BufWriter) Unit} {tag : Str}
    {file file' : BufWriter} {disk' : Disk resolve} (hfile : ctx.contextMap.lookup tag = some file)
    (h : op (disk, file) = .ok () (disk', file')) :
    onContextFile tag op (disk, ctx) =
      .ok () (disk', { ctx with contextMap := setContextFile ctx.contextMap tag file' }) := by
  simp only [onContextFile, hfile, h]

theorem fileDoLog_disk (log : LogData) (disk : Disk resolve) (ctx : LoggerThreadCtx BufWriter) :
    ∃ disk' ctx', fileDoLog log (disk, ctx) = .ok () (disk', ctx') ∧
      Logged log disk ctx disk' ctx' := by
  obtain ⟨disk₁, globalFile, hrun, hglobal, hbuf⟩ := writeToIo_disk log disk ctx.globalFile
  have hhead := onGlobalFile_ok hrun
  cases htag : log.tag with
  | none =>
      refine ⟨disk₁, { ctx with globalFile }, ?_, .untagged (by simp [tagFile, htag]) hglobal hbuf⟩
      simp only [fileDoLog, htag, bind, EStateM.bind, hhead]
      rfl
  | some tag =>
      cases hfile : ctx.contextMap.lookup tag with
      | none =>
          refine ⟨disk₁, { ctx with globalFile }, ?_,
            .untagged (by simp [tagFile, htag, hfile]) hglobal hbuf⟩
          simp only [fileDoLog, htag, bind, EStateM.bind, hhead]
          exact onContextFile_none _ hfile
      | some file =>
          obtain ⟨disk', file', hrun', hcontext, hbuf'⟩ := writeCompactToIo_disk log disk₁ file
          refine ⟨disk', { ctx with
            globalFile, contextMap := setContextFile ctx.contextMap tag file' }, ?_,
            .tagged htag hfile hglobal hbuf hcontext hbuf'⟩
          simp only [fileDoLog, htag, bind, EStateM.bind, hhead]
          have hfile' : ({ ctx with globalFile } : LoggerThreadCtx BufWriter).contextMap.lookup tag =
              some file := hfile
          exact onContextFile_ok hfile' hrun'

/-- What a batch does: its records in order. -/
inductive BatchLogged : List LogData → Disk resolve → LoggerThreadCtx BufWriter →
    Disk resolve → LoggerThreadCtx BufWriter → Prop
  | nil (disk : Disk resolve) (ctx : LoggerThreadCtx BufWriter) : BatchLogged [] disk ctx disk ctx
  | cons {log logs disk ctx disk₁ ctx₁ disk₂ ctx₂} (hlog : Logged log disk ctx disk₁ ctx₁)
      (hlogs : BatchLogged logs disk₁ ctx₁ disk₂ ctx₂) : BatchLogged (log :: logs) disk ctx disk₂ ctx₂

theorem doLogBatch_disk (logs : List LogData) (disk : Disk resolve) (ctx : LoggerThreadCtx BufWriter) :
    ∃ disk' ctx', doLogBatch logs (disk, ctx) = .ok () (disk', ctx') ∧
      BatchLogged logs disk ctx disk' ctx' := by
  induction logs generalizing disk ctx with
  | nil => exact ⟨disk, ctx, rfl, .nil disk ctx⟩
  | cons log logs ih =>
      obtain ⟨disk₁, ctx₁, hrun₁, hlog⟩ := fileDoLog_disk log disk ctx
      obtain ⟨disk₂, ctx₂, hrun₂, hlogs⟩ := ih disk₁ ctx₁
      refine ⟨disk₂, ctx₂, ?_, .cons hlog hlogs⟩
      rw [doLogBatch_cons]
      simp only [bind, EStateM.bind, hrun₁, hrun₂]

theorem Logged.globalFile_contents {log : LogData} {disk' : Disk resolve}
    {ctx' : LoggerThreadCtx BufWriter} (h : Logged log disk ctx disk' ctx') :
    ctx'.globalFile.contents = ctx.globalFile.contents ++ log.ioLine := by
  rcases h with ⟨_, hglobal, _⟩ | ⟨_, _, hglobal, _, _, _⟩
  · exact hglobal.contents
  · exact hglobal.contents

theorem Logged.globalFile_written {log : LogData} {disk' : Disk resolve}
    {ctx' : LoggerThreadCtx BufWriter} (h : Logged log disk ctx disk' ctx') :
    ctx.globalFile.inner.written <+: ctx'.globalFile.inner.written := by
  rcases h with ⟨_, hglobal, _⟩ | ⟨_, _, hglobal, _, _, _⟩
  · exact hglobal.written
  · exact hglobal.written

theorem Logged.globalFile_buf {log : LogData} {disk' : Disk resolve}
    {ctx' : LoggerThreadCtx BufWriter} (h : Logged log disk ctx disk' ctx') :
    ctx'.globalFile.buf ≠ [] := by
  rcases h with ⟨_, _, hbuf⟩ | ⟨_, _, _, hbuf, _, _⟩
  · exact hbuf
  · exact hbuf

theorem BatchLogged.globalFile_contents {logs : List LogData} {disk' : Disk resolve}
    {ctx' : LoggerThreadCtx BufWriter} (h : BatchLogged logs disk ctx disk' ctx') :
    ctx'.globalFile.contents = ctx.globalFile.contents ++ logs.flatMap LogData.ioLine := by
  induction h with
  | nil => simp
  | cons hlog _ ih =>
      rw [ih, hlog.globalFile_contents, List.flatMap_cons, List.append_assoc]

theorem BatchLogged.globalFile_written {logs : List LogData} {disk' : Disk resolve}
    {ctx' : LoggerThreadCtx BufWriter} (h : BatchLogged logs disk ctx disk' ctx') :
    ctx.globalFile.inner.written <+: ctx'.globalFile.inner.written := by
  induction h with
  | nil => exact List.prefix_rfl
  | cons hlog _ ih => exact hlog.globalFile_written.trans ih

theorem fileDoLog_ne_error (log : LogData) (e : IoError)
    (r : Disk resolve × LoggerThreadCtx BufWriter) : fileDoLog log (disk, ctx) ≠ .error e r := by
  obtain ⟨disk', ctx', hrun, -⟩ := fileDoLog_disk log disk ctx
  rw [hrun]
  exact nofun

theorem doLogBatch_ne_error (logs : List LogData) (e : IoError)
    (r : Disk resolve × LoggerThreadCtx BufWriter) : doLogBatch logs (disk, ctx) ≠ .error e r := by
  obtain ⟨disk', ctx', hrun, -⟩ := doLogBatch_disk logs disk ctx
  rw [hrun]
  exact nofun

theorem Logged.of_fileDoLog {log : LogData} {disk' : Disk resolve} {ctx' : LoggerThreadCtx BufWriter}
    (h : fileDoLog log (disk, ctx) = .ok () (disk', ctx')) : Logged log disk ctx disk' ctx' := by
  obtain ⟨disk'', ctx'', hrun, hlogged⟩ := fileDoLog_disk log disk ctx
  rw [hrun] at h
  cases h
  exact hlogged

theorem BatchLogged.of_doLogBatch {logs : List LogData} {disk' : Disk resolve}
    {ctx' : LoggerThreadCtx BufWriter} (h : doLogBatch logs (disk, ctx) = .ok () (disk', ctx')) :
    BatchLogged logs disk ctx disk' ctx' := by
  obtain ⟨disk'', ctx'', hrun, hlogged⟩ := doLogBatch_disk logs disk ctx
  rw [hrun] at h
  cases h
  exact hlogged

/-! ### Flushing -/

/-- Flushing every value of the context map. -/
def flushAll (disk : Disk resolve) : List (Str × BufWriter) → Disk resolve × List (Str × BufWriter)
  | [] => (disk, [])
  | (tag, file) :: rest =>
      let (disk, file) := file.flushBuf disk
      let (disk, rest) := flushAll disk rest
      (disk, (tag, file) :: rest)

theorem flushValues_disk (disk : Disk resolve) (contextMap : List (Str × BufWriter)) :
    flushValues disk contextMap = .ok () (flushAll disk contextMap) := by
  induction contextMap generalizing disk with
  | nil => rfl
  | cons entry rest ih =>
      have hfirst : (FileIo.flush : EStateM IoError (Disk resolve × BufWriter) Unit) (disk, entry.2) =
          .ok () (entry.2.flushBuf disk) := rfl
      simp only [flushValues, flushAll, hfirst, ih]

theorem flushFiles_disk (disk : Disk resolve) (ctx : LoggerThreadCtx BufWriter) :
    flushFiles (disk, ctx) =
      .ok () ((flushAll (ctx.globalFile.flushBuf disk).1 ctx.contextMap).1,
        { ctx with
          globalFile := (ctx.globalFile.flushBuf disk).2
          contextMap := (flushAll (ctx.globalFile.flushBuf disk).1 ctx.contextMap).2 }) := by
  have hfirst : onGlobalFile FileIo.flush (disk, ctx) =
      .ok () ((ctx.globalFile.flushBuf disk).1,
        { ctx with globalFile := (ctx.globalFile.flushBuf disk).2 }) :=
    onGlobalFile_ok rfl
  simp only [flushFiles, bind, EStateM.bind, hfirst, flushValues_disk]

theorem flushFiles_ne_error (e : IoError) (r : Disk resolve × LoggerThreadCtx BufWriter) :
    flushFiles (disk, ctx) ≠ .error e r := by
  rw [flushFiles_disk]
  exact nofun

/-- No file holds pending bytes. -/
def Clean (ctx : LoggerThreadCtx BufWriter) : Prop :=
  ctx.globalFile.buf = [] ∧ ∀ entry ∈ ctx.contextMap, entry.2.buf = []

theorem buf_of_mem_flushAll {disk : Disk resolve} {contextMap : List (Str × BufWriter)}
    {entry : Str × BufWriter} (h : entry ∈ (flushAll disk contextMap).2) : entry.2.buf = [] := by
  induction contextMap generalizing disk with
  | nil => exact absurd h List.not_mem_nil
  | cons first rest ih =>
      rcases List.mem_cons.1 h with rfl | hrest
      · exact flushBuf_buf disk first.2
      · exact ih hrest

theorem clean_of_flushFiles {disk' : Disk resolve} {ctx' : LoggerThreadCtx BufWriter}
    (h : flushFiles (disk, ctx) = .ok () (disk', ctx')) : ctx'.Clean := by
  rw [flushFiles_disk] at h
  cases h
  exact ⟨rfl, fun entry hentry => buf_of_mem_flushAll hentry⟩

theorem new_disk (config : LoggerConfig) (logPath : PathBuf) (disk : Disk resolve) :
    (new config logPath disk : EStateM.Result LoggerError (Disk resolve) (LoggerThreadCtx BufWriter)) =
      .ok (ofGlobalFile config (disk.create logPath).2) (disk.create logPath).1 := by
  unfold new createParent
  cases logPath.parent <;> rfl

/-! ### Registering and unregistering -/

theorem dropContext_ctx {W ω : Type} [FileIo W ω] (tag : Str) (w : W) (ctx : LoggerThreadCtx ω) :
    (dropContext tag w ctx).2 =
      { ctx with contextMap := ctx.contextMap.filter fun entry => entry.1 ≠ tag } := rfl

theorem addContext_disk (tag : Str) (disk : Disk resolve) (ctx : LoggerThreadCtx BufWriter) :
    addContext tag (disk, ctx) =
      .ok () ((dropContext tag (disk.create (contextPath ctx.config tag)).1 ctx).1,
        { ctx with
          contextMap := (tag, (disk.create (contextPath ctx.config tag)).2) ::
            ctx.contextMap.filter fun entry => entry.1 ≠ tag }) := rfl

theorem addContext_ne_error (tag : Str) (e : LoggerError)
    (r : Disk resolve × LoggerThreadCtx BufWriter) : addContext tag (disk, ctx) ≠ .error e r := by
  rw [addContext_disk]
  exact nofun

theorem Clean.removeContext (h : ctx.Clean) (tag : Str) (disk : Disk resolve) :
    (removeContext tag disk ctx).2.Clean :=
  ⟨h.1, fun entry hentry => h.2 entry (List.mem_of_mem_filter hentry)⟩

theorem Clean.addContext (h : ctx.Clean) {tag : Str} {disk' : Disk resolve}
    {ctx' : LoggerThreadCtx BufWriter}
    (hadd : LoggerThreadCtx.addContext tag (disk, ctx) = .ok () (disk', ctx')) : ctx'.Clean := by
  rw [addContext_disk] at hadd
  cases hadd
  refine ⟨h.1, fun entry hentry => ?_⟩
  rcases List.mem_cons.1 hentry with rfl | hmem
  · rfl
  · exact h.2 entry (List.mem_of_mem_filter hmem)

end LoggerThreadCtx

end Paperlog
