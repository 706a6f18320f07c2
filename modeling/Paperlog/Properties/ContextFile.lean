import Paperlog.Model.Scenario
import Paperlog.Properties.ContextTrack

/-!
# What a context file holds

A context file should hold the records of its tag from the last registration on.  Registering a tag
that is registered already creates the file anew and only then drops the old writer, and a dropped
`BufWriter` still writes its pending bytes, through its own handle and at its own offset.  So the new
file may start out with bytes of the old registration, and keeps those that the new records do not
reach.

`Follows` is the invariant between the track of a tag and the state.  Each operation keeps it
(`Follows.logged`, `Follows.register`, `Follows.registerOther`, `Follows.unregister`,
`Follows.unregisterOther`, `Follows.flush`), and after a final flush it gives the exact condition for
the file to be what it should (`contextFile_filtered_iff`).
-/

namespace Paperlog

namespace ContextFile

open LoggerThreadCtx BufWriter Transition

variable {resolve : PathBuf → Place}

/-- What the file of `tag` holds of its lines: those its writer has put there, or all of them once
the writer is gone. -/
def onFile (tag : Str) (tr : ContextTrack) (ctx : LoggerThreadCtx BufWriter) : Bytes :=
  match writersOf tag ctx.contextMap with
  | [] => tr.lines
  | file :: _ => file.inner.written

/-- The state agrees with the track of `tag`.  Which file is whose is a matter of the places its path
and the global one lead to.  `exact` says what is in the
file as long as the global writer has not written into it; `long` says that after it has, the file
is longer than it should be. -/
structure Follows (config : LoggerConfig) (logPath : PathBuf) (tag : Str) (disk : Disk resolve)
    (ctx : LoggerThreadCtx BufWriter) (tr : ContextTrack) : Prop where
  sameConfig : ctx.config = config
  global : ctx.globalFile.inner.place = resolve logPath
  globalClean : ctx.globalFile.buf = [] ↔ tr.globalDirty = false
  others : ∀ entry ∈ ctx.contextMap, entry.1 ≠ tag →
    entry.2.inner.place ≠ resolve (contextPath config tag)
  inactive : tr.active = false → writersOf tag ctx.contextMap = [] ∧ tr.dirty = false
  active : tr.active = true → ∃ file, writersOf tag ctx.contextMap = [file] ∧
    file.inner.place = resolve (contextPath config tag) ∧ file.contents = tr.lines ∧
    (file.buf = [] ↔ tr.dirty = false)
  known : tr.active = true → tr.known = true
  quiet : tr.known = true → tr.touched = false → tr.globalDirty = false ∧ tr.lines = []
  exact : tr.known = true →
    resolve (contextPath config tag) ≠ resolve logPath ∨ tr.touched = false →
    ∃ stale : Bytes, stale.length = tr.stale ∧ disk.files (resolve (contextPath config tag)) =
      some (onFile tag tr ctx ++ stale.drop (onFile tag tr ctx).length)
  long : tr.known = true → resolve (contextPath config tag) = resolve logPath → tr.touched = true →
    ∃ k, k ≤ ctx.globalFile.inner.written.length ∧
      k + tr.lines.length < ctx.globalFile.contents.length ∧
      (k < ctx.globalFile.inner.written.length →
        FileReaches disk (resolve (contextPath config tag)) ctx.globalFile.inner.written.length)

namespace Follows

variable {config : LoggerConfig} {logPath : PathBuf} {tag : Str} {disk disk' : Disk resolve}
  {ctx : LoggerThreadCtx BufWriter} {tr : ContextTrack}

/-- The writer a lookup finds is the one the track knows. -/
theorem active_of_lookup (h : Follows config logPath tag disk ctx tr) {file : BufWriter}
    (hfile : ctx.contextMap.lookup tag = some file) :
    tr.active = true ∧ writersOf tag ctx.contextMap = [file] ∧
      file.inner.place = resolve (contextPath config tag) ∧ file.contents = tr.lines ∧
      (file.buf = [] ↔ tr.dirty = false) := by
  rw [lookup_eq_head?] at hfile
  cases hactive : tr.active with
  | false =>
      rw [(h.inactive hactive).1] at hfile
      cases hfile
  | true =>
      obtain ⟨file', hwriters, hrest⟩ := h.active hactive
      rw [hwriters] at hfile
      cases hfile
      exact ⟨rfl, hwriters, hrest⟩

theorem inactive_of_lookup (h : Follows config logPath tag disk ctx tr)
    (hfile : ctx.contextMap.lookup tag = none) : tr.active = false := by
  rw [lookup_eq_head?] at hfile
  cases hactive : tr.active with
  | false => rfl
  | true =>
      obtain ⟨file, hwriters, -⟩ := h.active hactive
      rw [hwriters] at hfile
      cases hfile

/-- The writer of another tag writes elsewhere. -/
theorem place_of_lookup_other (h : Follows config logPath tag disk ctx tr) {t : Str}
    {file : BufWriter} (hfile : ctx.contextMap.lookup t = some file) (ht : t ≠ tag) :
    resolve (contextPath config tag) ≠ file.inner.place :=
  fun heq => h.others (t, file) (mem_of_lookup hfile) ht heq.symm

/-! ### A record -/

/-- After a record the global writer is ahead of the lines of the tag by more than that record's
own line; what it has put into the file since the registration makes the file long. -/
theorem long_of_record (h : Follows config logPath tag disk ctx tr) {log : LogData}
    {disk₁ : Disk resolve} {globalFile : BufWriter}
    (hglobal : Appended disk ctx.globalFile log.ioLine disk₁ globalFile)
    (hknown : tr.known = true) (hpath : resolve (contextPath config tag) = resolve logPath) :
    ∃ k, k ≤ globalFile.inner.written.length ∧
      k + (tr.lines.length + log.compactLine.length) < globalFile.contents.length ∧
      (k < globalFile.inner.written.length →
        FileReaches disk₁ (resolve (contextPath config tag)) globalFile.inner.written.length) := by
  have hline := log.length_compactLine_lt
  have hgrown := hglobal.written.length_le
  have hcontents : globalFile.contents.length =
      ctx.globalFile.contents.length + log.ioLine.length := by
    rw [hglobal.contents, List.length_append]
  have hreaches : globalFile.inner.written ≠ ctx.globalFile.inner.written →
      FileReaches disk₁ (resolve (contextPath config tag)) globalFile.inner.written.length := by
    intro hne
    rw [hpath, ← h.global]
    exact hglobal.reaches hne
  cases htouched : tr.touched with
  | true =>
      obtain ⟨k, hk, hlong, hfile⟩ := h.long hknown hpath htouched
      refine ⟨k, hk.trans hgrown, by omega, fun hlt => ?_⟩
      by_cases hsame : globalFile.inner.written = ctx.globalFile.inner.written
      · rw [hsame] at hlt ⊢
        exact hglobal.fileReaches (hfile hlt)
      · exact hreaches hsame
  | false =>
      obtain ⟨hclean, hlines⟩ := h.quiet hknown htouched
      have hbuf := h.globalClean.2 hclean
      have hwritten : ctx.globalFile.contents.length = ctx.globalFile.inner.written.length := by
        simp [contents, hbuf]
      refine ⟨ctx.globalFile.inner.written.length, hgrown, ?_, fun hlt => hreaches fun hsame => ?_⟩
      · rw [hlines, List.length_nil]
        omega
      · rw [hsame] at hlt
        omega

/-- A record of another tag, or without one. -/
theorem recordOther (h : Follows config logPath tag disk ctx tr) {log : LogData}
    {disk₁ : Disk resolve} {globalFile : BufWriter} {contextMap : List (Str × BufWriter)}
    (hglobal : Appended disk ctx.globalFile log.ioLine disk₁ globalFile)
    (hbuf : globalFile.buf ≠ [])
    (hwriters : writersOf tag contextMap = writersOf tag ctx.contextMap)
    (hothers : ∀ entry ∈ contextMap, entry.1 ≠ tag →
      entry.2.inner.place ≠ resolve (contextPath config tag))
    (hfile : disk'.files (resolve (contextPath config tag)) =
      disk₁.files (resolve (contextPath config tag))) :
    Follows config logPath tag disk' { ctx with globalFile, contextMap }
      { tr with globalDirty := true, touched := true } where
  sameConfig := h.sameConfig
  global := hglobal.place.trans h.global
  globalClean := iff_of_false hbuf nofun
  others := hothers
  inactive hactive := by
    rw [hwriters]
    exact h.inactive hactive
  active hactive := by
    rw [hwriters]
    exact h.active hactive
  known := h.known
  quiet _ := nofun
  exact hknown hcond := by
    have hpath : resolve (contextPath config tag) ≠ resolve logPath := hcond.resolve_right nofun
    have hframe := hglobal.frame (resolve (contextPath config tag)) (h.global ▸ hpath)
    obtain ⟨stale, hlength, hexact⟩ := h.exact hknown (.inl hpath)
    refine ⟨stale, hlength, ?_⟩
    rw [hfile, hframe, hexact]
    simp only [onFile, hwriters]
  long hknown hpath _ := by
    obtain ⟨k, hk, hlong, hreach⟩ := h.long_of_record hglobal hknown hpath
    have hshort : k + tr.lines.length < globalFile.contents.length := by omega
    refine ⟨k, hk, hshort, fun hlt => ?_⟩
    obtain ⟨content, hcontent, hn⟩ := hreach hlt
    exact ⟨content, hfile.trans hcontent, hn⟩

/-- A record of the tag, which is registered. -/
theorem recordSelf (h : Follows config logPath tag disk ctx tr) {log : LogData}
    {disk₁ : Disk resolve} {globalFile file file' : BufWriter} (hfile : ctx.contextMap.lookup tag = some file)
    (hglobal : Appended disk ctx.globalFile log.ioLine disk₁ globalFile)
    (hbuf : globalFile.buf ≠ [])
    (hcontext : Appended disk₁ file log.compactLine disk' file') (hbuf' : file'.buf ≠ []) :
    Follows config logPath tag disk'
      { ctx with globalFile, contextMap := setContextFile ctx.contextMap tag file' }
      { tr with
        lines := tr.lines ++ log.compactLine, dirty := true, globalDirty := true,
        touched := true } := by
  obtain ⟨hactive, hwriters, hplaceFile, hcontents, -⟩ := h.active_of_lookup hfile
  have hwriters' : writersOf tag (setContextFile ctx.contextMap tag file') = [file'] := by
    rw [writersOf_setContextFile_self, hwriters]
    rfl
  refine ⟨h.sameConfig, hglobal.place.trans h.global, iff_of_false hbuf nofun, ?_, ?_, ?_, h.known,
    fun _ => nofun, ?_, ?_⟩
  · intro entry hentry htag
    obtain ⟨entry', hmem, heq⟩ := List.mem_map.1 hentry
    by_cases ht : entry'.1 = tag
    · rw [if_pos ht] at heq
      exact absurd (heq ▸ ht) htag
    · rw [if_neg ht] at heq
      exact heq ▸ h.others entry' hmem ht
  · intro hinactive
    exact absurd (hactive.symm.trans hinactive) nofun
  · intro _
    refine ⟨file', hwriters', hcontext.place.trans hplaceFile, ?_, iff_of_false hbuf' nofun⟩
    rw [hcontext.contents, hcontents]
  · intro hknown hcond
    have hpath : resolve (contextPath config tag) ≠ resolve logPath := hcond.resolve_right nofun
    have hframe := hglobal.frame (resolve (contextPath config tag)) (h.global ▸ hpath)
    obtain ⟨stale, hlength, hexact⟩ := h.exact hknown (.inl hpath)
    have hbacked : Backed disk₁ file stale := by
      rw [Backed, hplaceFile, hframe, hexact]
      simp only [onFile, hwriters]
    have hbacked' := hcontext.backed stale hbacked
    rw [Backed, hcontext.place, hplaceFile] at hbacked'
    refine ⟨stale, hlength, ?_⟩
    rw [hbacked']
    simp only [onFile, hwriters']
  · intro hknown hpath _
    obtain ⟨k, hk, hlong, hreach⟩ := h.long_of_record hglobal hknown hpath
    refine ⟨k, hk, ?_, fun hlt => hcontext.fileReaches (hreach hlt)⟩
    rw [List.length_append]
    exact hlong

theorem logged (h : Follows config logPath tag disk ctx tr) {log : LogData}
    {ctx' : LoggerThreadCtx BufWriter} (hlog : Logged log disk ctx disk' ctx') :
    Follows config logPath tag disk' ctx' (tr.record tag log) := by
  cases hlog with
  | untagged hfile hglobal hbuf =>
      have hother : ¬ (tr.active = true ∧ log.tag = some tag) := by
        rintro ⟨hactive, htag⟩
        simp only [tagFile, htag, Option.bind_some] at hfile
        rw [h.inactive_of_lookup hfile] at hactive
        cases hactive
      rw [ContextTrack.record, if_neg hother]
      exact h.recordOther hglobal hbuf rfl h.others rfl
  | tagged htag hfile hglobal hbuf hcontext hbuf' =>
      rename_i t file disk₁ globalFile file'
      by_cases ht : t = tag
      · subst ht
        have hactive := (h.active_of_lookup hfile).1
        rw [ContextTrack.record, if_pos ⟨hactive, htag⟩]
        exact h.recordSelf hfile hglobal hbuf hcontext hbuf'
      · have hother : ¬ (tr.active = true ∧ log.tag = some tag) := by
          rintro ⟨-, htag'⟩
          exact ht (Option.some.inj (htag.symm.trans htag'))
        rw [ContextTrack.record, if_neg hother]
        refine h.recordOther hglobal hbuf (writersOf_setContextFile_of_ne ht _ _) ?_
          (hcontext.frame _ (h.place_of_lookup_other hfile ht))
        intro entry hentry htag'
        obtain ⟨entry', hmem, heq⟩ := List.mem_map.1 hentry
        by_cases ht' : entry'.1 = t
        · rw [if_pos ht'] at heq
          subst heq
          show file'.inner.place ≠ _
          rw [hcontext.place]
          exact fun heq => h.place_of_lookup_other hfile ht heq.symm
        · rw [if_neg ht'] at heq
          exact heq ▸ h.others entry' hmem (heq ▸ htag')

theorem batchLogged {logs : List LogData} {ctx' : LoggerThreadCtx BufWriter}
    (hlogs : BatchLogged logs disk ctx disk' ctx')
    (h : Follows config logPath tag disk ctx tr) :
    Follows config logPath tag disk' ctx' (logs.foldl (ContextTrack.record tag) tr) := by
  induction hlogs generalizing tr with
  | nil => exact h
  | cons hlog _ ih => exact ih (h.logged hlog)

/-! ### Registering and unregistering -/

theorem dropContext_none (hfile : ctx.contextMap.lookup tag = none) (disk : Disk resolve) :
    (dropContext tag disk ctx).1 = disk := by
  simp only [dropContext, hfile]

theorem dropContext_some {file : BufWriter} (hfile : ctx.contextMap.lookup tag = some file)
    (disk : Disk resolve) : (dropContext tag disk ctx).1 = (file.flushBuf disk).1 := by
  simp only [dropContext, hfile]
  rfl

/-- A writer that is dropped after its file has been created anew: its pending bytes land at its old
offset, so the file becomes as long as the old one was going to be. -/
theorem drop_into_new {file : BufWriter} (hnew : disk.files file.inner.place = some []) :
    ∃ stale : Bytes, stale.length = (if file.buf = [] then 0 else file.contents.length) ∧
      (file.flushBuf disk).1.files file.inner.place = some stale := by
  by_cases hbuf : file.buf = []
  · refine ⟨[], by simp [hbuf], ?_⟩
    rw [flushBuf_of_buf_nil disk hbuf, hnew]
  · refine ⟨writeAt [] file.inner.written.length file.buf, ?_, ?_⟩
    · simp [writeAt, hbuf, contents]
    · simp [flushBuf, File.writeAll, hbuf, hnew]

theorem register (h : Follows config logPath tag disk ctx tr) :
    Follows config logPath tag
      (dropContext tag (disk.create (contextPath ctx.config tag)).1 ctx).1
      { ctx with
        contextMap := (tag, (disk.create (contextPath ctx.config tag)).2) ::
          ctx.contextMap.filter fun entry => entry.1 ≠ tag }
      (tr.next tag (.addContext tag)) := by
  have hpath : contextPath ctx.config tag = contextPath config tag := by rw [h.sameConfig]
  rw [hpath, ContextTrack.next, if_pos rfl]
  have hcreated :
      (disk.create (contextPath config tag)).1.files (resolve (contextPath config tag)) =
        some [] := by
    simp [Disk.create]
  have hwriters : writersOf tag ((tag, (disk.create (contextPath config tag)).2) ::
      ctx.contextMap.filter fun entry => entry.1 ≠ tag) =
        [(disk.create (contextPath config tag)).2] := by
    rw [writersOf_cons, if_pos rfl, writersOf_filter_self]
  refine ⟨h.sameConfig, h.global, h.globalClean, ?_, ?_, ?_, fun _ => rfl, ?_, ?_, ?_⟩
  · intro entry hentry htag
    rcases List.mem_cons.1 hentry with rfl | hmem
    · exact absurd rfl htag
    · exact h.others entry (List.mem_of_mem_filter hmem) htag
  · exact fun hinactive => absurd hinactive.symm Bool.false_ne_true
  · exact fun _ => ⟨_, hwriters, rfl, rfl, iff_of_true rfl rfl⟩
  · exact fun _ hclean => ⟨hclean, rfl⟩
  · intro _ _
    have honFile : ∀ stale : Bytes, ([] : Bytes) ++ stale.drop ([] : Bytes).length = stale :=
      fun stale => by simp
    simp only [onFile, hwriters]
    cases hfile : ctx.contextMap.lookup tag with
    | none =>
        have hdirty := (h.inactive (h.inactive_of_lookup hfile)).2
        refine ⟨[], by simp [hdirty], ?_⟩
        rw [dropContext_none hfile, hcreated]
        rfl
    | some file =>
        obtain ⟨-, -, hpath, hcontents, hclean⟩ := h.active_of_lookup hfile
        rw [← hpath] at hcreated
        obtain ⟨stale, hlength, hstale⟩ := drop_into_new hcreated
        refine ⟨stale, ?_, ?_⟩
        · rw [hlength, hcontents]
          cases hdirty : tr.dirty with
          | true =>
              have hbuf : file.buf ≠ [] := fun hbuf => by
                rw [hclean.1 hbuf] at hdirty
                cases hdirty
              simp [hbuf]
          | false => simp [hclean.2 hdirty]
        · rw [dropContext_some hfile, ← hpath, hstale]
          exact congrArg some (honFile stale).symm
  · intro _ _ hdirty
    refine ⟨ctx.globalFile.inner.written.length, le_rfl, ?_, fun hlt => absurd hlt (lt_irrefl _)⟩
    have hbuf : ctx.globalFile.buf ≠ [] := by
      intro hbuf
      have hclean := h.globalClean.1 hbuf
      exact Bool.false_ne_true (hclean.symm.trans hdirty)
    have hpos := List.length_pos_of_ne_nil hbuf
    show ctx.globalFile.inner.written.length + 0 < ctx.globalFile.contents.length
    rw [contents, List.length_append]
    omega

/-- What changes only the writers and the files of other tags. -/
theorem other (h : Follows config logPath tag disk ctx tr) {contextMap : List (Str × BufWriter)}
    (hwriters : writersOf tag contextMap = writersOf tag ctx.contextMap)
    (hothers : ∀ entry ∈ contextMap, entry.1 ≠ tag →
      entry.2.inner.place ≠ resolve (contextPath config tag))
    (hfile : disk'.files (resolve (contextPath config tag)) =
      disk.files (resolve (contextPath config tag))) :
    Follows config logPath tag disk' { ctx with contextMap } tr where
  sameConfig := h.sameConfig
  global := h.global
  globalClean := h.globalClean
  others := hothers
  inactive hactive := by
    rw [hwriters]
    exact h.inactive hactive
  active hactive := by
    rw [hwriters]
    exact h.active hactive
  known := h.known
  quiet := h.quiet
  exact hknown hcond := by
    rw [hfile]
    simp only [onFile, hwriters]
    exact h.exact hknown hcond
  long hknown hpath htouched := by
    obtain ⟨k, hk, hlong, hreach⟩ := h.long hknown hpath htouched
    refine ⟨k, hk, hlong, fun hlt => ?_⟩
    obtain ⟨content, hcontent, hn⟩ := hreach hlt
    exact ⟨content, hfile.trans hcontent, hn⟩

/-- Dropping the writer of another tag. -/
theorem dropContext_other (h : Follows config logPath tag disk ctx tr) {t : Str} (ht : t ≠ tag)
    (disk₁ : Disk resolve) :
    (dropContext t disk₁ ctx).1.files (resolve (contextPath config tag)) =
      disk₁.files (resolve (contextPath config tag)) := by
  cases hfile : ctx.contextMap.lookup t with
  | none => rw [dropContext_none hfile]
  | some file =>
      rw [dropContext_some hfile]
      exact (flushBuf_appended disk₁ file).frame _ (h.place_of_lookup_other hfile ht)

theorem registerOther (h : Follows config logPath tag disk ctx tr) {t : Str} (ht : t ≠ tag)
    (hdistinct : resolve (contextPath config t) ≠ resolve (contextPath config tag)) :
    Follows config logPath tag
      (dropContext t (disk.create (contextPath ctx.config t)).1 ctx).1
      { ctx with
        contextMap := (t, (disk.create (contextPath ctx.config t)).2) ::
          ctx.contextMap.filter fun entry => entry.1 ≠ t }
      (tr.next tag (.addContext t)) := by
  have hpath : contextPath ctx.config t = contextPath config t := by rw [h.sameConfig]
  rw [hpath, ContextTrack.next, if_neg ht]
  refine h.other ?_ ?_ ?_
  · rw [writersOf_cons, if_neg ht, writersOf_filter_of_ne ht]
  · intro entry hentry htag
    rcases List.mem_cons.1 hentry with rfl | hmem
    · exact hdistinct
    · exact h.others entry (List.mem_of_mem_filter hmem) htag
  · rw [h.dropContext_other ht]
    simp [Disk.create, hdistinct.symm]

theorem unregisterOther (h : Follows config logPath tag disk ctx tr) {t : Str} (ht : t ≠ tag) :
    Follows config logPath tag (removeContext t disk ctx).1 (removeContext t disk ctx).2
      (tr.next tag (.removeContext t)) := by
  rw [ContextTrack.next, if_neg ht, removeContext, dropContext_ctx]
  exact h.other (writersOf_filter_of_ne ht _)
    (fun entry hentry => h.others entry (List.mem_of_mem_filter hentry)) (h.dropContext_other ht disk)

/-- The writer of the tag is dropped: what was pending is written, and the file is complete. -/
theorem unregister (h : Follows config logPath tag disk ctx tr) :
    Follows config logPath tag (removeContext tag disk ctx).1 (removeContext tag disk ctx).2
      (tr.next tag (.removeContext tag)) := by
  rw [ContextTrack.next, if_pos rfl, removeContext, dropContext_ctx]
  have hothers : ∀ entry ∈ ctx.contextMap.filter fun entry => entry.1 ≠ tag,
      entry.1 ≠ tag → entry.2.inner.place ≠ resolve (contextPath config tag) := fun entry hentry =>
    h.others entry (List.mem_of_mem_filter hentry)
  have hwriters := writersOf_filter_self tag ctx.contextMap
  cases hfile : ctx.contextMap.lookup tag with
  | none =>
      have hinactive := h.inactive_of_lookup hfile
      obtain ⟨hnone, hdirty⟩ := h.inactive hinactive
      have htr : { tr with active := false, dirty := false } = tr := by
        obtain ⟨known, active, lines, dirty, stale, globalDirty, touched⟩ := tr
        dsimp only at hinactive hdirty
        rw [hinactive, hdirty]
      rw [htr, dropContext_none hfile]
      exact h.other (hwriters.trans hnone.symm) hothers rfl
  | some file =>
      obtain ⟨hactive, hwriter, hpath, hcontents, -⟩ := h.active_of_lookup hfile
      have happended := flushBuf_appended disk file
      rw [dropContext_some hfile]
      refine ⟨h.sameConfig, h.global, h.globalClean, hothers, fun _ => ⟨hwriters, rfl⟩,
        fun hactive' => absurd hactive' Bool.false_ne_true,
        fun hactive' => absurd hactive' Bool.false_ne_true, h.quiet, ?_, ?_⟩
      · intro hknown hcond
        obtain ⟨stale, hlength, hexact⟩ := h.exact hknown hcond
        have hbacked : Backed disk file stale := by
          rw [Backed, hpath, hexact]
          simp only [onFile, hwriter]
        have hbacked' := happended.backed stale hbacked
        rw [Backed, happended.place, hpath, flushBuf_written, hcontents] at hbacked'
        refine ⟨stale, hlength, ?_⟩
        rw [hbacked']
        simp only [onFile, hwriters]
      · intro hknown hcollide htouched
        obtain ⟨k, hk, hlong, hreach⟩ := h.long hknown hcollide htouched
        exact ⟨k, hk, hlong, fun hlt => happended.fileReaches (hreach hlt)⟩

/-! ### A flush -/

theorem flush (h : Follows config logPath tag disk ctx tr) :
    Follows config logPath tag (flushAll (ctx.globalFile.flushBuf disk).1 ctx.contextMap).1
      { ctx with
        globalFile := (ctx.globalFile.flushBuf disk).2
        contextMap := (flushAll (ctx.globalFile.flushBuf disk).1 ctx.contextMap).2 }
      (tr.next tag .flush) := by
  have hglobal := flushBuf_appended disk ctx.globalFile
  have hothers : ∀ entry ∈ (flushAll (ctx.globalFile.flushBuf disk).1 ctx.contextMap).2,
      entry.1 ≠ tag → entry.2.inner.place ≠ resolve (contextPath config tag) := by
    intro entry hentry htag
    obtain ⟨entry', hmem, htag', hpath⟩ := place_of_mem_flushAll hentry
    rw [← hpath]
    exact h.others entry' hmem (htag' ▸ htag)
  refine ⟨h.sameConfig, hglobal.place.trans h.global, iff_of_true rfl rfl, hothers, ?_, ?_, h.known,
    fun hknown htouched => ⟨rfl, (h.quiet hknown htouched).2⟩, ?_, ?_⟩
  · intro hinactive
    exact ⟨writersOf_flushAll_nil (h.inactive hinactive).1 _, rfl⟩
  · intro hactive
    obtain ⟨file, hwriters, hpath, hcontents, -⟩ := h.active hactive
    obtain ⟨disk₁, -, -, hwriters'⟩ :=
      flushAll_writer hwriters h.others (ctx.globalFile.flushBuf disk).1
    have happended := flushBuf_appended disk₁ file
    refine ⟨_, hwriters', happended.place.trans hpath, ?_, iff_of_true rfl rfl⟩
    rw [happended.contents, List.append_nil, hcontents]
    rfl
  · intro hknown hcond
    -- The global writer leaves the file of the tag alone, or has nothing pending.
    have hfile : (ctx.globalFile.flushBuf disk).1.files (resolve (contextPath config tag)) =
        disk.files (resolve (contextPath config tag)) := by
      rcases hcond with hpath | htouched
      · exact hglobal.frame _ (h.global ▸ hpath)
      · have hbuf := h.globalClean.2 (h.quiet hknown htouched).1
        rw [flushBuf_of_buf_nil disk hbuf]
    obtain ⟨stale, hlength, hexact⟩ := h.exact hknown hcond
    refine ⟨stale, hlength, ?_⟩
    cases hactive : tr.active with
    | false =>
        obtain ⟨hnone, -⟩ := h.inactive hactive
        have hnobody : ∀ entry ∈ ctx.contextMap,
            entry.2.inner.place ≠ resolve (contextPath config tag) := by
          intro entry hentry
          apply h.others entry hentry
          intro htag
          have hmem : entry.2 ∈ writersOf tag ctx.contextMap := by
            simp only [writersOf, List.mem_map, List.mem_filter, decide_eq_true_eq]
            exact ⟨entry, ⟨hentry, htag⟩, rfl⟩
          rw [hnone] at hmem
          exact List.not_mem_nil hmem
        rw [flushAll_frame hnobody, hfile, hexact]
        simp only [onFile, hnone, writersOf_flushAll_nil hnone]
        rfl
    | true =>
        obtain ⟨file, hwriters, hpath, hcontents, -⟩ := h.active hactive
        obtain ⟨disk₁, hsame, hflushed, hwriters'⟩ :=
          flushAll_writer hwriters h.others (ctx.globalFile.flushBuf disk).1
        have hbacked : Backed disk₁ file stale := by
          rw [Backed, hpath, hsame, hfile, hexact]
          simp only [onFile, hwriters]
        have happended := flushBuf_appended disk₁ file
        have hbacked' := happended.backed stale hbacked
        rw [Backed, happended.place, hpath] at hbacked'
        rw [hflushed, hbacked']
        simp only [onFile, hwriters']
  · intro hknown hcollide htouched
    obtain ⟨k, hk, hlong, hreach⟩ := h.long hknown hcollide htouched
    refine ⟨k, hk.trans hglobal.written.length_le, ?_, fun hlt => fileReaches_flushAll _ ?_⟩
    · rw [hglobal.contents, List.append_nil]
      exact hlong
    · by_cases hsame : (ctx.globalFile.flushBuf disk).2.inner.written = ctx.globalFile.inner.written
      · rw [hsame] at hlt ⊢
        exact hglobal.fileReaches (hreach hlt)
      · rw [hcollide, ← h.global]
        exact hglobal.reaches hsame

/-! ### Every operation -/

/-- What each operation does, it does to the track as well. -/
theorem perform (h : Follows config logPath tag disk ctx tr) {op : FileOp}
    {ctx' : LoggerThreadCtx BufWriter}
    (hdistinct : ∀ t, op = .addContext t → t ≠ tag →
      resolve (contextPath config t) ≠ resolve (contextPath config tag))
    (hop : ContextFile.perform (disk, ctx) op = some (disk', ctx')) :
    Follows config logPath tag disk' ctx' (tr.next tag op) := by
  cases op with
  | addContext t =>
      simp only [ContextFile.perform, addContext_disk, Option.some.injEq, Prod.mk.injEq] at hop
      obtain ⟨rfl, rfl⟩ := hop
      by_cases ht : t = tag
      · subst ht
        exact h.register
      · exact h.registerOther ht (hdistinct t rfl ht)
  | removeContext t =>
      obtain ⟨rfl, rfl⟩ := Prod.mk.inj (Option.some.inj hop)
      by_cases ht : t = tag
      · subst ht
        exact h.unregister
      · exact h.unregisterOther ht
  | doLogBatch logs =>
      obtain ⟨disk₁, ctx₁, hbatch, hlogs⟩ := doLogBatch_disk logs disk ctx
      simp only [ContextFile.perform, hbatch, Option.some.injEq, Prod.mk.injEq] at hop
      obtain ⟨rfl, rfl⟩ := hop
      exact h.batchLogged hlogs
  | flush =>
      simp only [ContextFile.perform, flushFiles_disk, Option.some.injEq, Prod.mk.injEq] at hop
      obtain ⟨rfl, rfl⟩ := hop
      exact h.flush

theorem of_new {ctx₀ : LoggerThreadCtx BufWriter} {disk₀ : Disk resolve}
    (h : LoggerThreadCtx.new config logPath disk = .ok ctx₀ disk₀) :
    Follows config logPath tag disk₀ ctx₀ .start := by
  rw [new_disk] at h
  cases h
  refine ⟨rfl, rfl, iff_of_true rfl rfl, fun entry hentry => absurd hentry List.not_mem_nil, ?_,
    nofun, nofun, nofun, nofun, nofun⟩
  exact fun _ => ⟨rfl, rfl⟩

theorem of_run {ops : List FileOp} {ctx' : LoggerThreadCtx BufWriter}
    (h : Follows config logPath tag disk ctx tr)
    (hdistinct : ∀ t, .addContext t ∈ ops → t ≠ tag →
      resolve (contextPath config t) ≠ resolve (contextPath config tag))
    (hrun : run ContextFile.perform (disk, ctx) ops = some (disk', ctx')) :
    Follows config logPath tag disk' ctx' (ops.foldl (ContextTrack.next tag) tr) := by
  induction ops generalizing disk ctx tr with
  | nil =>
      obtain ⟨rfl, rfl⟩ := Prod.mk.inj (Option.some.inj hrun)
      exact h
  | cons op ops ih =>
      obtain ⟨⟨disk₁, ctx₁⟩, hop, hrest⟩ := run_cons_some hrun
      have hnext := h.perform (fun t ht => hdistinct t (ht ▸ List.mem_cons_self)) hop
      exact ih hnext (fun t ht => hdistinct t (List.mem_cons_of_mem op ht)) hrest

/-- A flushed file is what it should be exactly when neither the writer dropped at the last
registration nor the global writer has left bytes behind its end. -/
theorem file_iff_of_clean (h : Follows config logPath tag disk ctx tr) (hknown : tr.known = true)
    (hdirty : tr.dirty = false) (hglobal : tr.globalDirty = false) :
    disk.files (resolve (contextPath config tag)) = some tr.lines ↔
      (resolve (contextPath config tag) ≠ resolve logPath ∨ tr.touched = false) ∧
        tr.stale ≤ tr.lines.length := by
  have honFile : onFile tag tr ctx = tr.lines := by
    cases hactive : tr.active with
    | false => simp only [onFile, (h.inactive hactive).1]
    | true =>
        obtain ⟨file, hwriters, -, hcontents, hbuf⟩ := h.active hactive
        simp only [onFile, hwriters, ← hcontents, contents, hbuf.2 hdirty, List.append_nil]
  by_cases hcond : resolve (contextPath config tag) ≠ resolve logPath ∨ tr.touched = false
  · obtain ⟨stale, hlength, hexact⟩ := h.exact hknown hcond
    rw [honFile] at hexact
    rw [hexact, Option.some.injEq, List.append_right_eq_self, List.drop_eq_nil_iff, hlength]
    exact (and_iff_right hcond).symm
  · refine iff_of_false ?_ fun hboth => hcond hboth.1
    rw [not_or, not_not, Bool.not_eq_false] at hcond
    obtain ⟨k, -, hlong, hreach⟩ := h.long hknown hcond.1 hcond.2
    have hbuf := h.globalClean.2 hglobal
    rw [contents, hbuf, List.append_nil] at hlong
    obtain ⟨content, hcontent, hn⟩ := hreach (by omega)
    intro hfile
    rw [hcontent, Option.some.injEq] at hfile
    rw [hfile] at hn
    omega

end Follows

/-! ## The file of a tag -/

/-- Whatever the operations were, and wherever paths lead: after a flush the file of a registered tag
consists of its records exactly when the global file has not been written into it and the bytes the
last registration found pending reach no further than the new ones. -/
theorem contextFile_filtered_iff {config : LoggerConfig} {logPath : PathBuf} {tag : Str}
    {ops : List FileOp} {disk disk₀ disk' : Disk resolve} {ctx₀ ctx' : LoggerThreadCtx BufWriter}
    (hnew : LoggerThreadCtx.new config logPath disk = .ok ctx₀ disk₀)
    (hregistered : .addContext tag ∈ ops)
    (hdistinct : ∀ t t', .addContext t ∈ ops → .addContext t' ∈ ops →
      resolve (contextPath config t) = resolve (contextPath config t') → t = t')
    (hrun : run perform (disk₀, ctx₀) (ops ++ [.flush]) = some (disk', ctx')) :
    disk'.read (contextPath config tag) = some (contextLines tag ops) ↔
      (resolve (contextPath config tag) ≠ resolve logPath ∨ (tracked tag ops).touched = false) ∧
        (tracked tag ops).stale ≤ (contextLines tag ops).length := by
  obtain ⟨⟨disk₁, ctx₁⟩, hops, hlast⟩ := run_append_some hrun
  obtain ⟨⟨disk₂, ctx₂⟩, hflush, hend⟩ := run_cons_some hlast
  obtain ⟨rfl, rfl⟩ := Prod.mk.inj (Option.some.inj hend)
  have hothers : ∀ t, .addContext t ∈ ops → t ≠ tag →
      resolve (contextPath config t) ≠ resolve (contextPath config tag) :=
    fun t hmem ht hpath => ht (hdistinct t tag hmem hregistered hpath)
  have hstart : Follows config logPath tag disk₀ ctx₀ .start := Follows.of_new hnew
  have hfollows := hstart.of_run hothers hops
  have hflushed := hfollows.perform (fun t (ht : FileOp.flush = .addContext t) => nomatch ht) hflush
  rw [← (tracked_spec hregistered).2]
  exact hflushed.file_iff_of_clean (known_of_mem hregistered) rfl rfl

/-- A registration and a batch, flushed. -/
theorem contextFile_filtered_iff_registered :
    (run perform Scenario.created [.addContext "T".toList, .doLogBatch [Scenario.tagged "a"],
      .flush]).map (·.1.read "./logs/T.log".toList) =
        some (some (Scenario.tagged "a").compactLine) := by
  let ops : List FileOp := [.addContext "T".toList, .doLogBatch [Scenario.tagged "a"]]
  obtain ⟨⟨disk', ctx'⟩, hrun⟩ : ∃ s, run perform Scenario.created (ops ++ [.flush]) = some s :=
    Option.isSome_iff_exists.1 (by decide +kernel)
  have hregistered : ∀ t, .addContext t ∈ ops → t = "T".toList := by
    intro t ht
    simpa [ops] using ht
  have hiff := contextFile_filtered_iff (new_disk .default Scenario.logPath Scenario.disk)
    (List.mem_cons_self : .addContext "T".toList ∈ ops)
    (fun t t' ht ht' _ => (hregistered t ht).trans (hregistered t' ht').symm) hrun
  have hpath : contextPath .default "T".toList = "./logs/T.log".toList := by decide +kernel
  have hlines : contextLines "T".toList ops = (Scenario.tagged "a").compactLine := by
    decide +kernel
  have hcond : Scenario.resolve "./logs/T.log".toList ≠ Scenario.resolve Scenario.logPath := by
    decide +kernel
  have hstale : (tracked "T".toList ops).stale = 0 := by decide +kernel
  rw [hpath, hlines, hstale] at hiff
  have hfile := hiff.2 ⟨.inl hcond, Nat.zero_le _⟩
  exact Option.map_eq_some_iff.2 ⟨(disk', ctx'), hrun, hfile⟩

/-- A record pending at a second registration is in the new file. -/
theorem reregistered_not_filtered :
    ¬ ∀ (tag : Str) (ops : List FileOp) (disk' : Disk Scenario.resolve)
      (ctx' : LoggerThreadCtx BufWriter),
      run perform Scenario.created (ops ++ [.flush]) = some (disk', ctx') →
      (∀ t t', .addContext t ∈ ops → .addContext t' ∈ ops →
        Scenario.resolve (contextPath .default t) = Scenario.resolve (contextPath .default t') →
          t = t') →
      .addContext tag ∈ ops →
      disk'.read (contextPath .default tag) = some (contextLines tag ops) := by
  intro h
  let ops : List FileOp :=
    [.addContext "T".toList, .doLogBatch [Scenario.tagged "a"], .addContext "T".toList]
  obtain ⟨⟨disk', ctx'⟩, hrun, hfile⟩ : ∃ s, run perform Scenario.created (ops ++ [.flush]) = some s ∧
      s.1.read "./logs/T.log".toList = some (Scenario.tagged "a").compactLine := by
    rw [← Option.map_eq_some_iff]
    decide +kernel
  have hregistered : ∀ t, .addContext t ∈ ops → t = "T".toList := by
    intro t ht
    simpa [ops] using ht
  have hfiltered := h "T".toList ops disk' ctx' hrun
    (fun t t' ht ht' _ => (hregistered t ht).trans (hregistered t' ht').symm) List.mem_cons_self
  have hpath : contextPath .default "T".toList = "./logs/T.log".toList := by decide +kernel
  have hlines : contextLines "T".toList ops = [] := by decide +kernel
  rw [hpath, hfile, hlines] at hfiltered
  exact absurd (Option.some.inj hfiltered) (by decide +kernel)

end ContextFile

end Paperlog
