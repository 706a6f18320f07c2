import Mathlib.Data.List.Induction
import Mathlib.Data.List.TakeWhile
import Paperlog.Framework.Transition
import Paperlog.Model.Frames

/-!
# Following one context through the file operations

The operations on the files, in any order, as `FileOp`s; what the file of a tag should hold after
them (`contextRecords`); and `ContextTrack`, which follows one tag through the operations: the lines
it is owed (`lines`), whether some of them are still pending (`dirty`), and how far the bytes left by
an earlier registration extend (`stale`).  Where the file of the tag is the global file itself, the
global writer is a second source of foreign bytes, which `touched` follows.  `tracked_spec` says that
a track is owed what the file should hold.

The last section is about the context map: what the operations do to the writers of one tag
(`writersOf`), and that flushing the map is, for the file of one tag, flushing that tag's writer.
-/

namespace Paperlog

namespace ContextFile

open LoggerThreadCtx BufWriter

variable {resolve : PathBuf → Place}

/-! ## Sequences of operations -/

inductive FileOp
  | addContext (tag : Str)
  | removeContext (tag : Str)
  | doLogBatch (logs : List LogData)
  | flush
  deriving DecidableEq

/-- One operation, under its write guard; `none` when an I/O operation fails. -/
def perform {W ω : Type} [FileIo W ω] (s : W × LoggerThreadCtx ω) :
    FileOp → Option (W × LoggerThreadCtx ω)
  | .addContext tag =>
      match LoggerThreadCtx.addContext tag s with
      | .ok _ s => some s
      | .error _ _ => none
  | .removeContext tag => some (LoggerThreadCtx.removeContext tag s.1 s.2)
  | .doLogBatch logs =>
      match LoggerThreadCtx.doLogBatch logs s with
      | .ok _ s => some s
      | .error _ _ => none
  | .flush =>
      match LoggerThreadCtx.flushFiles s with
      | .ok _ s => some s
      | .error _ _ => none

/-! ## What the file should hold -/

def FileOp.logs : FileOp → List LogData
  | .doLogBatch logs => logs
  | _ => []

/-- The operations after the last registration of `tag`. -/
def sinceRegistered (tag : Str) (ops : List FileOp) : List FileOp :=
  (ops.reverse.takeWhile (· ≠ .addContext tag)).reverse

/-- Of these, the operations before the first removal. -/
def whileRegistered (tag : Str) (ops : List FileOp) : List FileOp :=
  (sinceRegistered tag ops).takeWhile (· ≠ .removeContext tag)

/-- The records with tag `tag` written after its last registration and, if it has been removed
since, before that. -/
def contextRecords (tag : Str) (ops : List FileOp) : List LogData :=
  ((whileRegistered tag ops).flatMap FileOp.logs).filter (·.tag = some tag)

/-- The bytes the file of `tag` should consist of. -/
def contextLines (tag : Str) (ops : List FileOp) : Bytes :=
  (contextRecords tag ops).flatMap LogData.compactLine

/-! ## Following one tag -/

structure ContextTrack where
  /-- The tag has been registered at some time. -/
  known : Bool
  /-- The tag is registered. -/
  active : Bool
  /-- The lines since the last registration. -/
  lines : Bytes
  /-- Some of them may be pending. -/
  dirty : Bool
  /-- How far the file was filled by the writer that the last registration replaced. -/
  stale : ℕ
  /-- The global file has pending lines. -/
  globalDirty : Bool
  /-- The global file had pending lines at the last registration, or got new ones since. -/
  touched : Bool
  deriving DecidableEq

namespace ContextTrack

def start : ContextTrack := ⟨false, false, [], false, 0, false, false⟩

/-- One record of a batch. -/
def record (tag : Str) (tr : ContextTrack) (log : LogData) : ContextTrack :=
  if tr.active ∧ log.tag = some tag then
    { tr with
      lines := tr.lines ++ log.compactLine, dirty := true, globalDirty := true, touched := true }
  else { tr with globalDirty := true, touched := true }

def next (tag : Str) (tr : ContextTrack) : FileOp → ContextTrack
  | .addContext t =>
      if t = tag then
        { tr with
          known := true, active := true, lines := [], dirty := false
          stale := if tr.dirty then tr.lines.length else 0
          touched := tr.globalDirty }
      else tr
  | .removeContext t => if t = tag then { tr with active := false, dirty := false } else tr
  | .doLogBatch logs => logs.foldl (record tag) tr
  | .flush => { tr with dirty := false, globalDirty := false }

end ContextTrack

/-- The track of `tag` after a sequence of operations. -/
def tracked (tag : Str) (ops : List FileOp) : ContextTrack :=
  ops.foldl (ContextTrack.next tag) .start

/-! ### The track counts the right lines -/

theorem sinceRegistered_append (tag : Str) (ops : List FileOp) (op : FileOp) :
    sinceRegistered tag (ops ++ [op]) =
      if op = .addContext tag then [] else sinceRegistered tag ops ++ [op] := by
  unfold sinceRegistered
  by_cases hop : op = .addContext tag
  · simp [hop]
  · simp [hop]

theorem record_foldl (tag : Str) (logs : List LogData) (tr : ContextTrack) :
    (logs.foldl (ContextTrack.record tag) tr).active = tr.active ∧
    (logs.foldl (ContextTrack.record tag) tr).lines = tr.lines ++
      if tr.active then (logs.filter (·.tag = some tag)).flatMap LogData.compactLine else [] := by
  induction logs generalizing tr with
  | nil => simp
  | cons log logs ih =>
      rw [List.foldl_cons]
      obtain ⟨hactive, hlines⟩ := ih (tr.record tag log)
      rw [hactive, hlines]
      by_cases hrecord : tr.active ∧ log.tag = some tag
      · obtain ⟨ha, ht⟩ := hrecord
        simp [ContextTrack.record, ha, ht]
      · have hkeep : (tr.record tag log).active = tr.active ∧
            (tr.record tag log).lines = tr.lines := by
          simp [ContextTrack.record, hrecord]
        rw [hkeep.1, hkeep.2]
        refine ⟨rfl, ?_⟩
        cases ha : tr.active with
        | false => simp
        | true =>
            have ht : ¬ log.tag = some tag := fun ht => hrecord ⟨ha, ht⟩
            simp [ht]

theorem whileRegistered_append {tag : Str} {op : FileOp} (hop : op ≠ .addContext tag)
    (ops : List FileOp) :
    whileRegistered tag (ops ++ [op]) =
      if .removeContext tag ∉ sinceRegistered tag ops ∧ op ≠ .removeContext tag then
        whileRegistered tag ops ++ [op]
      else whileRegistered tag ops := by
  rw [whileRegistered, sinceRegistered_append, if_neg hop, whileRegistered]
  by_cases hremoved : .removeContext tag ∈ sinceRegistered tag ops
  · rw [if_neg fun h => h.1 hremoved]
    obtain ⟨before, after, hsplit⟩ := List.append_of_mem hremoved
    rw [hsplit, List.append_assoc, List.cons_append]
    -- Both `takeWhile`s stop at the removal or before it.
    simp [List.takeWhile_append]
  · have hkept : ∀ op' ∈ sinceRegistered tag ops,
        decide (op' ≠ FileOp.removeContext tag) = true := by
      intro op' hop'
      have hne : op' ≠ .removeContext tag := fun heq => hremoved (heq ▸ hop')
      simpa using hne
    have hall := List.takeWhile_eq_self_iff.2 hkept
    rw [List.takeWhile_append_of_pos hkept, hall]
    by_cases hthis : op = .removeContext tag
    · simp [hthis, hremoved]
    · simp [hthis, hremoved]

theorem contextLines_append {tag : Str} {op : FileOp} (hop : op ≠ .addContext tag)
    (ops : List FileOp) :
    contextLines tag (ops ++ [op]) = contextLines tag ops ++
      if .removeContext tag ∉ sinceRegistered tag ops then
        (op.logs.filter (·.tag = some tag)).flatMap LogData.compactLine
      else [] := by
  unfold contextLines contextRecords
  rw [whileRegistered_append hop]
  by_cases hremoved : .removeContext tag ∈ sinceRegistered tag ops
  · simp [hremoved]
  · by_cases hthis : op = .removeContext tag
    · simp [hthis, FileOp.logs]
    · simp [hremoved, hthis]

/-- The track is registered when no removal has come since, and its lines are those the file should
consist of. -/
theorem tracked_spec {tag : Str} {ops : List FileOp} (hknown : .addContext tag ∈ ops) :
    ((tracked tag ops).active = true ↔ .removeContext tag ∉ sinceRegistered tag ops) ∧
    (tracked tag ops).lines = contextLines tag ops := by
  induction ops using List.reverseRecOn with
  | nil => exact absurd hknown List.not_mem_nil
  | append_singleton ops op ih =>
      have hfold : tracked tag (ops ++ [op]) = (tracked tag ops).next tag op := by
        simp [tracked]
      rw [hfold]
      by_cases hop : op = .addContext tag
      · subst hop
        simp [ContextTrack.next, sinceRegistered_append, contextLines, contextRecords,
          whileRegistered]
      · have hmem : .addContext tag ∈ ops := by
          rcases List.mem_append.1 hknown with h | h
          · exact h
          · exact absurd (List.mem_singleton.1 h).symm hop
        obtain ⟨hactive, hlines⟩ := ih hmem
        rw [contextLines_append hop, sinceRegistered_append, if_neg hop, ← hlines]
        cases op with
        | addContext t =>
            have ht : ¬ t = tag := fun heq => hop (by rw [heq])
            simp [ContextTrack.next, ht, hactive, FileOp.logs]
        | removeContext t =>
            by_cases ht : t = tag
            · subst ht
              simp [ContextTrack.next, FileOp.logs]
            · have ht' : ¬ tag = t := fun heq => ht heq.symm
              simp [ContextTrack.next, ht, ht', hactive, FileOp.logs]
        | doLogBatch logs =>
            obtain ⟨hrecord, hrecorded⟩ := record_foldl tag logs (tracked tag ops)
            refine ⟨?_, ?_⟩
            · simp [ContextTrack.next, hrecord, hactive]
            · simp only [ContextTrack.next, hrecorded, FileOp.logs, ← hactive]
        | flush => simp [ContextTrack.next, hactive, FileOp.logs]

theorem record_foldl_known (tag : Str) (logs : List LogData) (tr : ContextTrack) :
    (logs.foldl (ContextTrack.record tag) tr).known = tr.known := by
  induction logs generalizing tr with
  | nil => rfl
  | cons log logs ih =>
      rw [List.foldl_cons, ih, ContextTrack.record]
      split <;> rfl

theorem known_of_mem {tag : Str} {ops : List FileOp} (h : .addContext tag ∈ ops) :
    (tracked tag ops).known = true := by
  induction ops using List.reverseRecOn with
  | nil => exact absurd h List.not_mem_nil
  | append_singleton ops op ih =>
      have hfold : tracked tag (ops ++ [op]) = (tracked tag ops).next tag op := by
        simp [tracked]
      rw [hfold]
      by_cases hop : op = .addContext tag
      · simp [hop, ContextTrack.next]
      · have hknown := ih ((List.mem_append.1 h).resolve_right fun hlast =>
          hop (List.mem_singleton.1 hlast).symm)
        cases op with
        | addContext t =>
            have ht : ¬ t = tag := fun heq => hop (by rw [heq])
            simpa only [ContextTrack.next, if_neg ht] using hknown
        | removeContext t =>
            simp only [ContextTrack.next]
            split
            · exact hknown
            · exact hknown
        | doLogBatch logs => exact (record_foldl_known tag logs _).trans hknown
        | flush => exact hknown

/-! ## The writers of one tag -/

/-- The writers registered under `tag`. -/
def writersOf (tag : Str) (contextMap : List (Str × BufWriter)) : List BufWriter :=
  (contextMap.filter fun entry => entry.1 = tag).map Prod.snd

theorem writersOf_cons (tag t : Str) (file : BufWriter) (rest : List (Str × BufWriter)) :
    writersOf tag ((t, file) :: rest) =
      if t = tag then file :: writersOf tag rest else writersOf tag rest := by
  unfold writersOf
  by_cases h : t = tag
  · simp [h]
  · simp [h]

theorem lookup_eq_head? (tag : Str) (contextMap : List (Str × BufWriter)) :
    contextMap.lookup tag = (writersOf tag contextMap).head? := by
  induction contextMap with
  | nil => rfl
  | cons entry rest ih =>
      obtain ⟨t, file⟩ := entry
      rw [writersOf_cons]
      by_cases h : t = tag
      · simp [h]
      · have h' : (tag == t) = false := by simpa using fun heq => h heq.symm
        simp only [List.lookup_cons, h', if_neg h, ih]

theorem mem_of_lookup {tag : Str} {file : BufWriter} {contextMap : List (Str × BufWriter)}
    (h : contextMap.lookup tag = some file) : (tag, file) ∈ contextMap := by
  rw [lookup_eq_head?] at h
  have hmem := List.mem_of_mem_head? h
  simpa [writersOf] using hmem

theorem writersOf_setContextFile_self (tag : Str) (file : BufWriter)
    (contextMap : List (Str × BufWriter)) :
    writersOf tag (setContextFile contextMap tag file) =
      (writersOf tag contextMap).map fun _ => file := by
  induction contextMap with
  | nil => rfl
  | cons entry rest ih =>
      obtain ⟨t, file'⟩ := entry
      by_cases h : t = tag
      · simpa [setContextFile, writersOf_cons, h] using ih
      · simpa [setContextFile, writersOf_cons, h] using ih

theorem writersOf_setContextFile_of_ne {tag t : Str} (h : t ≠ tag) (file : BufWriter)
    (contextMap : List (Str × BufWriter)) :
    writersOf tag (setContextFile contextMap t file) = writersOf tag contextMap := by
  induction contextMap with
  | nil => rfl
  | cons entry rest ih =>
      obtain ⟨t', file'⟩ := entry
      by_cases ht : t' = t
      · subst ht
        simpa [setContextFile, writersOf_cons, h] using ih
      · by_cases htag : t' = tag
        · subst htag
          simpa [setContextFile, writersOf_cons, ht] using ih
        · simpa [setContextFile, writersOf_cons, ht, htag] using ih

theorem writersOf_filter_self (tag : Str) (contextMap : List (Str × BufWriter)) :
    writersOf tag (contextMap.filter fun entry => entry.1 ≠ tag) = [] := by
  simp [writersOf, List.filter_filter]

theorem writersOf_filter_of_ne {tag t : Str} (h : t ≠ tag) (contextMap : List (Str × BufWriter)) :
    writersOf tag (contextMap.filter fun entry => entry.1 ≠ t) = writersOf tag contextMap := by
  unfold writersOf
  rw [List.filter_filter]
  congr 2
  funext entry
  by_cases he : entry.1 = tag
  · have hne : tag ≠ t := fun heq => h heq.symm
    simp [he, hne]
  · simp [he]

theorem writersOf_flushAll_nil {tag : Str} {contextMap : List (Str × BufWriter)}
    (h : writersOf tag contextMap = []) (disk : Disk resolve) :
    writersOf tag (flushAll disk contextMap).2 = [] := by
  induction contextMap generalizing disk with
  | nil => rfl
  | cons entry rest ih =>
      obtain ⟨t, file⟩ := entry
      by_cases ht : t = tag
      · simp [writersOf_cons, ht] at h
      · rw [writersOf_cons, if_neg ht] at h
        simp only [flushAll, writersOf_cons, if_neg ht]
        exact ih h _

/-- Flushing the map touches only the files of its writers. -/
theorem flushAll_frame {place : Place} {contextMap : List (Str × BufWriter)}
    (h : ∀ entry ∈ contextMap, entry.2.inner.place ≠ place) (disk : Disk resolve) :
    (flushAll disk contextMap).1.files place = disk.files place := by
  induction contextMap generalizing disk with
  | nil => rfl
  | cons entry rest ih =>
      have hfirst := (flushBuf_appended disk entry.2).frame place
        fun heq => h entry List.mem_cons_self heq.symm
      have hrest := ih (fun entry hentry => h entry (List.mem_cons_of_mem _ hentry))
        (entry.2.flushBuf disk).1
      exact hrest.trans hfirst

theorem fileReaches_flushAll {place : Place} {n : ℕ} {disk : Disk resolve}
    (contextMap : List (Str × BufWriter)) (h : FileReaches disk place n) :
    FileReaches (flushAll disk contextMap).1 place n := by
  induction contextMap generalizing disk with
  | nil => exact h
  | cons entry rest ih => exact ih ((flushBuf_appended disk entry.2).fileReaches h)

theorem place_of_mem_flushAll {disk : Disk resolve} {contextMap : List (Str × BufWriter)}
    {entry : Str × BufWriter} (h : entry ∈ (flushAll disk contextMap).2) :
    ∃ entry' ∈ contextMap, entry'.1 = entry.1 ∧ entry'.2.inner.place = entry.2.inner.place := by
  induction contextMap generalizing disk with
  | nil => exact absurd h List.not_mem_nil
  | cons first rest ih =>
      rcases List.mem_cons.1 h with rfl | hrest
      · exact ⟨first, List.mem_cons_self, rfl, (flushBuf_appended disk first.2).place.symm⟩
      · obtain ⟨entry', hmem, htag, hplace⟩ := ih hrest
        exact ⟨entry', List.mem_cons_of_mem _ hmem, htag, hplace⟩

/-- For one tag, flushing the map is flushing its writer: the others write elsewhere. -/
theorem flushAll_writer {tag : Str} {place : Place} {file : BufWriter}
    {contextMap : List (Str × BufWriter)} (hfile : writersOf tag contextMap = [file])
    (hothers : ∀ entry ∈ contextMap, entry.1 ≠ tag → entry.2.inner.place ≠ place)
    (disk : Disk resolve) :
    ∃ disk₁ : Disk resolve, disk₁.files place = disk.files place ∧
      (flushAll disk contextMap).1.files place = (file.flushBuf disk₁).1.files place ∧
      writersOf tag (flushAll disk contextMap).2 = [(file.flushBuf disk₁).2] := by
  induction contextMap generalizing disk with
  | nil => cases hfile
  | cons entry rest ih =>
      obtain ⟨t, file'⟩ := entry
      have hrest : ∀ entry ∈ rest, entry.1 ≠ tag → entry.2.inner.place ≠ place :=
        fun entry hentry => hothers entry (List.mem_cons_of_mem _ hentry)
      by_cases ht : t = tag
      · rw [writersOf_cons, if_pos ht] at hfile
        obtain ⟨rfl, hnil⟩ := List.cons.inj hfile
        have hnone : ∀ entry ∈ rest, entry.1 ≠ tag := by
          intro entry hentry htag
          have hmem : entry.2 ∈ writersOf tag rest := by
            simp only [writersOf, List.mem_map, List.mem_filter, decide_eq_true_eq]
            exact ⟨entry, ⟨hentry, htag⟩, rfl⟩
          rw [hnil] at hmem
          exact List.not_mem_nil hmem
        refine ⟨disk, rfl, ?_, ?_⟩
        · exact flushAll_frame (fun entry hentry => hrest entry hentry (hnone entry hentry)) _
        · simp only [flushAll, writersOf_cons, if_pos ht]
          rw [writersOf_flushAll_nil hnil]
      · rw [writersOf_cons, if_neg ht] at hfile
        obtain ⟨disk₁, hsame, hflushed, hwriter⟩ := ih hfile hrest (file'.flushBuf disk).1
        have hfirst := (flushBuf_appended disk file').frame place
          fun heq => hothers (t, file') List.mem_cons_self ht heq.symm
        refine ⟨disk₁, hsame.trans hfirst, hflushed, ?_⟩
        simp only [flushAll, writersOf_cons, if_neg ht]
        exact hwriter

end ContextFile

end Paperlog
