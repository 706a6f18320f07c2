import Paperlog.Framework.Cutting
import Paperlog.Model.Scenario
import Paperlog.Model.Split
import Mathlib.GroupTheory.GroupAction.Ring

/-!
# What splitting does to a message

`split_str_into_chunks` works through the queue entry by entry, through an entry line by line, and
cuts each line into pieces of `max_str_len` characters.  `LineGroup` is what the records of one line
are, and `split_exact` says that the output consists of such groups and nothing else.

A line without characters has no pieces, so its group is empty.  `keepsLines_iff` says which queues
lose a line that way: those with a message in which two line ends touch, the ends of the message
counting as line ends.
-/

namespace Paperlog

/-- The records of one line, once the assertion of `chunks` has passed. -/
def lineGroup (maxStrLen : ℕ) (log : LogData) (line : Str) : List LogData :=
  (line.toChunks maxStrLen).map fun chunk => { log with message := chunk }

variable {maxStrLen : ℕ}

theorem pieces_eq (maxStrLen : ℕ) (log : LogData) :
    pieces maxStrLen log = (log.message.splitOn '\n').flatMap (lineGroup maxStrLen log) := rfl

/-! ## The records of one line -/

/-- `records` is `line`, cut into pieces of `maxStrLen` characters, each a copy of `log` with the
piece as its message. -/
structure LineGroup (maxStrLen : ℕ) (log : LogData) (line : Str) (records : List LogData) :
    Prop where
  concat : records.flatMap (·.message) = line
  bounds : ∀ r ∈ records, 1 ≤ r.message.length ∧ r.message.length ≤ maxStrLen
  oneLine : ∀ r ∈ records, '\n' ∉ r.message
  full : ∀ r ∈ records.dropLast, r.message.length = maxStrLen
  count : records.length = line.length ⌈/⌉ maxStrLen
  fields : ∀ r ∈ records, r = { log with message := r.message }

theorem messages_lineGroup (maxStrLen : ℕ) (log : LogData) (line : Str) :
    (lineGroup maxStrLen log line).flatMap (·.message) = (line.toChunks maxStrLen).flatten := by
  simp [lineGroup, List.flatMap_map, List.flatMap_id']

theorem lineGroup_exact (h : 0 < maxStrLen) (log : LogData) {line : Str} (hline : '\n' ∉ line) :
    LineGroup maxStrLen log line (lineGroup maxStrLen log line) := by
  have hcut := List.cut_toChunks h line
  have hpiece : ∀ r ∈ lineGroup maxStrLen log line,
      ∃ piece ∈ line.toChunks maxStrLen, r = { log with message := piece } := by
    intro r hr
    obtain ⟨piece, hmem, rfl⟩ := List.mem_map.1 hr
    exact ⟨piece, hmem, rfl⟩
  refine ⟨?_, ?_, ?_, ?_, ?_, ?_⟩
  · rw [messages_lineGroup, hcut.flatten_eq]
  · intro r hr
    obtain ⟨piece, hmem, rfl⟩ := hpiece r hr
    exact ⟨List.length_pos_iff.2 (hcut.piece_ne_nil h piece hmem), hcut.length_le piece hmem⟩
  · intro r hr hnewline
    obtain ⟨piece, hmem, rfl⟩ := hpiece r hr
    have hin : '\n' ∈ (line.toChunks maxStrLen).flatten :=
      List.mem_flatten.2 ⟨piece, hmem, hnewline⟩
    rw [hcut.flatten_eq] at hin
    exact hline hin
  · intro r hr
    rw [lineGroup, ← List.map_dropLast] at hr
    obtain ⟨piece, hmem, rfl⟩ := List.mem_map.1 hr
    exact hcut.length_of_mem_dropLast piece hmem
  · rw [lineGroup, List.length_map, hcut.length_eq h]
  · intro r hr
    obtain ⟨piece, -, rfl⟩ := hpiece r hr
    rfl

/-- The number of chunks a message is cut into: for each of its lines the length over `maxStrLen`,
rounded up. -/
def chunkCount (maxStrLen : ℕ) (message : Str) : ℕ :=
  ((message.splitOn '\n').map fun line => line.length ⌈/⌉ maxStrLen).sum

theorem length_pieces (h : 0 < maxStrLen) (log : LogData) :
    (pieces maxStrLen log).length = chunkCount maxStrLen log.message := by
  rw [pieces_eq, List.length_flatMap, chunkCount]
  congr 1
  apply List.map_congr_left
  intro line hline
  exact (lineGroup_exact h log (List.not_mem_of_mem_splitOn _ _ line hline)).count

/-- Put together again, the records of an entry are its message without the line ends. -/
theorem messages_pieces (h : 0 < maxStrLen) (log : LogData) :
    (pieces maxStrLen log).flatMap (·.message) = log.message.filter (fun c => !(c == '\n')) := by
  have hgroup : ∀ line, (lineGroup maxStrLen log line).flatMap (·.message) = line := fun line => by
    rw [messages_lineGroup, (List.cut_toChunks h line).flatten_eq]
  rw [pieces_eq, List.flatMap_assoc, ← List.flatten_splitOn]
  simp [hgroup, List.flatMap_id']

/-- **What splitting means.**  The output is, entry by entry in queue order and line by line within
an entry, one group of records for each line; put together, the groups of an entry give its message
without the line ends. -/
theorem split_exact (queue : List LogData) (h : 0 < maxStrLen) :
    ∃ group : LogData → Str → List LogData,
      splitStrIntoChunks queue maxStrLen =
        some (queue.flatMap fun log => (log.message.splitOn '\n').flatMap (group log)) ∧
      (∀ log : LogData, ∀ line ∈ log.message.splitOn '\n',
        LineGroup maxStrLen log line (group log line)) ∧
      ∀ log : LogData, ((log.message.splitOn '\n').flatMap (group log)).flatMap (·.message) =
        log.message.filter (fun c => !(c == '\n')) := by
  refine ⟨lineGroup maxStrLen, splitStrIntoChunks_of_ne_zero h.ne' queue, ?_, ?_⟩
  · intro log line hline
    exact lineGroup_exact h log (List.not_mem_of_mem_splitOn _ _ line hline)
  · exact fun log => messages_pieces h log

theorem split_exact_twoLines :
    ∃ group : LogData → Str → List LogData,
      splitStrIntoChunks [Scenario.log "abcde\n\nfg"] 2 =
        some ([Scenario.log "abcde\n\nfg"].flatMap fun log =>
          (log.message.splitOn '\n').flatMap (group log)) ∧
      (∀ log : LogData, ∀ line ∈ log.message.splitOn '\n', LineGroup 2 log line (group log line)) ∧
      ∀ log : LogData, ((log.message.splitOn '\n').flatMap (group log)).flatMap (·.message) =
        log.message.filter (fun c => !(c == '\n')) :=
  split_exact [Scenario.log "abcde\n\nfg"] (by decide)

/-! ## The lines that get lost -/

/-- The records of a line: copies of the entry, at least one of them, whose messages give the line
when put together. -/
structure ReadsBack (log : LogData) (line : Str) (records : List LogData) : Prop where
  ne_nil : records ≠ []
  concat : records.flatMap (·.message) = line
  fields : ∀ r ∈ records, r = { log with message := r.message }

/-- The output has records for every line of every queued entry, in order, and nothing else. -/
def KeepsLines (maxStrLen : ℕ) (queue : List LogData) : Prop :=
  ∃ group : LogData → Str → List LogData,
    splitStrIntoChunks queue maxStrLen =
      some (queue.flatMap fun log => (log.message.splitOn '\n').flatMap (group log)) ∧
    ∀ log ∈ queue, ∀ line ∈ log.message.splitOn '\n', ReadsBack log line (group log line)

/-- Two line ends touch, where the ends of the message count as line ends: the message is empty,
begins or ends with a line end, or has two of them in a row. -/
def HasBlankLine (message : Str) : Prop := ['\n', '\n'] <:+: '\n' :: (message ++ ['\n'])

theorem lineGroup_eq_nil_iff (h : 0 < maxStrLen) (log : LogData) (line : Str) :
    lineGroup maxStrLen log line = [] ↔ line = [] := by
  rw [lineGroup, List.map_eq_nil_iff]
  constructor
  · intro hnil
    by_contra hline
    exact (List.cut_toChunks h line).ne_nil hline hnil
  · rintro rfl
    simp [List.toChunks]

/-- Splitting never gives an empty message. -/
theorem message_ne_nil (h : 0 < maxStrLen) {log r : LogData} (hr : r ∈ pieces maxStrLen log) :
    r.message ≠ [] := by
  rw [pieces_eq] at hr
  obtain ⟨line, hline, hmem⟩ := List.mem_flatMap.1 hr
  have hgroup := lineGroup_exact h log (List.not_mem_of_mem_splitOn _ _ line hline)
  exact List.length_pos_iff.1 (hgroup.bounds r hmem).1

theorem lineGroup_readsBack (h : 0 < maxStrLen) (log : LogData) {line : Str} (hline : '\n' ∉ line)
    (hne : line ≠ []) : ReadsBack log line (lineGroup maxStrLen log line) := by
  have hgroup := lineGroup_exact h log hline
  exact ⟨fun hnil => hne ((lineGroup_eq_nil_iff h log line).1 hnil), hgroup.concat, hgroup.fields⟩

/-- **When no line vanishes.**  Every line of every entry can be read back from the records exactly
when no message has a blank line. -/
theorem keepsLines_iff (queue : List LogData) (h : 0 < maxStrLen) :
    KeepsLines maxStrLen queue ↔ ∀ log ∈ queue, ¬ HasBlankLine log.message := by
  rw [KeepsLines, splitStrIntoChunks_of_ne_zero h.ne']
  constructor
  · rintro ⟨group, hsplit, hgroup⟩ log hlog hblank
    -- The record of the blank line would have an empty message.
    have hnil : [] ∈ log.message.splitOn '\n' := (List.nil_mem_splitOn_iff _ _).2 hblank
    have hback := hgroup log hlog [] hnil
    obtain ⟨r, hr⟩ := List.exists_mem_of_ne_nil _ hback.ne_nil
    have hempty : r.message = [] := List.flatMap_eq_nil_iff.1 hback.concat r hr
    have hout : r ∈ queue.flatMap (pieces maxStrLen) := by
      rw [Option.some.inj hsplit]
      exact List.mem_flatMap.2 ⟨log, hlog, List.mem_flatMap.2 ⟨[], hnil, hr⟩⟩
    obtain ⟨log', -, hr'⟩ := List.mem_flatMap.1 hout
    exact message_ne_nil h hr' hempty
  · intro hblank
    refine ⟨lineGroup maxStrLen, rfl, fun log hlog line hline => ?_⟩
    have hne : line ≠ [] := by
      rintro rfl
      exact hblank log hlog ((List.nil_mem_splitOn_iff _ _).1 hline)
    exact lineGroup_readsBack h log (List.not_mem_of_mem_splitOn _ _ line hline) hne

/-- An empty message disappears altogether, and a blank line between two others without a trace. -/
theorem blankLines_vanish :
    ¬ (∀ (maxStrLen : ℕ) (queue : List LogData), 0 < maxStrLen → KeepsLines maxStrLen queue) ∧
      splitStrIntoChunks [Scenario.log ""] 1024 = some [] ∧
      splitStrIntoChunks [Scenario.log "a\n\nb"] 1024 =
        splitStrIntoChunks [Scenario.log "a\nb"] 1024 := by
  refine ⟨fun hall => ?_, by decide +kernel, by decide +kernel⟩
  obtain ⟨group, hsplit, hgroup⟩ := hall 1024 [Scenario.log ""] (by decide)
  have hback := hgroup (Scenario.log "") List.mem_cons_self [] (by decide)
  have hnone : splitStrIntoChunks [Scenario.log ""] 1024 = some [] := by decide +kernel
  have hlines : (Scenario.log "").message.splitOn '\n' = [[]] := by decide
  rw [hnone, Option.some.injEq, List.flatMap_singleton, hlines, List.flatMap_singleton] at hsplit
  exact hback.ne_nil hsplit.symm

theorem keepsLines_iff_twoLines :
    KeepsLines 2 [Scenario.log "abc\nd"] ↔
      ∀ log ∈ [Scenario.log "abc\nd"], ¬ HasBlankLine log.message :=
  keepsLines_iff [Scenario.log "abc\nd"] (by decide)

end Paperlog
