import Paperlog.Framework.Delimited
import Paperlog.Framework.Utf8
import Paperlog.Model.CStr
import Paperlog.Properties.FlushWait
import Paperlog.Properties.Splitting

/-!
# Reading a log file back

`write_to_io` escapes nothing.  `readText` is what a reader can do with a line: look for the
delimiters of the format from left to right.  `Shown` is what a line shows of a record, the defaults
filled in, and `readText_iff` says which records a line gives back: those whose fields do not contain
the delimiter behind them.  The message is the last field and may contain anything.

A file is read line by line, and what stands behind the last line end is no line yet.
`readFile_linesOf_iff` is the round trip of a whole queue, through the split and the format: nobody's
message can add, forge or hide a line, but the other fields of a record can.
-/

namespace Paperlog

/-- What a line of the global file shows of a record. -/
structure Shown where
  level : LogLevel
  calendar : Str
  tag : Str
  file : Str
  line : ℕ
  column : ℕ
  functionName : Str
  message : Str
  deriving DecidableEq

namespace LogData

/-- Where the record comes from, as the formats print it. -/
def location (log : LogData) : Str :=
  log.file ++ ':' :: (decimal log.line.toNat ++ ':' :: decimal log.column.toNat)

def shown (log : LogData) : Shown :=
  { level := log.level
    calendar := log.timestamp.calendar
    tag := log.tag.getD defaultTag
    file := log.file
    line := log.line.toNat
    column := log.column.toNat
    functionName := log.functionName.getD "default".toList
    message := log.message }

/-- The fields behind the level and before the message, each with its delimiter. -/
def ioFields (log : LogData) : List (Str × Str) :=
  [(log.timestamp.calendar, " [".toList), (log.tag.getD defaultTag, "] [".toList),
    (log.location, " @ ".toList), (log.functionName.getD "default".toList, "] ".toList)]

/-- The line of a record, without the line end. -/
def ioText (log : LogData) : Str :=
  log.level.short :: ' ' :: List.printFields log.ioFields log.message

/-- The format of the source is a row of fields. -/
theorem ioLine_eq (log : LogData) : log.ioLine = log.ioText.utf8 ++ [10] := by
  have htext : log.ioPieces.flatten = log.ioText ++ ['\n'] := by
    simp [ioPieces, locationPieces, ioText, ioFields, location, List.printFields]
  have hflat : log.ioLine = Str.utf8 log.ioPieces.flatten := by
    rw [ioLine, Str.utf8, List.flatten_eq_flatMap, List.flatMap_assoc]
    rfl
  rw [hflat, htext, Str.utf8, List.flatMap_append]
  rfl

/-- Every field ends at its delimiter, and none contains a line end. -/
def Legible (log : LogData) : Prop :=
  ∀ field ∈ log.ioFields, List.EndsAt field.2 field.1 ∧ '\n' ∉ field.1

instance (log : LogData) : Decidable log.Legible :=
  inferInstanceAs (Decidable (∀ field ∈ log.ioFields, _))

/-- A simple case: the brackets and the `@` of the format do not occur in its fields. -/
theorem legible_of_plain {log : LogData}
    (hcalendar : '[' ∉ log.timestamp.calendar ∧ '\n' ∉ log.timestamp.calendar)
    (htag : ∀ tag, log.tag = some tag → ']' ∉ tag ∧ '\n' ∉ tag)
    (hfile : '@' ∉ log.file ∧ '\n' ∉ log.file)
    (hfunction : ∀ name, log.functionName = some name → ']' ∉ name ∧ '\n' ∉ name) :
    log.Legible := by
  have hdigits : ∀ n c, c ∈ decimal n → c ≠ '@' ∧ c ≠ '\n' := by
    intro n c hc
    have hdigit : c.isDigit := Nat.isDigit_of_mem_toDigits (by decide) (by decide) hc
    constructor <;> rintro rfl <;> exact absurd hdigit (by decide)
  have hlocation : '@' ∉ log.location ∧ '\n' ∉ log.location := by
    simp only [location, List.mem_append, List.mem_cons, not_or]
    exact ⟨⟨hfile.1, by decide, fun h => (hdigits _ _ h).1 rfl, by decide,
      fun h => (hdigits _ _ h).1 rfl⟩, ⟨hfile.2, by decide, fun h => (hdigits _ _ h).2 rfl,
      by decide, fun h => (hdigits _ _ h).2 rfl⟩⟩
  have htag' : ']' ∉ log.tag.getD defaultTag ∧ '\n' ∉ log.tag.getD defaultTag := by
    cases h : log.tag with
    | none => decide
    | some tag => exact htag tag h
  have hfunction' : ']' ∉ log.functionName.getD "default".toList ∧
      '\n' ∉ log.functionName.getD "default".toList := by
    cases h : log.functionName with
    | none => decide
    | some name => exact hfunction name h
  simp only [Legible, ioFields, List.forall_mem_cons, List.not_mem_nil, false_imp_iff,
    implies_true, and_true]
  exact ⟨⟨List.endsAt_of_not_mem (by decide) hcalendar.1, hcalendar.2⟩,
    ⟨List.endsAt_of_not_mem (by decide) htag'.1, htag'.2⟩,
    ⟨List.endsAt_of_not_mem (by decide) hlocation.1, hlocation.2⟩,
    ⟨List.endsAt_of_not_mem (by decide) hfunction'.1, hfunction'.2⟩⟩

end LogData

/-! ## The reader -/

/-- `LogLevel::short`, read back. -/
def LogLevel.ofShort : Char → Option LogLevel
  | 'I' => some .info
  | 'W' => some .warn
  | 'E' => some .error
  | 'D' => some .debug
  | 'C' => some .crit
  | 'O' => some .off
  | _ => none

theorem LogLevel.ofShort_short (level : LogLevel) : ofShort level.short = some level := by
  cases level <;> rfl

def readDecimal (s : Str) : Option ℕ :=
  if s.all Char.isDigit then some (Nat.ofDigitChars 10 s 0) else none

theorem readDecimal_decimal (n : ℕ) : readDecimal (decimal n) = some n := by
  have hdigits : (decimal n).all Char.isDigit = true :=
    List.all_eq_true.2 fun c hc => Nat.isDigit_of_mem_toDigits (by decide) (by decide) hc
  rw [readDecimal, if_pos hdigits, decimal, Nat.ofDigitChars_ten_toDigits]

/-- The numbers are looked for from the right: a file name may contain a colon. -/
def readLocation (s : Str) : Option (Str × ℕ × ℕ) := do
  let (column, rest) ← List.breakAt [':'] s.reverse
  let (line, file) ← List.breakAt [':'] rest
  some (file.reverse, ← readDecimal line.reverse, ← readDecimal column.reverse)

/-- The location can always be read. -/
theorem readLocation_location (log : LogData) :
    readLocation log.location = some (log.file, log.line.toNat, log.column.toNat) := by
  have hcolon : ∀ n, ':' ∉ (decimal n).reverse := by
    intro n hmem
    have hdigit : (':' : Char).isDigit := Nat.isDigit_of_mem_toDigits (by decide) (by decide)
      (List.mem_reverse.1 hmem)
    exact absurd hdigit (by decide)
  have hends : ∀ n, List.EndsAt [':'] (decimal n).reverse := fun n =>
    List.endsAt_of_not_mem List.mem_cons_self (hcolon n)
  have hreverse : log.location.reverse =
      (decimal log.column.toNat).reverse ++ ([':'] ++
        ((decimal log.line.toNat).reverse ++ ([':'] ++ log.file.reverse))) := by
    simp [LogData.location]
  have hne : ([':'] : Str) ≠ [] := List.cons_ne_nil _ _
  rw [readLocation, hreverse, (List.breakAt_append_iff hne _).2 (hends _)]
  simp only [Option.bind_eq_bind, Option.bind_some]
  rw [(List.breakAt_append_iff hne _).2 (hends _)]
  simp only [Option.bind_some, List.reverse_reverse, readDecimal_decimal]

/-- The delimiters of the format. -/
def ioDelimiters : List Str := [" [".toList, "] [".toList, " @ ".toList, "] ".toList]

/-- What a line shows, if it is one of the format. -/
def readText : Str → Option Shown
  | c :: ' ' :: text => do
      let level ← LogLevel.ofShort c
      let (fields, message) ← List.readFields ioDelimiters text
      match fields with
      | [calendar, tag, location, functionName] => do
          let (file, line, column) ← readLocation location
          some { level, calendar, tag, file, line, column, functionName, message }
      | _ => none
  | _ => none

/-- A line of a file. -/
def readLine (bytes : Bytes) : Option Shown := (CStr.toStr bytes).bind readText

/-- The complete lines of a file, `none` for those that are not of the format. -/
def readFile (file : Bytes) : List (Option Shown) := (file.terminatedBy 10).map readLine

/-! ## The round trip -/

section RoundTrip

variable {log : LogData} {maxStrLen : ℕ}

/-- **One line.**  A record comes back from its line exactly when each of its fields ends at its
delimiter; the message does not matter. -/
theorem readText_iff :
    readText log.ioText = some log.shown ↔ ∀ field ∈ log.ioFields, List.EndsAt field.2 field.1 := by
  have hne : ∀ field ∈ log.ioFields, field.2 ≠ [] := by
    simp [LogData.ioFields]
  have hdelimiters : log.ioFields.map Prod.snd = ioDelimiters := rfl
  rw [← List.readFields_append_iff hne log.message, hdelimiters]
  constructor
  · intro h
    obtain ⟨level, hlevel, h⟩ := Option.bind_eq_some_iff.1 h
    obtain ⟨⟨fields, message⟩, hfields, h⟩ := Option.bind_eq_some_iff.1 h
    obtain ⟨hlength, hsound⟩ := List.readFields_sound hfields
    obtain ⟨calendar, tag, location, functionName, rfl⟩ : ∃ calendar tag location functionName,
        fields = [calendar, tag, location, functionName] := by
      match fields, hlength with
      | [calendar, tag, location, functionName], _ => exact ⟨_, _, _, _, rfl⟩
    obtain ⟨⟨file, line, column⟩, -, h⟩ := Option.bind_eq_some_iff.1 h
    -- All fields but the location are in `Shown`; the location is what is left of the text.
    simp only [LogData.shown, Option.some.injEq, Shown.mk.injEq] at h
    obtain ⟨-, rfl, rfl, -, -, -, rfl, rfl⟩ := h
    have hlocation : location = log.location := by
      have htext := List.append_cancel_left (List.append_cancel_left
        (List.append_cancel_left (List.append_cancel_left hsound)))
      exact (List.append_cancel_right htext).symm
    rw [hfields, hlocation]
    rfl
  · intro h
    rw [LogData.ioText, readText, LogLevel.ofShort_short]
    simp only [Option.bind_eq_bind, Option.bind_some]
    rw [h]
    simp only [LogData.ioFields, List.map_cons, List.map_nil, Option.bind_some,
      readLocation_location]
    rfl

theorem newline_mem_ioText_iff (hmessage : '\n' ∉ log.message) :
    '\n' ∈ log.ioText ↔ ∃ field ∈ log.ioFields, '\n' ∈ field.1 := by
  have hlevel : '\n' ≠ log.level.short := by cases log.level <;> decide
  simp [LogData.ioText, LogData.ioFields, List.printFields, hmessage, hlevel]

theorem ten_mem_utf8_iff (s : Str) : 10 ∈ s.utf8 ↔ '\n' ∈ s := by
  have hcount : s.utf8.count 10 = s.count '\n' := String.count_flatMap_utf8EncodeChar (by decide) s
  rw [← List.count_pos_iff, hcount, List.count_pos_iff]

/-- **One record.**  A message without line ends is one line of the file, and the line gives the
record back, exactly when the record is legible. -/
theorem readFile_ioLine_iff (hmessage : '\n' ∉ log.message) :
    readFile log.ioLine = [some log.shown] ↔ log.Legible := by
  rw [readFile, LogData.ioLine_eq]
  by_cases hnewline : '\n' ∈ log.ioText
  · have htwo : 2 ≤ (List.terminatedBy 10 (log.ioText.utf8 ++ [10])).length := by
      rw [List.terminatedBy_append_cons, List.terminatedBy_nil, List.append_nil]
      exact List.splitOn_ne_singleton_of_mem ((ten_mem_utf8_iff _).2 hnewline)
    obtain ⟨field, hfield, hmem⟩ := (newline_mem_ioText_iff hmessage).1 hnewline
    constructor
    · intro h
      have hone := congrArg List.length h
      rw [List.length_map, List.length_singleton] at hone
      omega
    · exact fun h => absurd hmem (h field hfield).2
  · have hline : List.terminatedBy 10 (log.ioText.utf8 ++ [10]) = [log.ioText.utf8] :=
      List.terminatedBy_concat_eq_singleton_iff.2
        ⟨fun h => hnewline ((ten_mem_utf8_iff _).1 h), rfl⟩
    have hfields : ∀ field ∈ log.ioFields, '\n' ∉ field.1 := fun field hfield hmem =>
      hnewline ((newline_mem_ioText_iff hmessage).2 ⟨field, hfield, hmem⟩)
    rw [hline, List.map_singleton, readLine, CStr.toStr_utf8, Option.bind_some,
      List.singleton_inj, readText_iff]
    exact ⟨fun h field hfield => ⟨h field hfield, hfields field hfield⟩,
      fun h field hfield => (h field hfield).1⟩

/-- The lines of records one after another. -/
theorem readFile_flatMap_iff {logs : List LogData} (hmessages : ∀ log ∈ logs, '\n' ∉ log.message) :
    readFile (logs.flatMap LogData.ioLine) = logs.map (fun log => some log.shown) ↔
      ∀ log ∈ logs, log.Legible := by
  have hlines : LogData.ioLine = fun log => log.ioText.utf8 ++ [10] := funext LogData.ioLine_eq
  rw [hlines, readFile, List.map_terminatedBy_flatMap_iff]
  refine forall₂_congr fun log hlog => ?_
  rw [← LogData.ioLine_eq]
  exact readFile_ioLine_iff (hmessages log hlog)

/-- Splitting leaves everything but the message as it is. -/
theorem legible_of_mem_pieces {r : LogData} (hr : r ∈ pieces maxStrLen log) :
    r.Legible ↔ log.Legible := by
  rw [pieces_eq] at hr
  obtain ⟨line, -, hr⟩ := List.mem_flatMap.1 hr
  obtain ⟨chunk, -, rfl⟩ := List.mem_map.1 hr
  rfl

theorem pieces_eq_nil_iff (h : 0 < maxStrLen) :
    pieces maxStrLen log = [] ↔ ∀ c ∈ log.message, c = '\n' := by
  have hconcat := messages_pieces h log
  constructor
  · intro hnil
    rw [hnil] at hconcat
    simpa using hconcat.symm
  · intro hall
    rw [List.eq_nil_iff_forall_not_mem]
    intro r hr
    have hfilter : log.message.filter (fun c => !(c == '\n')) = [] := by simpa using hall
    rw [hfilter, List.flatMap_eq_nil_iff] at hconcat
    exact message_ne_nil h hr (hconcat r hr)

theorem newline_notMem_of_mem_pieces (h : 0 < maxStrLen) {entries : List LogData} :
    ∀ r ∈ entries.flatMap (pieces maxStrLen), '\n' ∉ r.message := by
  intro r hr
  obtain ⟨log, -, hr⟩ := List.mem_flatMap.1 hr
  rw [pieces_eq] at hr
  obtain ⟨line, hline, hr⟩ := List.mem_flatMap.1 hr
  exact (lineGroup_exact h log (List.not_mem_of_mem_splitOn _ _ line hline)).oneLine r hr

/-- What the records of a queue show, in order. -/
def shownOf (maxStrLen : ℕ) (entries : List LogData) : List (Option Shown) :=
  (entries.flatMap (pieces maxStrLen)).map fun log => some log.shown

theorem readFile_linesOf (h : 0 < maxStrLen) {entries : List LogData}
    (hlegible : ∀ log ∈ entries, log.Legible) :
    readFile (Sys.linesOf maxStrLen entries) = shownOf maxStrLen entries := by
  refine (readFile_flatMap_iff (newline_notMem_of_mem_pieces h)).2 fun r hr => ?_
  obtain ⟨log, hlog, hr⟩ := List.mem_flatMap.1 hr
  exact (legible_of_mem_pieces hr).2 (hlegible log hlog)

/-- A file that goes on keeps the lines it has. -/
theorem readFile_mono {file file' : Bytes} (h : file <+: file') :
    readFile file <+: readFile file' := (List.terminatedBy_mono h).map _

/-- **A queue.**  The file that a queue is written as gives back, line by line, all records of all
its entries and nothing else, exactly when every entry that has a record is legible. -/
theorem readFile_linesOf_iff (h : 0 < maxStrLen) (entries : List LogData) :
    readFile (Sys.linesOf maxStrLen entries) = shownOf maxStrLen entries ↔
      ∀ log ∈ entries, (∃ c ∈ log.message, c ≠ '\n') → log.Legible := by
  rw [shownOf, Sys.linesOf, readFile_flatMap_iff (newline_notMem_of_mem_pieces h)]
  constructor
  · rintro hall log hlog ⟨c, hc, hne⟩
    have hpieces : pieces maxStrLen log ≠ [] := fun hnil =>
      hne ((pieces_eq_nil_iff h).1 hnil c hc)
    obtain ⟨r, hr⟩ := List.exists_mem_of_ne_nil _ hpieces
    exact (legible_of_mem_pieces hr).1 (hall r (List.mem_flatMap.2 ⟨log, hlog, hr⟩))
  · intro hall r hr
    obtain ⟨log, hlog, hr⟩ := List.mem_flatMap.1 hr
    refine (legible_of_mem_pieces hr).2 (hall log hlog ?_)
    by_contra hnone
    have hblank : ∀ c ∈ log.message, c = '\n' := by simpa using hnone
    rw [(pieces_eq_nil_iff h).2 hblank] at hr
    exact absurd hr List.not_mem_nil

theorem plain_time : '[' ∉ Scenario.time.calendar ∧ '\n' ∉ Scenario.time.calendar := by decide

theorem legible_log (message : String) : (Scenario.log message).Legible :=
  LogData.legible_of_plain plain_time nofun ⟨List.not_mem_nil, List.not_mem_nil⟩ nofun

theorem legible_tagged (message : String) : (Scenario.tagged message).Legible := by
  refine LogData.legible_of_plain plain_time (fun tag htag => ?_)
    ⟨List.not_mem_nil, List.not_mem_nil⟩ nofun
  obtain rfl := Option.some.inj htag
  decide

/-- Two messages with the delimiters of the format in them, one on two lines. -/
theorem readFile_linesOf_iff_delimiters :
    readFile (Sys.linesOf 1024 [Scenario.log "a] [b @ c] d", Scenario.tagged "E 1 [x]\n] ["]) =
      shownOf 1024 [Scenario.log "a] [b @ c] d", Scenario.tagged "E 1 [x]\n] ["] := by
  refine (readFile_linesOf_iff (by decide) _).2 fun log hlog _ => ?_
  rw [List.mem_pair] at hlog
  rcases hlog with rfl | rfl
  · exact legible_log _
  · exact legible_tagged _

/-- A record whose tag contains a line end and the rest of a line. -/
def forger : LogData :=
  { LogData.default ⟨0, "t".toList⟩ with
    tag := some "a] [f:1:2 @ g] y\nE u [b".toList
    message := "x".toList }

/-- A tag can forge a line: the file shows two records where one was logged. -/
example : readFile forger.ioLine =
    [some ⟨.info, "t".toList, "a".toList, "f".toList, 1, 2, "g".toList, "y".toList⟩,
      some ⟨.error, "u".toList, "b".toList, [], 0, 0, "default".toList, "x".toList⟩] := by
  decide +kernel

end RoundTrip

end Paperlog
