import Paperlog.Properties.CStrings
import Paperlog.Properties.OnDisk

/-!
# From the callers' bytes to the file and back

Threads pass C strings to `paper2_queue_log_ffi`; at the other end there is a file of bytes.
`logged_lines` follows the strings all the way: once no thread can move any more, the file, read back
line by line, consists of the lines of all calls, in an order that keeps the order of each thread.
The lines of one call stand together.  Each of them shows what has been passed, byte for byte, and
their messages put together are the message without its line ends.

On the way lie the conversion of the C strings, the queue, the split, the format and the buffered
writes; what each of them does is known from `CStrings`, `Pipeline`, `Splitting`, `ReadBack` and
`OnDisk`.
-/

namespace List

/-- Where the elements of each kind are related to a list of its own, in order, they can be labelled
with what they are related to. -/
theorem exists_labelled {ι β γ : Type*} [DecidableEq ι] {R : β → γ → Prop} :
    ∀ {l : List (ι × β)} (own : ι → List γ),
      (∀ i, Forall₂ R ((l.filter fun e => e.1 = i).map Prod.snd) (own i)) →
      ∃ labelled : List ((ι × γ) × β), labelled.map (fun e => (e.1.1, e.2)) = l ∧
        (∀ e ∈ labelled, R e.2 e.1.2) ∧
        ∀ i, ((labelled.filter fun e => e.1.1 = i).map fun e => e.1.2) = own i := by
  intro l
  induction l with
  | nil =>
      intro own h
      exact ⟨[], rfl, nofun, fun i => (forall₂_nil_left_iff.1 (h i)).symm⟩
  | cons e l ih =>
      intro own h
      have hhead := h e.1
      rw [filter_cons_of_pos (by simp), map_cons] at hhead
      obtain ⟨c, cs, hc, hcs, hown⟩ := forall₂_cons_left_iff.1 hhead
      obtain ⟨labelled, rfl, hrelated, hrest⟩ := ih (Function.update own e.1 cs) fun i => by
        by_cases hi : e.1 = i
        · subst hi
          rwa [Function.update_self]
        · have hother := h i
          rw [filter_cons_of_neg (by simpa using hi)] at hother
          rwa [Function.update_of_ne (Ne.symm hi)]
      refine ⟨((e.1, c), e.2) :: labelled, rfl, forall_mem_cons.2 ⟨hc, hrelated⟩, fun i => ?_⟩
      by_cases hi : e.1 = i
      · subst hi
        rw [filter_cons_of_pos (by simp), map_cons, hrest, Function.update_self, hown]
      · rw [filter_cons_of_neg (by simpa using hi), hrest, Function.update_of_ne (Ne.symm hi)]

end List

namespace Paperlog

/-! ## What a call leaves in the file -/

/-- A call of `paper2_queue_log_ffi`: what is passed, and when. -/
structure LogCall where
  args : QueueLogArgs
  now : DateTime

namespace LogCall

/-- What a line shows of the call, apart from its message. -/
structure ShownIn (call : LogCall) (shown : Shown) : Prop where
  level : shown.level = call.args.level
  calendar : shown.calendar = call.now.calendar
  tag : shown.tag.utf8 = call.args.tag.getD defaultTag.utf8
  file : some shown.file.utf8 = call.args.file
  line : shown.line = call.args.line.toUInt32.toNat
  column : shown.column = call.args.column.toUInt32.toNat
  functionName : shown.functionName.utf8 = call.args.functionName.getD (Str.utf8 "default".toList)

/-- These are the lines of the call. -/
structure Lines (call : LogCall) (lines : List Shown) : Prop where
  shown : ∀ line ∈ lines, call.ShownIn line
  message : some (lines.flatMap fun line => line.message.utf8) =
    call.args.message.map (·.filter (· ≠ 10))

/-- The record that is queued for the call. -/
structure Carries (call : LogCall) (log : LogData) : Prop extends SameBytes log call.args where
  level : log.level = call.args.level
  line : log.line = call.args.line.toUInt32
  column : log.column = call.args.column.toUInt32
  timestamp : log.timestamp = call.now

/-- The call has a message and a file, its strings are UTF-8, and its record can be told from the
line it is printed as. -/
structure Proper (call : LogCall) : Prop where
  message : call.args.message ≠ none
  file : call.args.file ≠ none
  utf8 : call.args.Utf8
  legible : ∀ log, call.Carries log → log.Legible

variable {W ω Tid : Type}

/-- The call of the system that it makes, if the logger is running. -/
def toCall (logger : Sys W ω Tid) (call : LogCall) : Option Call :=
  (paper2QueueLogFfi (some logger) call.args call.now).1

/-- Which logger is running makes no difference. -/
theorem toCall_eq {Tid' : Type} (logger : Sys W ω Tid) (logger' : Sys W ω Tid') :
    toCall logger = toCall logger' := by
  funext call
  unfold toCall paper2QueueLogFfi
  cases call.args.message with
  | none => rfl
  | some message => cases call.args.file <;> rfl

/-- A proper call queues one record that carries it. -/
theorem Proper.carried {call : LogCall} (h : call.Proper) (logger : Sys W ω Tid) :
    ∃ log, call.toCall logger = some (.paper2QueueLogFfi log) ∧ call.Carries log := by
  obtain ⟨message, hmessage⟩ := Option.ne_none_iff_exists'.1 h.message
  obtain ⟨file, hfile⟩ := Option.ne_none_iff_exists'.1 h.file
  obtain ⟨hmessage', hfile', htag, hname⟩ := h.utf8
  unfold toCall paper2QueueLogFfi
  rw [hmessage, hfile]
  refine ⟨_, rfl, ⟨?_, ?_, map_utf8_toStringLossy_iff _ |>.2 htag,
    map_utf8_toStringLossy_iff _ |>.2 hname⟩, rfl, rfl, rfl, rfl⟩
  · rw [hmessage]
    exact congrArg some (CStr.utf8_toStringLossy_iff.2 (hmessage' _ hmessage))
  · rw [hfile]
    exact congrArg some (CStr.utf8_toStringLossy_iff.2 (hfile' _ hfile))

theorem Carries.shownIn {call : LogCall} {log : LogData} (h : call.Carries log) :
    call.ShownIn log.shown where
  level := h.level
  calendar := congrArg DateTime.calendar h.timestamp
  tag := by
    rw [← h.tag]
    cases hlog : log.tag <;> simp [LogData.shown, hlog]
  file := h.file
  line := congrArg UInt32.toNat h.line
  column := congrArg UInt32.toNat h.column
  functionName := by
    rw [← h.functionName]
    cases hlog : log.functionName <;> simp [LogData.shown, hlog]

/-- The pieces of the record are the lines of the call. -/
theorem Carries.lines {call : LogCall} {log : LogData} (h : call.Carries log) {maxStrLen : ℕ}
    (hmax : 0 < maxStrLen) : call.Lines ((pieces maxStrLen log).map LogData.shown) where
  shown line hline := by
    obtain ⟨piece, hpiece, rfl⟩ := List.mem_map.1 hline
    rw [pieces_eq] at hpiece
    obtain ⟨_, -, hpiece⟩ := List.mem_flatMap.1 hpiece
    obtain ⟨chunk, -, rfl⟩ := List.mem_map.1 hpiece
    have hcarries := h.shownIn
    exact ⟨hcarries.level, hcarries.calendar, hcarries.tag, hcarries.file, hcarries.line,
      hcarries.column, hcarries.functionName⟩
  message := by
    have hmessage : (pieces maxStrLen log).flatMap (fun piece => piece.message.utf8) =
        log.message.utf8.filter (· ≠ 10) := by
      have hfilter : log.message.utf8.filter (· ≠ 10) =
          Str.utf8 (log.message.filter fun c => !(c == '\n')) := by
        rw [Str.utf8, String.filter_flatMap_utf8EncodeChar (by decide)]
        simp only [ne_eq, decide_not, Str.utf8]
        rfl
      rw [hfilter, ← messages_pieces hmax, Str.utf8, List.flatMap_assoc]
      rfl
    rw [← h.message, Option.map_some, List.flatMap_map, ← hmessage]
    rfl

end LogCall

/-! ## The whole way -/

namespace Sys

open Transition LoggerThreadCtx GlobalLogger

variable {Tid : Type} [DecidableEq Tid] {target : Target} {ffi : Option LoggerConfigFfi}
  {config : LoggerConfig} {logPath : PathBuf} {resolve : PathBuf → Place} {disk : Disk resolve}
  {calls : Tid → List LogCall} {todo : Tid → List Call}
  {s₀ s : Sys (Disk resolve) BufWriter Tid} {as : List (Action Tid)}

omit [DecidableEq Tid] in
/-- The program of a thread that makes proper calls. -/
theorem exists_carries (logger : Sys (Disk resolve) BufWriter Tid) {calls : List LogCall}
    (hproper : ∀ call ∈ calls, call.Proper) :
    ∃ logs : List LogData, calls.filterMap (LogCall.toCall logger) =
      logs.map Call.paper2QueueLogFfi ∧ List.Forall₂ (fun log call => call.Carries log) logs calls := by
  induction calls with
  | nil => exact ⟨[], rfl, .nil⟩
  | cons call calls ih =>
      obtain ⟨logs, hlogs, hcarries⟩ := ih fun c hc => hproper c (List.mem_cons_of_mem _ hc)
      obtain ⟨log, hlog, hcarry⟩ := (hproper call List.mem_cons_self).carried logger
      refine ⟨log :: logs, ?_, .cons hcarry hcarries⟩
      rw [List.filterMap_cons_some hlog, hlogs, List.map_cons]

/-- The entries that have been pushed, with the threads that did. -/
def pushedEntries (s : Sys (Disk resolve) BufWriter Tid) : List (Tid × LogData) :=
  s.history.pushed.flatMap fun push => push.2.map fun log => (push.1, log)

omit [DecidableEq Tid] in
theorem map_snd_pushedEntries (s : Sys (Disk resolve) BufWriter Tid) :
    s.pushedEntries.map Prod.snd = s.entries := by
  simp [pushedEntries, entries, List.map_flatMap]

theorem map_filter_pushedEntries (s : Sys (Disk resolve) BufWriter Tid) (t : Tid) :
    ((s.pushedEntries.filter fun e => e.1 = t).map Prod.snd) = (s.pushedBy t).flatten := by
  rw [pushedEntries, pushedBy]
  induction s.history.pushed with
  | nil => rfl
  | cons push pushed ih =>
      rw [List.flatMap_cons, List.filter_append, List.map_append, ih]
      by_cases ht : push.1 = t
      · simp [ht, Function.comp_def, List.filter_map]
      · simp [ht, Function.comp_def, List.filter_map]

/-- **From the bytes to the file and back.**  A logger set up by `paper2_init_logger_ffi` with a
positive `max_string_len`, on a disk that never fails; threads that make proper calls, sinks that do
not refuse: once no thread can move any more, the global file, read back line by line, consists of the
lines of all calls.  The lines of a call stand together, and the calls of each thread are in its
order. -/
theorem logged_lines (hconfig : convertedConfig target ffi = some config)
    (hmax : 0 < config.maxStringLen)
    (hproper : ∀ t, ∀ call ∈ calls t, call.Proper)
    (htodo : ∀ t, todo t = (calls t).filterMap (LogCall.toCall s₀))
    (hinit : paper2InitLoggerFfi target none ffi (some logPath.utf8) disk todo =
      some (.ok true, some s₀))
    (hsinks : ∀ a ∈ as, a.SinkOk) (hrun : run step s₀ as = some s)
    (hrest : AtRest step Action.Genuine s) :
    ∃ order : List ((Tid × LogCall) × List Shown),
      (∀ t, ((order.filter fun e => e.1.1 = t).map fun e => e.1.2) = calls t) ∧
      (∀ e ∈ order, e.1.2.Lines e.2) ∧
      ∃ file, s.world.read logPath = some file ∧
        readFile file = (order.flatMap Prod.snd).map some := by
  choose logs hlogs hcarries using fun t => exists_carries s₀ (hproper t)
  have hprogram : ∀ t, todo t = (logs t).map Call.paper2QueueLogFfi := fun t =>
    (htodo t).trans (hlogs t)
  have hboot : boot disk config logPath todo = .ok s₀ := by
    obtain ⟨bytes, path, config', hbytes, hpath, hconfig', -, hboot⟩ :=
      boot_of_paper2InitLoggerFfi hinit
    obtain rfl := Option.some.inj hbytes
    obtain rfl := Option.some.inj (hpath.symm.trans (CStr.toStr_utf8 logPath))
    obtain rfl := Option.some.inj (hconfig'.symm.trans hconfig)
    exact hboot
  have hdelivered : Delivered s logPath todo := by
    refine delivered_atRest hmax ?_ ?_ hboot hsinks hrun hrest
    · intro t tag now hcall
      rw [hprogram] at hcall
      obtain ⟨log, -, hlog⟩ := List.mem_map.1 hcall
      cases hlog
    · intro t call hcall
      rw [hprogram] at hcall
      obtain ⟨log, -, rfl⟩ := List.mem_map.1 hcall
      simp [Call.paper2QueueLogFfi, Call.NoWait, GuardedOp.queueLog, GuardedOp.NoWait]
  -- Every push is one record, so what a thread has pushed are the records of its calls.
  have hpushed : ∀ t, (s.pushedBy t).flatten = logs t := by
    intro t
    have hone : ∀ log, (Call.paper2QueueLogFfi log).pushes = [[log]] := fun log => rfl
    rw [hdelivered.pushed, hprogram, List.flatMap_map]
    simp only [hone]
    rw [← List.map_eq_flatMap, ← List.flatMap_def, List.flatMap_singleton']
  have hown : ∀ t, List.Forall₂ (fun log call => LogCall.Carries call log)
      ((s.pushedEntries.filter fun e => e.1 = t).map Prod.snd) (calls t) := by
    intro t
    rw [map_filter_pushedEntries, hpushed]
    exact hcarries t
  obtain ⟨labelled, hlabelled, hcarry, horder⟩ := List.exists_labelled calls hown
  refine ⟨labelled.map fun e => (e.1, (pieces config.maxStringLen e.2).map LogData.shown), ?_, ?_,
    _, hdelivered.file, ?_⟩
  · intro t
    rw [List.filter_map, List.map_map]
    exact horder t
  · intro e he
    obtain ⟨e', he', rfl⟩ := List.mem_map.1 he
    exact (hcarry e' he').lines hmax
  · have hentries : s.entries = labelled.map Prod.snd := by
      rw [← map_snd_pushedEntries, ← hlabelled, List.map_map]
      rfl
    have hconf : s.ctx.config = config := by
      rw [config_run hrun]
      rw [boot_disk] at hboot
      exact (Except.ok.inj hboot) ▸ rfl
    have hlegible : ∀ log ∈ s.entries, log.Legible := by
      intro log hlog
      rw [hentries] at hlog
      obtain ⟨e, he, rfl⟩ := List.mem_map.1 hlog
      have hcall : e.1.2 ∈ calls e.1.1 := by
        rw [← horder e.1.1]
        exact List.mem_map_of_mem (List.mem_filter.2 ⟨he, decide_eq_true rfl⟩)
      exact (hproper _ _ hcall).legible _ (hcarry e he)
    rw [hconf, readFile_linesOf hmax hlegible, shownOf, hentries]
    simp only [List.flatMap_map, List.map_flatMap, List.map_map]
    rfl

/-- Two lines, and a character of two bytes. -/
def twoLines : LogCall :=
  { args := { level := .warn, tag := none, message := some [0x61, 0x0A, 0xC3, 0xA9], file := some []
              line := 1, column := 2, functionName := none }
    now := Scenario.time }

/-- One thread logs once, the other twice. -/
def twoThreads : Bool → List LogCall
  | false => [twoLines]
  | true => [twoLines, twoLines]

theorem proper_twoLines : twoLines.Proper where
  message := by decide
  file := by decide
  utf8 := by
    have hnone : ∀ b ∈ (none : CStrPtr), CStr.Utf8 b := by simp
    refine ⟨fun b hb => ⟨['a', '\n', 'é'], ?_⟩, fun b hb => ⟨[], ?_⟩, hnone, hnone⟩
    · obtain rfl := Option.some.inj hb
      decide
    · obtain rfl := Option.some.inj hb
      rfl
  legible log h := by
    have hfile : log.file = [] := by
      have hempty : log.file.utf8 = [] := Option.some.inj h.file
      cases hlog : log.file with
      | nil => rfl
      | cons c file =>
          rw [hlog, Str.utf8, List.flatMap_cons, List.append_eq_nil_iff] at hempty
          exact absurd hempty.1 String.utf8EncodeChar_ne_nil
    have htag : log.tag = none := Option.map_eq_none_iff.1 h.tag
    have hname : log.functionName = none := Option.map_eq_none_iff.1 h.functionName
    have htime : log.timestamp = Scenario.time := h.timestamp
    refine LogData.legible_of_plain (htime ▸ plain_time) ?_ ?_ ?_
    · simp [htag]
    · rw [hfile]
      exact ⟨List.not_mem_nil, List.not_mem_nil⟩
    · simp [hname]

theorem proper_twoThreads : ∀ t, ∀ call ∈ twoThreads t, call.Proper := by
  intro t call hcall
  cases t with
  | false => exact List.mem_singleton.1 hcall ▸ proper_twoLines
  | true =>
      rcases List.mem_pair.1 hcall with rfl | rfl
      · exact proper_twoLines
      · exact proper_twoLines

/-- Messages are cut after four characters. -/
def shortFfi : LoggerConfigFfi :=
  { maxStringLen := 4, logMaxBufferCount := 1, lineEnd := 10, contextLogPath := some [0x6C] }

/-- What it is converted to. -/
def shortConfig : LoggerConfig :=
  { maxStringLen := 4, logMaxBufferCount := 1, lineEnd := '\n', contextLogPath := ['l'] }

/-- The programs, and the logger they run on. -/
def twoTodo : Bool → List Call := fun t =>
  (twoThreads t).filterMap (LogCall.toCall (Scenario.start .default fun _ : Unit => []))

theorem logged_lines_twoThreads :
    ∃ (s : Sys (Disk Scenario.resolve) BufWriter Bool) (as : List (Action Bool)),
      run step (Scenario.start shortConfig twoTodo) as = some s ∧
      AtRest step Action.Genuine s ∧
      ∃ order : List ((Bool × LogCall) × List Shown),
        (∀ t, ((order.filter fun e => e.1.1 = t).map fun e => e.1.2) = twoThreads t) ∧
        (∀ e ∈ order, e.1.2.Lines e.2) ∧
        ∃ file, s.world.read Scenario.logPath = some file ∧
          readFile file = (order.flatMap Prod.snd).map some := by
  have hconfig : convertedConfig ⟨64, 136⟩ (some shortFfi) = some shortConfig := rfl
  have hcapacity : ¬ CapacityOverflows ⟨64, 136⟩ shortConfig := by decide
  have hinit : paper2InitLoggerFfi ⟨64, 136⟩ none (some shortFfi) (some Scenario.logPath.utf8)
      Scenario.disk twoTodo = some (.ok true, some (Scenario.start shortConfig twoTodo)) :=
    paper2InitLoggerFfi_disk hconfig hcapacity Scenario.logPath Scenario.disk twoTodo
  obtain ⟨as, s, has, hrun, hrest⟩ := exists_run_to_rest
    (boot_disk Scenario.disk shortConfig Scenario.logPath twoTodo) (run_nil _)
  have htodo : ∀ t, twoTodo t =
      (twoThreads t).filterMap (LogCall.toCall (Scenario.start shortConfig twoTodo)) := fun t =>
    congrArg (fun toCall => (twoThreads t).filterMap toCall) (LogCall.toCall_eq _ _)
  exact ⟨s, as, hrun, hrest, logged_lines hconfig (by decide) proper_twoThreads htodo hinit
    (fun a ha => (has a ha).2) hrun hrest⟩

end Sys

end Paperlog
