import Paperlog.Properties.OnDisk
import Paperlog.Properties.PanicSafety

/-!
# What panics leave on the disk

The panic hook does not use the queue: it writes its two records itself, on the thread that panics,
while everything else goes on.  `events` collects what a run does to the files and which panics it
has had.

* `panics_reported`: in every state of every run, panics or not, the global file with what is still
  buffered consists of whole lines, those of the records of the batches and of the hooks in the order
  of their write sections; and a thread whose hook has returned has the record of its panic and then
  the one of the backtrace among them.
* `panicked_unflushed`: nobody but the logging thread flushes.  Once that thread has panicked, the
  file on the disk stays as it is until a buffer of 8 KiB is full, so its own report is usually not
  there when the process ends.

Both are about a disk that never fails and a logger with no context over the global file, which
`add_context` would cut to nothing.
-/

namespace Paperlog

namespace BufWriter

variable {w w₁ w₂ : BufWriter} {bytes bytes' : Bytes}

/-- `w` has been given `bytes`, and they are in its buffer. -/
structure Buffered (w : BufWriter) (bytes : Bytes) (w' : BufWriter) : Prop where
  inner : w'.inner = w.inner
  buf : w'.buf = w.buf ++ bytes

namespace Buffered

theorem refl (w : BufWriter) : Buffered w [] w := ⟨rfl, (List.append_nil _).symm⟩

theorem trans (h : Buffered w bytes w₁) (h' : Buffered w₁ bytes' w₂) :
    Buffered w (bytes ++ bytes') w₂ :=
  ⟨h'.inner.trans h.inner, by rw [h'.buf, h.buf, List.append_assoc]⟩

theorem length_buf (h : Buffered w bytes w₁) : w₁.buf.length = w.buf.length + bytes.length := by
  rw [h.buf, List.length_append]

end Buffered

/-- What fits into the buffer stays there. -/
theorem writeFmt_of_room {resolve : PathBuf → Place} (disk : Disk resolve) {pieces : List Str}
    (h : w.buf.length + (pieces.flatMap Str.utf8).length < capacity) :
    ∃ w', writeFmt pieces (disk, w) = .ok () (disk, w') ∧
      Buffered w (pieces.flatMap Str.utf8) w' := by
  induction pieces generalizing w with
  | nil => exact ⟨w, rfl, .refl w⟩
  | cons piece pieces ih =>
      rw [List.flatMap_cons, List.length_append] at h
      have hfirst : Buffered w piece.utf8 { w with buf := w.buf ++ piece.utf8 } := ⟨rfl, rfl⟩
      have hwrite : w.writeAll disk piece.utf8 = (disk, { w with buf := w.buf ++ piece.utf8 }) := by
        rw [writeAll, if_pos (by omega)]
      obtain ⟨w', hrun, hrest⟩ := ih (w := { w with buf := w.buf ++ piece.utf8 })
        (by rw [hfirst.length_buf]; omega)
      refine ⟨w', ?_, hfirst.trans hrest⟩
      rw [writeFmt_cons, hwrite, hrun]

end BufWriter

namespace ContextFile

open LoggerThreadCtx BufWriter

variable {resolve : PathBuf → Place} {disk disk' : Disk resolve}
  {ctx ctx' : LoggerThreadCtx BufWriter}

theorem buffered_fileDoLog {log : LogData}
    (hroom : ctx.globalFile.buf.length + log.ioLine.length < capacity)
    (h : fileDoLog log (disk, ctx) = .ok () (disk', ctx')) :
    Buffered ctx.globalFile log.ioLine ctx'.globalFile := by
  obtain ⟨w', hwrite, hbuffered⟩ := writeFmt_of_room disk hroom
  have hhead : onGlobalFile (writeFmt log.ioPieces) (disk, ctx) =
      .ok () (disk, { ctx with globalFile := w' }) := onGlobalFile_ok hwrite
  have hcontext : ∀ tag (s s' : Disk resolve × LoggerThreadCtx BufWriter),
      onContextFile tag log.writeCompactToIo s = .ok () s' → s'.2.globalFile = s.2.globalFile := by
    intro tag s s' hs
    simp only [onContextFile] at hs
    split at hs
    · cases hs
      rfl
    · split at hs
      · cases hs
        rfl
      · cases hs
  simp only [fileDoLog, LogData.writeToIo, bind, EStateM.bind, hhead] at h
  cases htag : log.tag with
  | none =>
      rw [htag] at h
      cases h
      exact hbuffered
  | some tag =>
      rw [htag] at h
      rw [hcontext tag _ _ h]
      exact hbuffered

theorem buffered_doLogBatch {logs : List LogData}
    (hroom : ctx.globalFile.buf.length + (logs.flatMap LogData.ioLine).length < capacity)
    (h : doLogBatch logs (disk, ctx) = .ok () (disk', ctx')) :
    Buffered ctx.globalFile (logs.flatMap LogData.ioLine) ctx'.globalFile := by
  induction logs generalizing disk ctx with
  | nil =>
      cases h
      exact .refl _
  | cons log logs ih =>
      rw [List.flatMap_cons, List.length_append] at hroom
      obtain ⟨disk₁, ctx₁, hrun, -⟩ := fileDoLog_disk log disk ctx
      rw [doLogBatch_cons] at h
      simp only [bind, EStateM.bind, hrun] at h
      have hfirst := buffered_fileDoLog (by omega) hrun
      exact hfirst.trans (ih (by rw [hfirst.length_buf]; omega) h)

/-- The records an operation writes. -/
def FileOp.records : FileOp → List LogData
  | .doLogBatch logs => logs
  | _ => []

/-- What the global writer has been given grows by the lines of the records. -/
theorem contents_applyOp (s : Disk resolve × LoggerThreadCtx BufWriter) (op : FileOp) :
    (applyOp s op).2.globalFile.contents =
      s.2.globalFile.contents ++ op.records.flatMap LogData.ioLine := by
  obtain ⟨disk, ctx⟩ := s
  cases op with
  | addContext tag =>
      simp only [applyOp, addContext_disk, FileOp.records, List.flatMap_nil, List.append_nil]
  | removeContext tag =>
      simp only [applyOp, FileOp.records, List.flatMap_nil, List.append_nil]
      rfl
  | doLogBatch logs =>
      obtain ⟨disk', ctx', hrun, hlogs⟩ := doLogBatch_disk logs disk ctx
      simp only [applyOp, hrun, FileOp.records]
      exact hlogs.globalFile_contents
  | flush =>
      simp only [applyOp, flushFiles_disk, FileOp.records, List.flatMap_nil]
      exact (flushBuf_appended disk ctx.globalFile).contents

/-- As long as there is room and nobody flushes, they stay in the buffer. -/
theorem buffered_applyOp {s : Disk resolve × LoggerThreadCtx BufWriter} {op : FileOp}
    (hop : op ≠ .flush)
    (hroom : s.2.globalFile.buf.length + (op.records.flatMap LogData.ioLine).length < capacity) :
    Buffered s.2.globalFile (op.records.flatMap LogData.ioLine) (applyOp s op).2.globalFile := by
  obtain ⟨disk, ctx⟩ := s
  cases op with
  | addContext tag =>
      simp only [applyOp, addContext_disk]
      exact .refl _
  | removeContext tag => exact .refl _
  | doLogBatch logs =>
      obtain ⟨disk', ctx', hrun, -⟩ := doLogBatch_disk logs disk ctx
      simp only [applyOp, hrun]
      exact buffered_doLogBatch hroom hrun
  | flush => exact absurd rfl hop

end ContextFile

namespace PanicSys

open Transition ContextFile
open Sys (Owned Apart Asked applyOps)

variable {Tid : Type} [DecidableEq Tid]

/-! ## What a step does -/

/-- A panic, an operation of the program on the files, or a record that a hook writes. -/
inductive Event (Tid : Type)
  | panicked (p : Party Tid) (info : PanicHookInfo) (backtrace : Str) (now : DateTime)
  | performed (b : Party Tid × FileOp)
  | logged (p : Party Tid) (log : LogData)

namespace Event

/-- What the event does to the files. -/
def fileOps : Event Tid → List (Party Tid × FileOp)
  | .panicked _ _ _ _ => []
  | .performed b => [b]
  | .logged p log => [(p, .doLogBatch [log])]

/-- The records it writes. -/
def records (e : Event Tid) : List LogData := e.fileOps.flatMap fun b => b.2.records

/-- Whether it is a panic of `p`. -/
def panicsOf (p : Party Tid) : Event Tid → List (PanicHookInfo × Str × DateTime)
  | .panicked q info backtrace now => if q = p then [(info, backtrace, now)] else []
  | _ => []

/-- Whether the hook on `p` writes a record. -/
def loggedBy (p : Party Tid) : Event Tid → List LogData
  | .logged q log => if q = p then [log] else []
  | _ => []

end Event

/-- The record that the next step of a hook writes. -/
def hookEvents (p : Party Tid) : HookPc → List (Event Tid)
  | .write .held log _ => [.logged p log]
  | _ => []

section Generic

variable {W ω : Type} [FileIo W ω] {c c' : PanicSys W ω Tid}

/-- The panic of a step of the program, if it ends in one. -/
def programPanic (c : PanicSys W ω Tid) (a : Action Tid) (info : PanicHookInfo) (backtrace : Str)
    (now : DateTime) : List (Event Tid) :=
  match c.sys.step a with
  | some sys => if Panicked a sys then [.panicked .logThread info backtrace now] else []
  | none => []

/-- What one step does, and who. -/
def events (c : PanicSys W ω Tid) : PanicAction Tid → List (Event Tid)
  | .program a info backtrace now =>
      if c.hooks a.actor = none then
        programPanic c a info backtrace now ++ (c.sys.fileOps a).map .performed
      else []
  | .panic p info backtrace now => [.panicked p info backtrace now]
  | .hook p _ _ =>
      match c.hooks p with
      | some pc => hookEvents p pc
      | none => []

/-- The files after some events. -/
def applyEvents (o : W × LoggerThreadCtx ω) (es : List (Event Tid)) : W × LoggerThreadCtx ω :=
  applyOps o (es.flatMap Event.fileOps)

theorem fileOps_programPanic (a : Action Tid) (info : PanicHookInfo) (backtrace : Str)
    (now : DateTime) : (programPanic c a info backtrace now).flatMap Event.fileOps = [] := by
  rw [List.flatMap_eq_nil_iff]
  intro e he
  unfold programPanic at he
  split at he
  · split at he
    · rw [List.mem_singleton.1 he]
      rfl
    · exact absurd he List.not_mem_nil
  · exact absurd he List.not_mem_nil

theorem fileOps_program {a : Action Tid} (h : c.hooks a.actor = none) (info : PanicHookInfo)
    (backtrace : Str) (now : DateTime) :
    (events c (.program a info backtrace now)).flatMap Event.fileOps = c.sys.fileOps a := by
  simp only [events, if_pos h, List.flatMap_append, fileOps_programPanic, List.nil_append,
    List.flatMap_map, Event.fileOps, List.flatMap_singleton']

theorem files_hookStep {s s' : Sys W ω Tid} {p : Party Tid} {pc pc' : HookPc}
    {result : Except LoggerError Unit} {now : DateTime}
    (h : s.HookStep p result now pc s' pc') :
    applyEvents s.files (hookEvents p pc) = s'.files := by
  cases h with
  | wrote hio =>
      rw [← doLogBatch_singleton] at hio
      exact Sys.files_of_op (by simp only [applyOp, hio])
  | writeFailed hio =>
      rw [← doLogBatch_singleton] at hio
      exact Sys.files_of_op (by simp only [applyOp, hio])
  | _ => rfl

/-- **Each step does to the files what its events do.** -/
theorem files_step {a : PanicAction Tid} (hstep : Step c c' a) :
    applyEvents c.sys.files (events c a) = c'.sys.files := by
  cases hstep with
  | program hrun hsys hfine hhooks =>
      rw [applyEvents, fileOps_program hrun]
      exact Sys.files_step hsys
  | programPanics hrun hsys hpanic hhooks =>
      rw [applyEvents, fileOps_program hrun]
      exact Sys.files_step hsys
  | panic hrun hruns hsys hhooks =>
      rw [hsys]
      rfl
  | hook hpc hhook hhooks =>
      simp only [events, hpc]
      exact files_hookStep hhook

theorem files_run {as : List (PanicAction Tid)} (hrun : run step c as = some c') :
    applyEvents c.sys.files (trace step events c as) = c'.sys.files := by
  have hstep : ∀ (r : PanicSys W ω Tid) (a : PanicAction Tid) (r' : PanicSys W ω Tid),
      step r a = some r' →
      (events r a).foldl (fun o e => applyOps o e.fileOps) r.sys.files = r'.sys.files := by
    intro r a r' h
    rw [← files_step (step_sound h), applyEvents, applyOps, List.foldl_flatMap]
    rfl
  have hfold := foldl_trace hstep hrun
  rw [← hfold, applyEvents, applyOps, List.foldl_flatMap]
  rfl

end Generic

/-! ## What a hook has reported -/

/-- The panics of a thread so far, the records its hook has written, and where it is in the hook. -/
inductive Trail : List (PanicHookInfo × Str × DateTime) → List LogData → Option HookPc → Prop
  | running : Trail [] [] none
  | panic (info : PanicHookInfo) (backtrace : Str) (now : DateTime) (phase : WritePhase) :
      Trail [(info, backtrace, now)] []
        (some (.write phase (panicRecord info now) (some backtrace)))
  | panicRead (info : PanicHookInfo) (backtrace : Str) (now : DateTime) :
      Trail [(info, backtrace, now)] [panicRecord info now]
        (some (.wantRead (panicRecord info now) (some backtrace)))
  | panicSinks (info : PanicHookInfo) (backtrace : Str) (now : DateTime) (i : ℕ) :
      Trail [(info, backtrace, now)] [panicRecord info now]
        (some (.sinks i (panicRecord info now) (some backtrace)))
  | backtrace (info : PanicHookInfo) (backtrace : Str) (now now' : DateTime) (phase : WritePhase) :
      Trail [(info, backtrace, now)] [panicRecord info now]
        (some (.write phase (backtraceRecord backtrace now') none))
  | backtraceRead (info : PanicHookInfo) (backtrace : Str) (now now' : DateTime) :
      Trail [(info, backtrace, now)] [panicRecord info now, backtraceRecord backtrace now']
        (some (.wantRead (backtraceRecord backtrace now') none))
  | backtraceSinks (info : PanicHookInfo) (backtrace : Str) (now now' : DateTime) (i : ℕ) :
      Trail [(info, backtrace, now)] [panicRecord info now, backtraceRecord backtrace now']
        (some (.sinks i (backtraceRecord backtrace now') none))
  | unwind (info : PanicHookInfo) (backtrace : Str) (now now' : DateTime) :
      Trail [(info, backtrace, now)] [panicRecord info now, backtraceRecord backtrace now']
        (some .unwind)
  | ended (info : PanicHookInfo) (backtrace : Str) (now now' : DateTime) :
      Trail [(info, backtrace, now)] [panicRecord info now, backtraceRecord backtrace now']
        (some .ended)

theorem Trail.of_none {panics : List (PanicHookInfo × Str × DateTime)} {logs : List LogData}
    (h : Trail panics logs none) : panics = [] ∧ logs = [] := by
  cases h
  exact ⟨rfl, rfl⟩

section Disk

variable {resolve : PathBuf → Place} {c c' : PanicSys (Disk resolve) BufWriter Tid}
  {p : Party Tid}

/-- One step of the hook, on a disk that does not fail; the sinks may. -/
theorem Trail.hookStep {s s' : Sys (Disk resolve) BufWriter Tid} {pc pc' : HookPc}
    {panics : List (PanicHookInfo × Str × DateTime)} {logs : List LogData}
    {result : Except LoggerError Unit} {now : DateTime} (h : Trail panics logs (some pc))
    (hstep : s.HookStep p result now pc s' pc') :
    Trail panics (logs ++ (hookEvents p pc).flatMap (Event.loggedBy p)) (some pc') := by
  have hlogged : ∀ log, ([Event.logged p log] : List (Event Tid)).flatMap (Event.loggedBy p) =
      [log] := by
    intro log
    simp [Event.loggedBy]
  cases hstep with
  | request log backtrace =>
      cases h with
      | panic info backtrace now => exact .panic info backtrace now _
      | backtrace info backtrace now now' => exact .backtrace info backtrace now now' _
  | grant hlock =>
      cases h with
      | panic info backtrace now => exact .panic info backtrace now _
      | backtrace info backtrace now now' => exact .backtrace info backtrace now now' _
  | wrote hio =>
      rw [hookEvents, hlogged]
      cases h with
      | panic info backtrace now => exact .panicRead info backtrace now
      | backtrace info backtrace now now' => exact .backtraceRead info backtrace now now'
  | writeFailed hio => exact absurd hio (LoggerThreadCtx.fileDoLog_ne_error _ _ _)
  | enter hlock =>
      cases h with
      | panicRead info backtrace now => exact .panicSinks info backtrace now 0
      | backtraceRead info backtrace now now' => exact .backtraceSinks info backtrace now now' 0
  | sink hi hresult =>
      cases h with
      | panicSinks info backtrace now => exact .panicSinks info backtrace now _
      | backtraceSinks info backtrace now now' => exact .backtraceSinks info backtrace now now' _
  | sinkFailed hi hresult =>
      cases h with
      | panicSinks info backtrace now i => exact .backtrace info backtrace now _ .request
      | backtraceSinks info backtrace now now' i => exact .unwind info backtrace now now'
  | sinksDone hi =>
      cases h with
      | panicSinks info backtrace now i => exact .backtrace info backtrace now _ .request
      | backtraceSinks info backtrace now now' i => exact .unwind info backtrace now now'
  | unwind =>
      cases h with
      | unwind info backtrace now now' => exact .ended info backtrace now now'

/-- Every thread is where its panics and its records say. -/
def Trails (es : List (Event Tid)) (c : PanicSys (Disk resolve) BufWriter Tid) : Prop :=
  ∀ p, Trail (es.flatMap (Event.panicsOf p)) (es.flatMap (Event.loggedBy p)) (c.hooks p)

/-- Operations of the program are no panics and no reports. -/
theorem performed_quiet (p : Party Tid) (ops : List (Party Tid × FileOp)) :
    (ops.map Event.performed).flatMap (Event.panicsOf p) = [] ∧
      (ops.map Event.performed).flatMap (Event.loggedBy p) = [] := by
  constructor <;> simp [List.flatMap_map, Event.panicsOf, Event.loggedBy]

theorem trails_step {es : List (Event Tid)} {a : PanicAction Tid} (h : Trails es c)
    (hstep : Step c c' a) : Trails (es ++ events c a) c' := by
  intro q
  have hq := h q
  rw [List.flatMap_append, List.flatMap_append]
  cases hstep with
  | @program a info backtrace now hrun hsys hfine hhooks =>
      obtain ⟨hpanics, hlogs⟩ := performed_quiet q (c.sys.fileOps a)
      rw [hhooks]
      simpa only [events, if_pos hrun, programPanic, hsys, if_neg hfine, List.nil_append, hpanics,
        hlogs, List.append_nil] using hq
  | @programPanics a info backtrace now hrun hsys hpanic hhooks =>
      obtain ⟨hpanics, hlogs⟩ := performed_quiet q (c.sys.fileOps a)
      simp only [events, if_pos hrun, programPanic, hsys, if_pos hpanic, List.flatMap_append,
        hpanics, hlogs, List.append_nil, List.flatMap_singleton, Event.loggedBy]
      rw [hhooks]
      by_cases hself : q = .logThread
      · subst hself
        rw [hpanic.1] at hrun
        rw [hrun] at hq
        rw [Function.update_self]
        obtain ⟨hnoPanics, hnoLogs⟩ := hq.of_none
        rw [hnoPanics, hnoLogs]
        simpa only [Event.panicsOf, if_true, List.nil_append] using Trail.panic info backtrace now .request
      · have hother : ¬ (.logThread : Party Tid) = q := fun heq => hself heq.symm
        rw [Function.update_of_ne hself]
        simpa only [Event.panicsOf, if_neg hother, List.append_nil] using hq
  | @panic p info backtrace now hrun hruns hsys hhooks =>
      simp only [events, List.flatMap_singleton, Event.loggedBy, List.append_nil]
      rw [hhooks]
      by_cases hself : q = p
      · subst hself
        rw [hrun] at hq
        rw [Function.update_self]
        obtain ⟨hnoPanics, hnoLogs⟩ := hq.of_none
        rw [hnoPanics, hnoLogs]
        simpa only [Event.panicsOf, if_true, List.nil_append] using Trail.panic info backtrace now .await
      · have hother : ¬ p = q := fun heq => hself heq.symm
        rw [Function.update_of_ne hself]
        simpa only [Event.panicsOf, if_neg hother, List.append_nil] using hq
  | @hook p result now pc pc' hpc hhook hhooks =>
      have hpanics : ∀ q, (hookEvents p pc).flatMap (Event.panicsOf q) = [] := by
        intro q
        unfold hookEvents
        split <;> rfl
      simp only [events, hpc, hpanics, List.append_nil]
      rw [hhooks]
      by_cases hself : q = p
      · subst hself
        rw [Function.update_self]
        rw [hpc] at hq
        exact hq.hookStep hhook
      · have hlogs : (hookEvents p pc).flatMap (Event.loggedBy q) = [] := by
          have hother : ¬ p = q := fun heq => hself heq.symm
          unfold hookEvents
          split
          · simp [Event.loggedBy, hother]
          · rfl
        rw [Function.update_of_ne hself, hlogs, List.append_nil]
        exact hq

/-! ## Whole runs -/

variable {disk : Disk resolve} {config : LoggerConfig} {logPath : PathBuf} {todo : Tid → List Call}
  {s₀ : Sys (Disk resolve) BufWriter Tid} {as bs : List (PanicAction Tid)}

/-- What the panics leave alone: the programs of the callers, and the global file with its
writer. -/
structure Undamaged (config : LoggerConfig) (logPath : PathBuf) (todo : Tid → List Call)
    (c : PanicSys (Disk resolve) BufWriter Tid) : Prop where
  asked : Asked todo c.sys
  owned : Owned config logPath c.sys.files

theorem callers_hookStep {s s' : Sys (Disk resolve) BufWriter Tid} {pc pc' : HookPc}
    {result : Except LoggerError Unit} {now : DateTime} (h : s.HookStep p result now pc s' pc') :
    s'.callers = s.callers := by
  cases h <;> rfl

omit [DecidableEq Tid] in
theorem asked_of_callers {s s' : Sys (Disk resolve) BufWriter Tid} (h : Asked todo s)
    (hcallers : s'.callers = s.callers) : Asked todo s' := by
  unfold Asked
  rw [hcallers]
  exact h

theorem undamaged_step {a : PanicAction Tid} (hapart : Apart resolve config logPath todo)
    (h : Undamaged config logPath todo c) (hstep : Step c c' a) :
    Undamaged config logPath todo c' := by
  have hasked : Asked todo c'.sys := by
    cases hstep with
    | program hrun hsys hfine hhooks => exact Sys.asked_step h.asked hsys
    | programPanics hrun hsys hpanic hhooks => exact Sys.asked_step h.asked hsys
    | panic hrun hruns hsys hhooks => exact asked_of_callers h.asked (by rw [hsys])
    | hook hpc hhook hhooks => exact asked_of_callers h.asked (callers_hookStep hhook)
  refine ⟨hasked, ?_⟩
  rw [← files_step hstep, applyEvents]
  refine Sys.owned_applyOps h.owned fun b hb tag hop => ?_
  cases a with
  | program a info backtrace now =>
      have hrun : c.hooks a.actor = none := by
        cases hstep with
        | program hrun hsys hfine hhooks => exact hrun
        | programPanics hrun hsys hpanic hhooks => exact hrun
      rw [fileOps_program hrun] at hb
      obtain ⟨t, time, hcall⟩ := h.asked.registered hb hop
      exact hapart t tag time hcall
  | panic p info backtrace now => exact absurd hb List.not_mem_nil
  | hook p result now =>
      simp only [events, hookEvents] at hb
      split at hb
      · split at hb
        · rw [List.mem_singleton.1 hb] at hop
          cases hop
        · exact absurd hb List.not_mem_nil
      · exact absurd hb List.not_mem_nil

theorem undamaged_run (hapart : Apart resolve config logPath todo)
    (hboot : Sys.boot disk config logPath todo = .ok s₀)
    (hrun : run step (installed s₀) as = some c) : Undamaged config logPath todo c := by
  have hkeep : ∀ (r : PanicSys (Disk resolve) BufWriter Tid) (a : PanicAction Tid)
      (r' : PanicSys (Disk resolve) BufWriter Tid), Undamaged config logPath todo r →
      step r a = some r' → Undamaged config logPath todo r' :=
    fun _ _ _ h hstep => undamaged_step hapart h (step_sound hstep)
  exact run_invariant hkeep ⟨Sys.asked_boot hboot, Sys.owned_boot hboot⟩ hrun

/-- The records that a run writes, by batches and by hooks, in order. -/
def recordsOf (c : PanicSys (Disk resolve) BufWriter Tid) (as : List (PanicAction Tid)) :
    List LogData :=
  (trace step events c as).flatMap Event.records

omit [DecidableEq Tid] in
theorem contents_applyOps (o : Disk resolve × LoggerThreadCtx BufWriter)
    (ops : List (Party Tid × FileOp)) :
    (applyOps o ops).2.globalFile.contents =
      o.2.globalFile.contents ++ (ops.flatMap fun b => b.2.records).flatMap LogData.ioLine := by
  induction ops generalizing o with
  | nil => simp [applyOps]
  | cons b ops ih =>
      have hrest := ih (applyOp o b.2)
      rw [contents_applyOp] at hrest
      rw [List.flatMap_cons, List.flatMap_append, ← List.append_assoc]
      exact hrest

theorem records_fileOps (c : PanicSys (Disk resolve) BufWriter Tid) (as : List (PanicAction Tid)) :
    ((trace step events c as).flatMap Event.fileOps).flatMap (fun b => b.2.records) =
      recordsOf c as := by
  rw [List.flatMap_assoc]
  rfl

/-- What a run hands to the global writer. -/
theorem contents_run (hrun : run step c as = some c') :
    c'.sys.ctx.globalFile.contents =
      c.sys.ctx.globalFile.contents ++ (recordsOf c as).flatMap LogData.ioLine := by
  have hcontents := contents_applyOps c.sys.files
    ((trace step events c as).flatMap Event.fileOps)
  have hfiles := files_run hrun
  rw [applyEvents] at hfiles
  rw [hfiles, records_fileOps] at hcontents
  exact hcontents

/-- What a hook reports is among the records. -/
theorem loggedBy_sublist (p : Party Tid) (es : List (Event Tid)) :
    (es.flatMap (Event.loggedBy p)).Sublist (es.flatMap Event.records) := by
  induction es with
  | nil => exact List.Sublist.refl _
  | cons e es ih =>
      rw [List.flatMap_cons, List.flatMap_cons]
      refine List.Sublist.append ?_ ih
      cases e with
      | panicked q info backtrace now => exact List.nil_sublist _
      | performed b => exact List.nil_sublist _
      | logged q log =>
          simp only [Event.loggedBy, Event.records, Event.fileOps, FileOp.records,
            List.flatMap_singleton]
          split
          · exact List.Sublist.refl _
          · exact List.nil_sublist _

theorem mem_of_panicsOf {es : List (Event Tid)} {info : PanicHookInfo} {backtrace : Str}
    {now : DateTime} (h : (info, backtrace, now) ∈ es.flatMap (Event.panicsOf p)) :
    .panicked p info backtrace now ∈ es := by
  obtain ⟨e, he, hmem⟩ := List.mem_flatMap.1 h
  cases e with
  | panicked q info' backtrace' now' =>
      simp only [Event.panicsOf] at hmem
      split at hmem
      · rename_i hq
        subst hq
        cases List.mem_singleton.1 hmem
        exact he
      · exact absurd hmem List.not_mem_nil
  | performed b => exact absurd hmem List.not_mem_nil
  | logged q log => exact absurd hmem List.not_mem_nil

/-- **Panics are reported, in whole lines.**  On a disk that never fails and with no context whose path
leads to the global file, in every state of every run of a logger with its hook installed, whatever
threads panic and whatever the sinks answer, the global file together with what is buffered consists
of the lines of the records written, in the order of the write sections.  A thread whose hook has
returned has panicked, and the record of that panic and then the one of its backtrace are among
them. -/
theorem panics_reported (hapart : Apart resolve config logPath todo)
    (hboot : Sys.boot disk config logPath todo = .ok s₀)
    (hrun : run step (installed s₀) as = some c) :
    (∃ content, c.sys.world.read logPath = some content ∧
      content ++ c.sys.ctx.globalFile.buf =
        (recordsOf (installed s₀) as).flatMap LogData.ioLine) ∧
    ∀ p, c.hooks p = some .unwind ∨ c.hooks p = some .ended →
      ∃ info backtrace now now',
        .panicked p info backtrace now ∈ trace step events (installed s₀) as ∧
        [panicRecord info now, backtraceRecord backtrace now'].Sublist
          (recordsOf (installed s₀) as) := by
  constructor
  · refine ⟨_, (undamaged_run hapart hboot hrun).owned.1.file_eq, ?_⟩
    have hcontents := contents_run hrun
    rw [Sys.boot_disk] at hboot
    obtain rfl := Except.ok.inj hboot
    exact hcontents
  · intro p hp
    have htrails : Trails ([] ++ trace step events (installed s₀) as) c :=
      trace_invariant (fun _ _ _ _ h hstep => trails_step h (step_sound hstep))
        (fun _ => .running) hrun
    rw [List.nil_append] at htrails
    have htrail := htrails p
    have hsublist := loggedBy_sublist p (trace step events (installed s₀) as)
    have hreported : ∀ {panics logs}, Trail panics logs (c.hooks p) → ∃ info backtrace now now',
        panics = [(info, backtrace, now)] ∧
        logs = [panicRecord info now, backtraceRecord backtrace now'] := by
      intro panics logs h
      rcases hp with hp | hp
      · rw [hp] at h
        cases h with
        | unwind info backtrace now now' => exact ⟨info, backtrace, now, now', rfl, rfl⟩
      · rw [hp] at h
        cases h with
        | ended info backtrace now now' => exact ⟨info, backtrace, now, now', rfl, rfl⟩
    obtain ⟨info, backtrace, now, now', hpanics, hlogs⟩ := hreported htrail
    refine ⟨info, backtrace, now, now', mem_of_panicsOf ?_, ?_⟩
    · rw [hpanics]
      exact List.mem_singleton_self _
    · rw [hlogs] at hsublist
      exact hsublist

/-! ## Without the logging thread nobody flushes -/

omit [DecidableEq Tid] in
theorem buffered_applyOps {o : Disk resolve × LoggerThreadCtx BufWriter}
    {ops : List (Party Tid × FileOp)} (hflush : ∀ b ∈ ops, b.2 ≠ .flush)
    (hroom : o.2.globalFile.buf.length +
      ((ops.flatMap fun b => b.2.records).flatMap LogData.ioLine).length < BufWriter.capacity) :
    BufWriter.Buffered o.2.globalFile
      ((ops.flatMap fun b => b.2.records).flatMap LogData.ioLine)
      (applyOps o ops).2.globalFile := by
  induction ops generalizing o with
  | nil => exact .refl _
  | cons b ops ih =>
      rw [List.flatMap_cons, List.flatMap_append] at hroom ⊢
      rw [List.length_append] at hroom
      have hfirst := buffered_applyOp (hflush b List.mem_cons_self) (s := o) (by omega)
      exact hfirst.trans (ih (fun b hb => hflush b (List.mem_cons_of_mem _ hb))
        (by rw [hfirst.length_buf]; omega))

/-- Once the logging thread is in its hook it makes no step of the program any more. -/
theorem hooked_step {a : PanicAction Tid} (h : c.hooks p ≠ none) (hstep : Step c c' a) :
    c'.hooks p ≠ none := by
  cases hstep with
  | program hrun hsys hfine hhooks => rwa [hhooks]
  | programPanics hrun hsys hpanic hhooks =>
      rw [hhooks]
      by_cases hp : p = .logThread
      · subst hp
        simp
      · rwa [Function.update_of_ne hp]
  | @panic q info backtrace now hrun hruns hsys hhooks =>
      rw [hhooks]
      by_cases hp : p = q
      · subst hp
        simp
      · rwa [Function.update_of_ne hp]
  | @hook q result now pc pc' hpc hhook hhooks =>
      rw [hhooks]
      by_cases hp : p = q
      · subst hp
        simp
      · rwa [Function.update_of_ne hp]

/-- So nobody flushes. -/
theorem not_flush_of_hooked {a : PanicAction Tid} (h : c.hooks .logThread ≠ none) :
    ∀ e ∈ events c a, ∀ b ∈ e.fileOps, b.2 ≠ .flush := by
  intro e he b hb hflush
  have hmem : b ∈ (events c a).flatMap Event.fileOps := List.mem_flatMap.2 ⟨e, he, hb⟩
  cases a with
  | program a info backtrace now =>
      by_cases hrun : c.hooks a.actor = none
      · rw [fileOps_program hrun] at hmem
        cases a with
        | caller t =>
            obtain ⟨op, hop, rfl⟩ := List.mem_map.1 hmem
            cases hpc : (c.sys.callers t).pc with
            | write phase call =>
                rw [hpc] at hop
                cases phase with
                | held =>
                    have hop : FileOp.flush ∈ call.fileOps := hflush ▸ hop
                    cases call with
                    | registerContext tag now => cases List.mem_singleton.1 hop
                    | unregisterContext tag => cases List.mem_singleton.1 hop
                    | addSink => exact absurd hop List.not_mem_nil
                | _ => exact absurd hop List.not_mem_nil
            | _ =>
                rw [hpc] at hop
                exact absurd hop List.not_mem_nil
        | logThread result now => exact h hrun
        | spurious q => exact absurd hmem List.not_mem_nil
        | timeout t => exact absurd hmem List.not_mem_nil
      · rw [events, if_neg hrun] at he
        exact absurd he List.not_mem_nil
  | panic p info backtrace now => exact absurd hmem List.not_mem_nil
  | hook p result now =>
      simp only [events, hookEvents] at hmem
      split at hmem
      · split at hmem
        · rw [List.mem_singleton.1 hmem] at hflush
          cases hflush
        · exact absurd hmem List.not_mem_nil
      · exact absurd hmem List.not_mem_nil

/-- **Once the logging thread has panicked, nothing is flushed.**  On a disk that never fails and with
no context whose path leads to the global file, from a state in which that thread is in its hook or
through with it, in every run, the file on the disk stays what it is as long as what is buffered and
the lines written from then on are less than a buffer; they are all in the buffer, and a process that
ends there loses them. -/
theorem panicked_unflushed (hapart : Apart resolve config logPath todo)
    (hboot : Sys.boot disk config logPath todo = .ok s₀)
    (hrun : run step (installed s₀) as = some c) (hpanicked : c.hooks .logThread ≠ none)
    (hrest : run step c bs = some c')
    (hroom : c.sys.ctx.globalFile.buf.length +
      ((recordsOf c bs).flatMap LogData.ioLine).length < BufWriter.capacity) :
    c'.sys.world.read logPath = c.sys.world.read logPath ∧
      c'.sys.ctx.globalFile.buf =
        c.sys.ctx.globalFile.buf ++ (recordsOf c bs).flatMap LogData.ioLine := by
  have hwhole : run step (installed s₀) (as ++ bs) = some c' := by
    rw [run_append, hrun]
    exact hrest
  have hkeep : ∀ (r : PanicSys (Disk resolve) BufWriter Tid) (a : PanicAction Tid)
      (r' : PanicSys (Disk resolve) BufWriter Tid), r.hooks .logThread ≠ none → step r a = some r' →
      r'.hooks .logThread ≠ none := fun _ _ _ h hstep => hooked_step h (step_sound hstep)
  have hflush : ∀ b ∈ (trace step events c bs).flatMap Event.fileOps, b.2 ≠ .flush := by
    intro b hb
    obtain ⟨e, he, hb⟩ := List.mem_flatMap.1 hb
    exact forall_mem_trace hkeep (fun _ _ h => not_flush_of_hooked h) hpanicked e he b hb
  have hbuffered := buffered_applyOps (o := c.sys.files) hflush
    (by rw [records_fileOps]; exact hroom)
  have hfiles := files_run hrest
  rw [applyEvents] at hfiles
  rw [hfiles, records_fileOps] at hbuffered
  have hsame : c'.sys.ctx.globalFile.inner = c.sys.ctx.globalFile.inner := hbuffered.inner
  refine ⟨?_, hbuffered.buf⟩
  have hbefore : c.sys.world.read logPath = some c.sys.ctx.globalFile.inner.written :=
    (undamaged_run hapart hboot hrun).owned.1.file_eq
  have hafter : c'.sys.world.read logPath = some c'.sys.ctx.globalFile.inner.written :=
    (undamaged_run hapart hboot hwhole).owned.1.file_eq
  rw [hafter, hbefore, hsame]

end Disk

/-- The panic of the two runs. -/
def panicInfo : PanicHookInfo := ⟨.string "boom".toList, "src/main.rs".toList, 1, 2⟩

/-- The thread panics, and its hook runs to the end. -/
def panics (p : Party Unit) : List (PanicAction Unit) :=
  [.panic p panicInfo "bt".toList Scenario.time]

def hookRuns (p : Party Unit) : List (PanicAction Unit) :=
  List.replicate 10 (.hook p (.ok ()) Scenario.time)

theorem apart_logOnce : Sys.Apart Scenario.resolve .default Scenario.logPath Sys.logOnce := by
  intro t tag now hcall
  simp only [Sys.logOnce, List.mem_singleton, reduceCtorEq] at hcall

/-- A caller panics before it logs. -/
theorem panics_reported_logOnce :
    ∃ c, run step (installed (Scenario.start .default Sys.logOnce))
        (panics (.caller ()) ++ hookRuns (.caller ())) = some c ∧
      c.hooks (.caller ()) = some .ended ∧
      ∃ info backtrace now now',
        .panicked (.caller ()) info backtrace now ∈
          trace step events (installed (Scenario.start .default Sys.logOnce))
            (panics (.caller ()) ++ hookRuns (.caller ())) ∧
        [panicRecord info now, backtraceRecord backtrace now'].Sublist
          (recordsOf (installed (Scenario.start .default Sys.logOnce))
            (panics (.caller ()) ++ hookRuns (.caller ()))) := by
  have hend : (run step (installed (Scenario.start .default Sys.logOnce))
      (panics (.caller ()) ++ hookRuns (.caller ()))).map (fun c => c.hooks (.caller ())) =
      some (some .ended) := by
    decide +kernel
  obtain ⟨c, hrun, hended⟩ := Option.map_eq_some_iff.1 hend
  exact ⟨c, hrun, hended, (panics_reported apart_logOnce
    (Sys.boot_disk Scenario.disk .default Scenario.logPath Sys.logOnce) hrun).2 _ (.inr hended)⟩

/-- The logging thread panics; both its records are written, and the file is empty. -/
theorem panicked_unflushed_logOnce :
    ∃ c c', run step (installed (Scenario.start .default Sys.logOnce)) (panics .logThread) =
        some c ∧
      run step c (hookRuns .logThread) = some c' ∧ c'.hooks .logThread = some .ended ∧
      (recordsOf c (hookRuns .logThread)).length = 2 ∧
      c'.sys.world.read Scenario.logPath = some [] := by
  have hend : (run step (installed (Scenario.start .default Sys.logOnce)) (panics .logThread)).bind
      (fun c => (run step c (hookRuns .logThread)).map fun c' =>
        (c.hooks .logThread, c.sys.world.read Scenario.logPath,
          (recordsOf c (hookRuns .logThread)).length,
          decide (c.sys.ctx.globalFile.buf.length +
            ((recordsOf c (hookRuns .logThread)).flatMap LogData.ioLine).length <
              BufWriter.capacity), c'.hooks .logThread)) =
      some (some (.write .await (panicRecord panicInfo Scenario.time) (some "bt".toList)),
        some [], 2, true, some .ended) := by
    decide +kernel
  obtain ⟨c, hrun, hend⟩ := Option.bind_eq_some_iff.1 hend
  obtain ⟨c', hrest, hend⟩ := Option.map_eq_some_iff.1 hend
  simp only [Prod.mk.injEq, decide_eq_true_eq] at hend
  obtain ⟨hhook, hfile, hrecords, hroom, hended⟩ := hend
  have hpanicked : c.hooks .logThread ≠ none := by
    rw [hhook]
    exact Option.some_ne_none _
  have hresult := panicked_unflushed apart_logOnce
    (Sys.boot_disk Scenario.disk .default Scenario.logPath Sys.logOnce) hrun hpanicked hrest hroom
  exact ⟨c, c', hrun, hrest, hended, hrecords, hresult.1.trans hfile⟩

end PanicSys

end Paperlog
