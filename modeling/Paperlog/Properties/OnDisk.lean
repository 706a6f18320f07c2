import Paperlog.Properties.ContextFile
import Paperlog.Properties.FlushWait
import Paperlog.Properties.Linearization
import Paperlog.Properties.ReadBack
import Paperlog.Properties.Rest
import Paperlog.Properties.SinkStream

/-!
# What is on the disk while the threads run

The global file of a running logger is written by its own writer alone, as long as no context is
registered whose file is the global file (`OwnFile`).  Then the disk holds exactly the bytes that
writer has pushed out, in every state of every interleaving.  Two results are read off it.

* `crash_leaves_prefix`: a process that dies loses what its writers still buffer and nothing else;
  what it leaves in the global file is a prefix of the lines of everything pushed, and contains the
  lines of all entries counted as flushed; read back line by line, it gives these records.
* `delivered_atRest`: where no thread can take a step any more, nothing is left anywhere: the
  programs are through, the queue is empty, nothing is buffered, the global file on the disk consists
  of the lines of everything that has been pushed, and the sinks have it, too.  `delivers` adds that
  every run of finitely many threads can be completed to such a state.

The second does not hold where threads wait for flushes (`stranded_iff`, `deadlockFree_iff`), and
neither where `max_string_len` is zero, where a sink refuses or makes calls of its own, or where the
file system or logcat fails.
-/

namespace Paperlog

namespace ContextFile

open LoggerThreadCtx BufWriter

variable {resolve : PathBuf → Place}

/-! ## The file of the global writer -/

/-- The file at `place` is what the global writer has put there, and no other writer has it. -/
structure OwnFile (place : Place) (s : Disk resolve × LoggerThreadCtx BufWriter) : Prop where
  global_place : s.2.globalFile.inner.place = place
  backed : Backed s.1 s.2.globalFile []
  others : ∀ entry ∈ s.2.contextMap, entry.2.inner.place ≠ place

namespace OwnFile

variable {place : Place} {disk disk' : Disk resolve} {ctx ctx' : LoggerThreadCtx BufWriter}

theorem file_eq (h : OwnFile place (disk, ctx)) :
    disk.files place = some ctx.globalFile.inner.written := by
  have hbacked := h.backed
  rw [Backed, h.global_place] at hbacked
  simpa using hbacked

/-- What leaves the global writer and its file alone. -/
theorem frame (h : OwnFile place (disk, ctx)) {contextMap : List (Str × BufWriter)}
    (hfile : disk'.files place = disk.files place)
    (hothers : ∀ entry ∈ contextMap, entry.2.inner.place ≠ place) :
    OwnFile place (disk', { ctx with contextMap }) where
  global_place := h.global_place
  backed := by
    have hbacked := h.backed
    rw [Backed, h.global_place] at hbacked ⊢
    rw [hfile]
    exact hbacked
  others := hothers

/-- What appends to the global file. -/
theorem global (h : OwnFile place (disk, ctx)) {bytes : Bytes} {globalFile : BufWriter}
    (happended : Appended disk ctx.globalFile bytes disk' globalFile) :
    OwnFile place (disk', { ctx with globalFile }) :=
  ⟨happended.place.trans h.global_place, happended.backed [] h.backed, h.others⟩

theorem place_of_lookup (h : OwnFile place (disk, ctx)) {tag : Str} {file : BufWriter}
    (hfile : ctx.contextMap.lookup tag = some file) : place ≠ file.inner.place :=
  fun heq => h.others (tag, file) (mem_of_lookup hfile) heq.symm

theorem logged (h : OwnFile place (disk, ctx)) {log : LogData}
    (hlog : Logged log disk ctx disk' ctx') : OwnFile place (disk', ctx') := by
  cases hlog with
  | untagged hfile hglobal hbuf => exact h.global hglobal
  | tagged htag hfile hglobal hbuf hcontext hbuf' =>
      have hplace := h.place_of_lookup hfile
      refine (h.global hglobal).frame (hcontext.frame place hplace) ?_
      intro entry hentry
      obtain ⟨entry', hmem, rfl⟩ := List.mem_map.1 hentry
      split
      · rw [hcontext.place]
        exact hplace.symm
      · exact h.others entry' hmem

theorem batchLogged {logs : List LogData} (hlogs : BatchLogged logs disk ctx disk' ctx')
    (h : OwnFile place (disk, ctx)) : OwnFile place (disk', ctx') := by
  induction hlogs with
  | nil => exact h
  | cons hlog _ ih => exact ih (h.logged hlog)

/-- A writer that is dropped writes to its own file. -/
theorem dropContext_files (h : OwnFile place (disk, ctx)) (tag : Str) (disk₁ : Disk resolve) :
    (dropContext tag disk₁ ctx).1.files place = disk₁.files place := by
  cases hfile : ctx.contextMap.lookup tag with
  | none => rw [Follows.dropContext_none hfile]
  | some file =>
      rw [Follows.dropContext_some hfile]
      exact (flushBuf_appended disk₁ file).frame place (h.place_of_lookup hfile)

/-- **Every operation leaves the global file to its writer**, as long as no context is created over
it. -/
theorem applyOp {op : FileOp} (h : OwnFile place (disk, ctx))
    (hapart : ∀ tag, op = .addContext tag → resolve (contextPath ctx.config tag) ≠ place) :
    OwnFile place (ContextFile.applyOp (disk, ctx) op) := by
  cases op with
  | addContext tag =>
      simp only [ContextFile.applyOp, addContext_disk]
      refine h.frame ?_ fun entry hentry => ?_
      · rw [h.dropContext_files]
        simp [Disk.create, (hapart tag rfl).symm]
      · rcases List.mem_cons.1 hentry with rfl | hmem
        · exact hapart tag rfl
        · exact h.others entry (List.mem_of_mem_filter hmem)
  | removeContext tag =>
      exact h.frame (h.dropContext_files tag disk) fun entry hentry =>
        h.others entry (List.mem_of_mem_filter hentry)
  | doLogBatch logs =>
      obtain ⟨disk', ctx', hrun, hlogs⟩ := doLogBatch_disk logs disk ctx
      simp only [ContextFile.applyOp, hrun]
      exact batchLogged hlogs h
  | flush =>
      simp only [ContextFile.applyOp, flushFiles_disk]
      refine (h.global (flushBuf_appended disk ctx.globalFile)).frame ?_ fun entry hentry => ?_
      · exact flushAll_frame h.others _
      · obtain ⟨entry', hmem, -, hplace⟩ := place_of_mem_flushAll hentry
        rw [← hplace]
        exact h.others entry' hmem

end OwnFile

/-- No file operation touches the configuration. -/
theorem config_applyOp {W ω : Type} [FileIo W ω] (s : W × LoggerThreadCtx ω) (op : FileOp) :
    (applyOp s op).2.config = s.2.config := by
  obtain ⟨w, ctx⟩ := s
  cases op with
  | addContext tag =>
      cases hadd : LoggerThreadCtx.addContext tag (w, ctx) with
      | ok u r =>
          obtain ⟨w', ctx'⟩ := r
          obtain ⟨contextMap, rfl⟩ := addContext_ok hadd
          simp only [applyOp, hadd]
      | error e r =>
          obtain ⟨w', ctx'⟩ := r
          obtain rfl := addContext_error hadd
          simp only [applyOp, hadd]
  | removeContext tag => rfl
  | doLogBatch logs =>
      cases hbatch : LoggerThreadCtx.doLogBatch logs (w, ctx) with
      | ok u r => simpa only [applyOp, hbatch] using ((filesOnly_doLogBatch logs).ok hbatch).config
      | error e r =>
          simpa only [applyOp, hbatch] using ((filesOnly_doLogBatch logs).error hbatch).config
  | flush =>
      cases hflush : (flushFiles : EStateM IoError (W × LoggerThreadCtx ω) Unit) (w, ctx) with
      | ok u r => simpa only [applyOp, hflush] using (filesOnly_flushFiles.ok hflush).config
      | error e r => simpa only [applyOp, hflush] using (filesOnly_flushFiles.error hflush).config

end ContextFile

namespace Sys

open Transition LoggerThreadCtx ContextFile

variable {Tid : Type} [DecidableEq Tid]

/-! ## What the operations of a run can be -/

section Generic

variable {W ω : Type} [FileIo W ω] {s s₀ : Sys W ω Tid} {as : List (Action Tid)}

/-- What the callers are still going to do to the files, they were told to do. -/
def Asked (todo : Tid → List Call) (s : Sys W ω Tid) : Prop :=
  ∀ t, ∀ op ∈ (s.callers t).fileOps, op ∈ (todo t).flatMap Call.fileOps

theorem asked_step {todo : Tid → List Call} {a : Action Tid} (h : Asked todo s₀)
    (hstep : s₀.step a = some s) : Asked todo s := by
  intro t op hmem
  apply h t
  rw [← fileCalls_step hstep t]
  exact List.mem_append_right _ hmem

omit [DecidableEq Tid] in
theorem asked_boot {w : W} {config : LoggerConfig} {logPath : PathBuf} {todo : Tid → List Call}
    (hboot : boot w config logPath todo = .ok s₀) : Asked todo s₀ := by
  obtain ⟨w', globalFile, rfl⟩ := boot_ok hboot
  exact fun t op hmem => hmem

omit [DecidableEq Tid] [FileIo W ω] in
/-- A step that creates a context is one of a caller that was going to. -/
theorem addContext_of_mem_fileOps {a : Action Tid} {b : Party Tid × FileOp} (hb : b ∈ s.fileOps a)
    {tag : Str} (hop : b.2 = .addContext tag) :
    ∃ t, FileOp.addContext tag ∈ (s.callers t).fileOps := by
  cases a with
  | caller t =>
      obtain ⟨op, hmem, rfl⟩ := List.mem_map.1 hb
      refine ⟨t, List.mem_append_left _ ?_⟩
      cases hpc : (s.callers t).pc with
      | write phase call =>
          rw [hpc] at hmem
          cases phase with
          | held => exact hop ▸ hmem
          | _ => exact absurd hmem List.not_mem_nil
      | _ =>
          rw [hpc] at hmem
          exact absurd hmem List.not_mem_nil
  | logThread result now =>
      obtain ⟨op, hmem, rfl⟩ := List.mem_map.1 hb
      cases hpc : s.logThread.pc with
      | write phase sec =>
          rw [hpc] at hmem
          cases phase with
          | held =>
              cases sec <;>
                · rw [List.mem_singleton.1 hmem] at hop
                  cases hop
          | _ => exact absurd hmem List.not_mem_nil
      | _ =>
          rw [hpc] at hmem
          exact absurd hmem List.not_mem_nil
  | spurious p => exact absurd hb List.not_mem_nil
  | timeout t => exact absurd hb List.not_mem_nil

omit [DecidableEq Tid] [FileIo W ω] in
/-- Every context that is created has been asked for in a program. -/
theorem Asked.registered {todo : Tid → List Call} (h : Asked todo s) {a : Action Tid}
    {b : Party Tid × FileOp} (hb : b ∈ s.fileOps a) {tag : Str} (hop : b.2 = .addContext tag) :
    ∃ t now, Call.write (.registerContext tag now) ∈ todo t := by
  obtain ⟨t, ht⟩ := addContext_of_mem_fileOps hb hop
  obtain ⟨call, hcall, hmem⟩ := List.mem_flatMap.1 (h t _ ht)
  cases call with
  | read ops => exact absurd hmem List.not_mem_nil
  | write call =>
      cases call with
      | registerContext tag' now =>
          obtain rfl := FileOp.addContext.inj (List.mem_singleton.1 hmem)
          exact ⟨t, now, hcall⟩
      | unregisterContext tag' => cases List.mem_singleton.1 hmem
      | addSink => exact absurd hmem List.not_mem_nil

/-- So it is in a whole run. -/
theorem registered_of_mem_trace {todo : Tid → List Call} (h : Asked todo s₀)
    {b : Party Tid × FileOp} (hb : b ∈ trace step fileOps s₀ as) {tag : Str}
    (hop : b.2 = .addContext tag) :
    ∃ t now, Call.write (.registerContext tag now) ∈ todo t := by
  have hkeep : ∀ (r : Sys W ω Tid) (a : Action Tid) (r' : Sys W ω Tid), Asked todo r →
      r.step a = some r' → Asked todo r' := fun _ _ _ h hstep => asked_step h hstep
  have hemit : ∀ (r : Sys W ω Tid) (a : Action Tid), Asked todo r → ∀ b ∈ r.fileOps a,
      b.2 = .addContext tag → ∃ t now, Call.write (.registerContext tag now) ∈ todo t :=
    fun _ _ h _ hb hop => h.registered hb hop
  exact forall_mem_trace hkeep hemit h b hb hop

end Generic

section Disk

variable {resolve : PathBuf → Place} {disk : Disk resolve} {config : LoggerConfig}
  {logPath : PathBuf} {todo : Tid → List Call} {s₀ s : Sys (Disk resolve) BufWriter Tid}
  {as : List (Action Tid)}

/-- No program registers a context whose path leads to the global file, however the two are
spelled. -/
def Apart (resolve : PathBuf → Place) (config : LoggerConfig) (logPath : PathBuf)
    (todo : Tid → List Call) : Prop :=
  ∀ t tag now, Call.write (.registerContext tag now) ∈ todo t →
    resolve (contextPath config tag) ≠ resolve logPath

/-- The global file is with its writer, and the configuration is the one given. -/
def Owned (config : LoggerConfig) (logPath : PathBuf)
    (o : Disk resolve × LoggerThreadCtx BufWriter) : Prop :=
  OwnFile (resolve logPath) o ∧ o.2.config = config

omit [DecidableEq Tid] in
theorem owned_boot (hboot : boot disk config logPath todo = .ok s₀) :
    Owned config logPath s₀.files := by
  rw [boot_disk] at hboot
  obtain rfl := Except.ok.inj hboot
  refine ⟨⟨rfl, ?_, fun entry hentry => absurd hentry List.not_mem_nil⟩, rfl⟩
  simp [files, withSinks, start, BufWriter.Backed, Disk.create]

omit [DecidableEq Tid] in
theorem owned_applyOps {o : Disk resolve × LoggerThreadCtx BufWriter}
    {ops : List (Party Tid × FileOp)} (h : Owned config logPath o)
    (hregistered : ∀ b ∈ ops, ∀ tag, b.2 = .addContext tag →
      resolve (contextPath config tag) ≠ resolve logPath) :
    Owned config logPath (applyOps o ops) := by
  refine List.foldlRecOn (motive := Owned config logPath) ops (fun o b => applyOp o b.2) h ?_
  rintro ⟨d, ctx⟩ ⟨hown, hconfig⟩ b hb
  refine ⟨hown.applyOp fun tag hop => ?_, ?_⟩
  · rw [show ctx.config = config from hconfig]
    exact hregistered b hb tag hop
  · rw [config_applyOp]
    exact hconfig

/-- The global file stays with its writer, whatever the sinks answer. -/
theorem owned_run (hapart : Apart resolve config logPath todo)
    (hboot : boot disk config logPath todo = .ok s₀) (hrun : run step s₀ as = some s) :
    Owned config logPath s.files := by
  rw [← files_run hrun]
  refine owned_applyOps (owned_boot hboot) fun b hb tag hop => ?_
  obtain ⟨t, now, hcall⟩ := registered_of_mem_trace (asked_boot hboot) hb hop
  exact hapart t tag now hcall

/-- **A crash leaves a prefix.**  With a positive `max_string_len`, a disk that never fails and no
context whose path leads to the global file, in every state of every interleaving with sinks that do
not refuse, the global file on the disk is a prefix of the lines of everything pushed so far, in the
order of the queue, and it contains the lines of all entries that have been flushed.  A process that
dies there leaves exactly this behind: what the writers still buffer is lost, and nothing else.  If
the records pushed are legible, the complete lines of what is left are the first of these records,
and all of those that have been flushed. -/
theorem crash_leaves_prefix (hmax : 0 < config.maxStringLen)
    (hapart : Apart resolve config logPath todo)
    (hboot : boot disk config logPath todo = .ok s₀) (hsinks : ∀ a ∈ as, a.SinkOk)
    (hrun : run step s₀ as = some s) :
    ∃ content, s.world.read logPath = some content ∧
      linesOf config.maxStringLen (s.history.written.take s.history.flushed) <+: content ∧
      content <+: linesOf config.maxStringLen s.entries ∧
      ((∀ log ∈ s.entries, log.Legible) →
        shownOf config.maxStringLen (s.history.written.take s.history.flushed) <+:
          readFile content ∧
        readFile content <+: shownOf config.maxStringLen s.entries) := by
  have hown := (owned_run hapart hboot hrun).1
  have hundisturbed := undisturbed_run hmax hboot hsinks hrun
  have hconfig : s.ctx.config = config := by
    rw [config_run hrun]
    rw [boot_disk] at hboot
    exact (Except.ok.inj hboot) ▸ rfl
  obtain ⟨j, hj⟩ := hundisturbed.tracks
  have hentries := hj.entries_eq hundisturbed.healthy.running
  rw [List.append_assoc] at hentries
  have hbefore : linesOf config.maxStringLen (s.history.written.take s.history.flushed) <+:
      s.ctx.globalFile.inner.written := by
    have hflushed := flushed_inFile hmax hboot hsinks hrun
    rwa [FlushedInFile, hconfig] at hflushed
  have hafter : s.ctx.globalFile.inner.written <+: linesOf config.maxStringLen s.entries := by
    have hcontents : s.ctx.globalFile.contents =
        linesOf config.maxStringLen s.history.written := by
      rw [hundisturbed.healthy.contents, linesOf, ← hconfig,
        eq_flatMap_pieces_of_split hundisturbed.recorded.recorded]
    have hwritten : linesOf config.maxStringLen s.history.written <+:
        linesOf config.maxStringLen s.entries := by
      rw [hentries, linesOf, linesOf, List.flatMap_append, List.flatMap_append]
      exact List.prefix_append _ _
    rw [← hcontents] at hwritten
    exact (List.prefix_append _ _).trans hwritten
  refine ⟨s.ctx.globalFile.inner.written, hown.file_eq, hbefore, hafter, fun hlegible => ?_⟩
  have hflushed : ∀ log ∈ s.history.written.take s.history.flushed, log.Legible := by
    intro log hlog
    apply hlegible
    rw [hentries]
    exact List.mem_append_left _ (List.mem_of_mem_take hlog)
  rw [← readFile_linesOf hmax hlegible, ← readFile_linesOf hmax hflushed]
  exact ⟨readFile_mono hbefore, readFile_mono hafter⟩

/-- A context is registered, one record is written and flushed, the next is written only. -/
def logTwice : Unit → List Call := fun _ =>
  [.write (.registerContext "T".toList Scenario.time),
    .read [.queueLog (Scenario.tagged "a")], .read [.queueLog (Scenario.log "b")]]

def logTwiceRun : List (Action Unit) :=
  Scenario.callerSteps () 9 ++ Scenario.logThreadSteps 15 ++ Scenario.callerSteps () 5 ++
    Scenario.logThreadSteps 6

theorem apart_logTwice : Apart Scenario.resolve .default Scenario.logPath logTwice := by
  intro t tag now hcall
  simp only [logTwice, List.mem_cons, Call.write.injEq, WriteCall.registerContext.injEq,
    reduceCtorEq, List.not_mem_nil, or_false] at hcall
  rw [hcall.1]
  decide

theorem noWait_logTwice : ∀ t, ∀ call ∈ logTwice t, call.NoWait := by
  intro t call hcall
  simp only [logTwice, List.mem_cons, List.not_mem_nil, or_false] at hcall
  rcases hcall with rfl | rfl | rfl
  · trivial
  · simp [Call.NoWait, GuardedOp.queueLog, GuardedOp.NoWait]
  · simp [Call.NoWait, GuardedOp.queueLog, GuardedOp.NoWait]

theorem sinkOk_logTwiceRun : ∀ a ∈ logTwiceRun, a.SinkOk := by
  simp only [logTwiceRun, List.forall_mem_append]
  exact ⟨⟨⟨Scenario.sinkOk_callerSteps _ _, Scenario.sinkOk_logThreadSteps _⟩,
    Scenario.sinkOk_callerSteps _ _⟩, Scenario.sinkOk_logThreadSteps _⟩

theorem crash_leaves_prefix_logTwice :
    ∃ s content, run step (Scenario.start .default logTwice) logTwiceRun = some s ∧
      s.history.flushed = 1 ∧ s.world.read Scenario.logPath = some content ∧
      linesOf 1024 [Scenario.tagged "a"] <+: content ∧
      [some (Scenario.tagged "a").shown] <+: readFile content ∧
      readFile content <+: [some (Scenario.tagged "a").shown, some (Scenario.log "b").shown] := by
  have hend : (run step (Scenario.start .default logTwice) logTwiceRun).map
      (fun s => (s.history.flushed, s.history.written, s.entries)) =
      some (1, [Scenario.tagged "a", Scenario.log "b"], [Scenario.tagged "a", Scenario.log "b"]) := by
    decide +kernel
  obtain ⟨s, hrun, hs⟩ := Option.map_eq_some_iff.1 hend
  simp only [Prod.mk.injEq] at hs
  obtain ⟨hflushed, hwritten, hentries⟩ := hs
  obtain ⟨content, hfile, hbefore, -, hread⟩ := crash_leaves_prefix (by decide) apart_logTwice
    (boot_disk Scenario.disk .default Scenario.logPath logTwice) sinkOk_logTwiceRun hrun
  rw [hflushed, hwritten] at hbefore
  rw [hflushed, hwritten, hentries] at hread
  have hlegible : ∀ log ∈ [Scenario.tagged "a", Scenario.log "b"], log.Legible :=
    List.forall_mem_cons.2 ⟨legible_tagged "a", List.forall_mem_singleton.2 (legible_log "b")⟩
  exact ⟨s, content, hrun, hflushed, hfile, hbefore, hread hlegible⟩

/-! ## When nothing moves any more -/

/-- Nothing that has been pushed is anywhere but in the files. -/
structure Delivered (s : Sys (Disk resolve) BufWriter Tid) (logPath : PathBuf)
    (todo : Tid → List Call) : Prop where
  pushed : ∀ t, s.pushedBy t = (todo t).flatMap Call.pushes
  queue : s.queue = []
  clean : s.ctx.Clean
  file : s.world.read logPath = some (linesOf s.ctx.config.maxStringLen s.entries)
  /-- Every sink has all records since its registration. -/
  sinks : ∀ sink ∈ s.ctx.sinks, sink.received =
    (s.entries.flatMap (pieces s.ctx.config.maxStringLen)).drop sink.since

/-- The logging thread of an undisturbed logger that is at rest sleeps, with nothing in the queue. -/
theorem asleep_of_done (hnowait : AwakeAlone s) (haccounted : Accounted s) (hdone : Done s)
    (hrunning : s.logThread.pc.Running) : s.logThread.pc = .waiting ∧ s.queue = [] := by
  rcases hdone.logThread with ⟨hpc, hparked⟩ | ⟨error, hpc⟩
  · refine ⟨hpc, ?_⟩
    by_contra hqueue
    rcases hnowait.1 hpc hqueue with hup | ⟨t, ht⟩
    · rw [haccounted.flag hup] at hparked
      exact List.not_mem_nil hparked
    · rw [(hdone.callers t).1] at ht
      exact ht
  · rw [hpc] at hrunning
    obtain ⟨hnone, hne⟩ := hrunning
    have herror : error = none := hnone
    rw [herror] at hne
    exact absurd rfl hne

theorem dispatches_run (hboot : boot disk config logPath todo = .ok s₀)
    (hsinks : ∀ a ∈ as, a.SinkOk) (hrun : run step s₀ as = some s) : Dispatches s := by
  have hstart : Dispatches s₀ := by
    obtain ⟨w, globalFile, rfl⟩ := boot_ok hboot
    exact ⟨trivial, nofun, rfl, nofun⟩
  exact run_invariant_of_forall (fun _ _ _ h ha hstep => dispatches_step h ha hstep) hstart hsinks
    hrun

omit [DecidableEq Tid] in
/-- A sink of a sleeping logger has everything since its registration. -/
theorem received_of_waiting (h : Dispatches s) (hpc : s.logThread.pc = .waiting) {sink : Sink}
    (hsink : sink ∈ s.ctx.sinks) : sink.received = s.history.recorded.drop sink.since := by
  obtain ⟨k, hk⟩ := List.mem_iff_getElem?.1 hsink
  have hrecorded : s.history.recorded = s.history.dispatched := by
    rw [h.recorded, hpc]
    exact List.append_nil _
  rcases (h.sinks hk).2 with hexact | ⟨e, now, hend, -⟩
  · rw [hexact, hrecorded, hpc]
    exact List.append_nil _
  · rw [hpc] at hend
    cases hend

/-- **At rest everything is delivered.**  Threads that wait for no flush, sinks that do not refuse,
no context over the global file: where no thread can take a step any more, every program is through,
the queue is empty, nothing is buffered, the global file on the disk consists of the lines of all
entries that were ever pushed, in the order of their pushes, and every sink has received their
records. -/
theorem delivered_atRest (hmax : 0 < config.maxStringLen)
    (hapart : Apart resolve config logPath todo)
    (hnowait : ∀ t, ∀ call ∈ todo t, call.NoWait)
    (hboot : boot disk config logPath todo = .ok s₀) (hsinks : ∀ a ∈ as, a.SinkOk)
    (hrun : run step s₀ as = some s) (hrest : AtRest step Action.Genuine s) :
    Delivered s logPath todo := by
  have hstart : AwakeAlone s₀ := by
    refine ⟨awake_boot _ hboot, fun t => ?_⟩
    obtain ⟨w, globalFile, rfl⟩ := boot_ok hboot
    exact ⟨trivial, hnowait t⟩
  have halone : AwakeAlone s :=
    run_invariant (fun _ _ _ h hstep => awakeAlone_step h hstep) hstart hrun
  have hnobody : ¬ FlushWaiterParked s := by
    rintro ⟨t, ops, hpc, -⟩
    have hwaits := (halone.2 t).1
    rw [hpc] at hwaits
    exact hwaits
  have haccounted := accounted_run hboot hrun
  have hdone := (atRest_iff_done_of_accounted haccounted hnobody).1 hrest
  have hundisturbed := undisturbed_run hmax hboot hsinks hrun
  obtain ⟨hpc, hqueue⟩ := asleep_of_done halone haccounted hdone hundisturbed.healthy.running
  have hclean := hundisturbed.clean.atWait hpc
  obtain ⟨j, hj⟩ := hundisturbed.tracks
  have hentries := hj.entries_eq hundisturbed.healthy.running
  have hhand : s.logThread.pc.inHand = [] := by rw [hpc]; rfl
  rw [hhand, hqueue, List.append_nil, List.append_nil] at hentries
  refine ⟨fun t => ?_, hqueue, hclean, ?_, fun sink hsink => ?_⟩
  · have hpromised := promised_run hboot hrun t
    have hleft : (s.callers t).remaining = [] := by
      simp [Caller.remaining, CallerPc.pushes, hdone.callers t]
    rwa [promised, hleft, List.append_nil] at hpromised
  · have hfile : s.world.read logPath = some s.ctx.globalFile.inner.written :=
      (owned_run hapart hboot hrun).1.file_eq
    rw [hfile, hundisturbed.inFile hclean, hentries]
  · rw [received_of_waiting (dispatches_run hboot hsinks hrun) hpc hsink,
      eq_flatMap_pieces_of_split hundisturbed.recorded.recorded, hentries]

/-- Finitely many threads can always be run until none of them can move. -/
theorem exists_run_to_rest [Fintype Tid] (hboot : boot disk config logPath todo = .ok s₀)
    (hrun : run step s₀ as = some s) :
    ∃ bs s', (∀ a ∈ bs, a.Genuine ∧ a.SinkOk) ∧ run step s bs = some s' ∧
      AtRest step Action.Genuine s' := by
  have hkeep : ∀ (r : Sys (Disk resolve) BufWriter Tid) (a : Action Tid)
      (r' : Sys (Disk resolve) BufWriter Tid), Tracked r → a.Genuine ∧ a.SinkOk →
      r.step a = some r' → Tracked r' := fun _ _ _ h _ hstep => tracked_step h hstep
  obtain ⟨bs, s', hbs, hrest, hatRest⟩ := exists_run_atRest hkeep
    (fun _ _ _ h ha hstep => workLeft_step h ha.1 hstep) (tracked_run hboot hrun)
  exact ⟨bs, s', hbs, hrest, atRest_of_sinkOk hatRest⟩

/-- **Every schedule delivers.**  Finitely many threads that wait for no flush, a positive
`max_string_len`, sinks that do not refuse and make no calls, a disk that never fails, no context
whose path leads to the global file: from every state a run can reach, whoever moves next and in
whatever order, the threads end up with everything delivered once none of them can move any more;
and there is such an end. -/
theorem delivers [Fintype Tid] (hmax : 0 < config.maxStringLen)
    (hapart : Apart resolve config logPath todo) (hnowait : ∀ t, ∀ call ∈ todo t, call.NoWait)
    (hboot : boot disk config logPath todo = .ok s₀) (hsinks : ∀ a ∈ as, a.SinkOk)
    (hrun : run step s₀ as = some s) :
    (∀ bs s', (∀ a ∈ bs, a.SinkOk) → run step s bs = some s' →
      AtRest step Action.Genuine s' → Delivered s' logPath todo) ∧
    ∃ bs s', (∀ a ∈ bs, a.Genuine ∧ a.SinkOk) ∧ run step s bs = some s' ∧
      Delivered s' logPath todo := by
  have hends : ∀ bs s', (∀ a ∈ bs, a.SinkOk) → run step s bs = some s' →
      AtRest step Action.Genuine s' → Delivered s' logPath todo := by
    intro bs s' hbs hrest hatRest
    have hwhole : run step s₀ (as ++ bs) = some s' := by
      rw [run_append, hrun]
      exact hrest
    refine delivered_atRest hmax hapart hnowait hboot ?_ hwhole hatRest
    exact List.forall_mem_append.2 ⟨hsinks, hbs⟩
  obtain ⟨bs, s', hbs, hrest, hatRest⟩ := exists_run_to_rest hboot hrun
  exact ⟨hends, bs, s', hbs, hrest, hends bs s' (fun a ha => (hbs a ha).2) hrest hatRest⟩

theorem delivers_logTwice :
    ∃ s, run step (Scenario.start .default logTwice) logTwiceRun = some s ∧
      s.history.flushed = 1 ∧
      ∃ bs s', (∀ a ∈ bs, a.Genuine ∧ a.SinkOk) ∧ run step s bs = some s' ∧
        Delivered s' Scenario.logPath logTwice := by
  have hend : (run step (Scenario.start .default logTwice) logTwiceRun).map
      (fun s => s.history.flushed) = some 1 := by
    decide +kernel
  obtain ⟨s, hrun, hflushed⟩ := Option.map_eq_some_iff.1 hend
  have hresult := delivers (by decide) apart_logTwice noWait_logTwice
    (boot_disk Scenario.disk .default Scenario.logPath logTwice) sinkOk_logTwiceRun hrun
  exact ⟨s, hrun, hflushed, hresult.2⟩

end Disk

end Sys

end Paperlog
