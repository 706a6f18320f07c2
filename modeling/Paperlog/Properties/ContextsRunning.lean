import Paperlog.Properties.OnDisk

/-!
# Context files while the threads run

`ContextFile` says what the file of one tag holds after a given sequence of file operations.  A
running logger performs such a sequence in every interleaving (`files_run`), so the result
carries over: the records of the batches written while the tag was registered, and only those, are
what its file is made of.  `contextFile_running` has both forms: in every state the file is a prefix
of the lines it is owed, and where nothing is buffered the exact condition for it to be all of them.

The batches themselves are the records the logging thread has written, in their order
(`batches_run`).
-/

namespace Paperlog

namespace ContextFile

open LoggerThreadCtx BufWriter

namespace Follows

variable {resolve : PathBuf → Place} {config : LoggerConfig} {logPath : PathBuf} {tag : Str}
  {disk : Disk resolve} {ctx : LoggerThreadCtx BufWriter} {tr : ContextTrack}

/-- What is on the file is the beginning of what is owed. -/
theorem onFile_prefix (h : Follows config logPath tag disk ctx tr) :
    onFile tag tr ctx <+: tr.lines := by
  cases hactive : tr.active with
  | false =>
      simp only [onFile, (h.inactive hactive).1]
      exact List.prefix_rfl
  | true =>
      obtain ⟨file, hwriters, -, hcontents, -⟩ := h.active hactive
      simp only [onFile, hwriters, ← hcontents]
      exact List.prefix_append _ _

/-- With nothing left over from an earlier registration the file is such a beginning. -/
theorem file_prefix (h : Follows config logPath tag disk ctx tr) (hknown : tr.known = true)
    (hpath : resolve (contextPath config tag) ≠ resolve logPath) (hstale : tr.stale = 0) :
    ∃ content, disk.read (contextPath config tag) = some content ∧ content <+: tr.lines := by
  obtain ⟨stale, hlength, hfile⟩ := h.exact hknown (.inl hpath)
  have hnone : stale = [] := List.eq_nil_of_length_eq_zero (hlength.trans hstale)
  refine ⟨onFile tag tr ctx, ?_, h.onFile_prefix⟩
  rw [Disk.read, hfile, hnone, List.drop_nil, List.append_nil]

/-- Clean files are clean tracks. -/
theorem clean_track (h : Follows config logPath tag disk ctx tr) (hclean : ctx.Clean) :
    tr.dirty = false ∧ tr.globalDirty = false := by
  refine ⟨?_, h.globalClean.1 hclean.1⟩
  cases hactive : tr.active with
  | false => exact (h.inactive hactive).2
  | true =>
      obtain ⟨file, hwriters, -, -, hbuf⟩ := h.active hactive
      have hmem : file ∈ writersOf tag ctx.contextMap := by
        rw [hwriters]
        exact List.mem_singleton_self file
      obtain ⟨entry, hentry, rfl⟩ := List.mem_map.1 hmem
      exact hbuf.1 (hclean.2 entry (List.mem_of_mem_filter hentry))

end Follows

end ContextFile

namespace Sys

open Transition LoggerThreadCtx ContextFile

variable {Tid : Type} [DecidableEq Tid] {resolve : PathBuf → Place} {disk : Disk resolve}
  {config : LoggerConfig} {logPath : PathBuf} {todo : Tid → List Call}
  {s₀ s s' : Sys (Disk resolve) BufWriter Tid} {as : List (Action Tid)}

/-! ## The batches of a run -/

omit [DecidableEq Tid] in
theorem logs_writeCall (t : Tid) (call : WriteCall) :
    (call.fileOps.map fun op => ((.caller t : Party Tid), op)).flatMap (fun b => b.2.logs) = [] := by
  cases call <;> rfl

theorem batches_step {a : Action Tid} (h : Healthy s) (hstep : s.step a = some s') :
    s'.history.recorded = s.history.recorded ++ (s.fileOps a).flatMap fun b => b.2.logs := by
  have quiet : s'.history.recorded = s.history.recorded →
      ((s.fileOps a).flatMap fun b => b.2.logs) = [] →
      s'.history.recorded = s.history.recorded ++ (s.fileOps a).flatMap fun b => b.2.logs := by
    intro hrecorded hnone
    rw [hrecorded, hnone, List.append_nil]
  cases step_sound hstep with
  | caller hcaller =>
      refine quiet (by rw [hcaller.frame.history]) ?_
      rename_i t
      cases hpc : (s.callers t).pc with
      | write phase call =>
          cases phase with
          | held =>
              simp only [fileOps, hpc, CallerPc.performs]
              exact logs_writeCall t call
          | _ => simp only [fileOps, hpc, CallerPc.performs, List.map_nil, List.flatMap_nil]
      | _ => simp only [fileOps, hpc, CallerPc.performs, List.map_nil, List.flatMap_nil]
  | logThread hlog =>
      cases hlog with
      | batch hpc hio => simp [fileOps, hpc, LogThreadPc.performs, WriteSection.fileOps, FileOp.logs]
      | batchFailed hpc hio => exact absurd hio (doLogBatch_ne_error _ _ _)
      | flush hpc hio =>
          exact quiet rfl (by
            simp [fileOps, hpc, LogThreadPc.performs, WriteSection.fileOps, FileOp.logs])
      | flushFailed hpc hio => exact absurd hio (flushFiles_ne_error _ _)
      | errorFlushFailed hpc hio => exact absurd hio (flushFiles_ne_error _ _)
      | errorRecord hpc hio =>
          have herror := h.running.1
          rw [hpc] at herror
          cases herror
      | errorRecordFailed hpc hio => exact absurd hio (fileDoLog_ne_error _ _ _)
      | _ hpc => exact quiet rfl (by simp [fileOps, hpc, LogThreadPc.performs])
  | spurious hparked => exact quiet rfl rfl
  | timeout hparked hpc => exact quiet rfl rfl

/-- The batches of a run, one after another, are the records written. -/
theorem batches_run (hmax : 0 < config.maxStringLen)
    (hboot : boot disk config logPath todo = .ok s₀) (hsinks : ∀ a ∈ as, a.SinkOk)
    (hrun : run step s₀ as = some s) :
    s.history.recorded = (trace step fileOps s₀ as).flatMap fun b => b.2.logs := by
  have hcollect := trace_collect (fun _ _ _ h ha hstep => healthy_step h ha hstep)
    (fun _ _ _ h _ hstep => batches_step h hstep) (healthy_boot hmax.ne' hboot) hsinks hrun
  have hnone : s₀.history.recorded = [] := by
    obtain ⟨w, globalFile, rfl⟩ := boot_ok hboot
    rfl
  rwa [hnone, List.nil_append] at hcollect

/-! ## The file of a context -/

/-- The operations on the files in a run, in the order of their critical sections. -/
def fileHistory (s₀ : Sys (Disk resolve) BufWriter Tid) (as : List (Action Tid)) : List FileOp :=
  (trace step fileOps s₀ as).map Prod.snd

/-- No other tag that a program registers has a path that leads to the file of this one. -/
def FileOfItsOwn (resolve : PathBuf → Place) (config : LoggerConfig) (tag : Str)
    (todo : Tid → List Call) : Prop :=
  ∀ t tag' now, Call.write (.registerContext tag' now) ∈ todo t → tag' ≠ tag →
    resolve (contextPath config tag') ≠ resolve (contextPath config tag)

theorem follows_run {tag : Str} (hown : FileOfItsOwn resolve config tag todo)
    (hboot : boot disk config logPath todo = .ok s₀) (hrun : run step s₀ as = some s) :
    ContextFile.Follows config logPath tag s.world { s.ctx with sinks := [] }
      (tracked tag (fileHistory s₀ as)) := by
  have hdistinct : ∀ t, .addContext t ∈ fileHistory s₀ as → t ≠ tag →
      resolve (contextPath config t) ≠ resolve (contextPath config tag) := by
    intro t hmem ht
    obtain ⟨b, hb, hop⟩ := List.mem_map.1 hmem
    obtain ⟨u, now, hcall⟩ := registered_of_mem_trace (asked_boot hboot) hb hop
    exact hown u t now hcall ht
  have hstart : ContextFile.Follows config logPath tag s₀.files.1 s₀.files.2 .start := by
    rw [boot_disk] at hboot
    obtain rfl := Except.ok.inj hboot
    have hnew : ContextFile.Follows config logPath tag (disk.create logPath).1
        (ofGlobalFile config (disk.create logPath).2) .start :=
      ContextFile.Follows.of_new (new_disk _ _ _)
    exact ⟨hnew.sameConfig, hnew.global, hnew.globalClean, hnew.others, hnew.inactive, hnew.active,
      hnew.known, hnew.quiet, hnew.exact, hnew.long⟩
  refine hstart.of_run hdistinct ?_
  rw [run_perform_disk, fileHistory, List.foldl_map]
  exact congrArg some (files_run hrun)

/-- **A context's file, while everything runs.**  The disk never fails, and no other tag that is ever
registered leads to the file of this one.  In every state of every interleaving of callers,
registrations and the logging thread, once the tag has been registered: if its file is not the
global file and its last registration found nothing pending from an earlier one, the file is a prefix
of the compact lines of exactly the records with its tag that were written while it was registered;
and where no file has anything buffered, it consists of those lines if and only if the global file
has not been written into it and what an earlier registration left reaches no further. -/
theorem contextFile_running {tag : Str} (hown : FileOfItsOwn resolve config tag todo)
    (hboot : boot disk config logPath todo = .ok s₀) (hrun : run step s₀ as = some s)
    (hregistered : .addContext tag ∈ fileHistory s₀ as) :
    (resolve (contextPath config tag) ≠ resolve logPath →
      (tracked tag (fileHistory s₀ as)).stale = 0 →
      ∃ content, s.world.read (contextPath config tag) = some content ∧
        content <+: contextLines tag (fileHistory s₀ as)) ∧
    (s.ctx.Clean →
      (s.world.read (contextPath config tag) = some (contextLines tag (fileHistory s₀ as)) ↔
        (resolve (contextPath config tag) ≠ resolve logPath ∨
          (tracked tag (fileHistory s₀ as)).touched = false) ∧
        (tracked tag (fileHistory s₀ as)).stale ≤
          (contextLines tag (fileHistory s₀ as)).length)) := by
  have hfollows := follows_run hown hboot hrun
  have hknown := known_of_mem hregistered
  rw [← (tracked_spec hregistered).2]
  refine ⟨fun hpath hstale => hfollows.file_prefix hknown hpath hstale, fun hclean => ?_⟩
  have hcleanFiles : ({ s.ctx with sinks := [] } : LoggerThreadCtx BufWriter).Clean :=
    ⟨hclean.1, hclean.2⟩
  obtain ⟨hdirty, hglobal⟩ := hfollows.clean_track hcleanFiles
  exact hfollows.file_iff_of_clean hknown hdirty hglobal

/-- The record is written while the context is there; then another thread takes the context away,
and the logger comes to rest. -/
theorem contextFile_running_registerAndDrop :
    ∃ s, run step (Scenario.start .default registerAndDrop) registerAndDropRun = some s ∧
      s.world.read "./logs/T.log".toList = some (Scenario.tagged "a").compactLine := by
  have hend : (run step (Scenario.start .default registerAndDrop) registerAndDropRun).map (fun s =>
      (s.ctx.globalFile.buf, s.ctx.contextMap)) = some ([], []) := by
    decide +kernel
  obtain ⟨s, hrun, hs⟩ := Option.map_eq_some_iff.1 hend
  obtain ⟨hbuf, hmap⟩ := Prod.mk.inj hs
  have hhistory : fileHistory (Scenario.start .default registerAndDrop) registerAndDropRun =
      [.addContext "T".toList, .doLogBatch [Scenario.tagged "a"], .removeContext "T".toList,
        .flush] := by
    decide +kernel
  have hown : FileOfItsOwn Scenario.resolve .default "T".toList registerAndDrop := by
    intro t tag now hcall hne
    cases t with
    | false =>
        simp only [registerAndDrop, List.mem_cons, Call.write.injEq,
          WriteCall.registerContext.injEq, reduceCtorEq, List.not_mem_nil, or_false] at hcall
        exact absurd hcall.1 hne
    | true =>
        simp only [registerAndDrop, List.mem_cons, Call.write.injEq, reduceCtorEq,
          List.not_mem_nil, or_false] at hcall
  have hregistered : FileOp.addContext "T".toList ∈
      fileHistory (Scenario.start .default registerAndDrop) registerAndDropRun := by
    rw [hhistory]
    exact List.mem_cons_self
  have hclean : s.ctx.Clean := by
    refine ⟨hbuf, fun entry hentry => ?_⟩
    rw [hmap] at hentry
    exact absurd hentry List.not_mem_nil
  have hboot : boot Scenario.disk .default Scenario.logPath registerAndDrop =
      .ok (Scenario.start .default registerAndDrop) := boot_disk _ _ _ _
  have hiff := (contextFile_running hown hboot hrun hregistered).2 hclean
  rw [hhistory] at hiff
  have hpath : contextPath .default "T".toList = "./logs/T.log".toList := by decide +kernel
  have hlines : contextLines "T".toList [.addContext "T".toList,
      .doLogBatch [Scenario.tagged "a"], .removeContext "T".toList, .flush] =
      (Scenario.tagged "a").compactLine := by
    decide +kernel
  have hcond : Scenario.resolve "./logs/T.log".toList ≠ Scenario.resolve Scenario.logPath := by
    decide +kernel
  have hstale : (tracked "T".toList [.addContext "T".toList,
      .doLogBatch [Scenario.tagged "a"], .removeContext "T".toList, .flush]).stale = 0 := by
    decide +kernel
  rw [hpath, hlines, hstale] at hiff
  exact ⟨s, hrun, hiff.2 ⟨.inl hcond, Nat.zero_le _⟩⟩

end Sys

end Paperlog
