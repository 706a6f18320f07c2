import Paperlog.Framework.Transition
import Paperlog.Properties.LogcatSlices

/-!
# Does the logcat backend remember?

The thread-local buffer is cleared at the end of `do_log`, but under `android-api-30` a record that
is filtered leaves the closure before that.  Its text stays in the buffer, and since the slices are
taken from the beginning, the next record of the thread is sent with the text of the filtered one.
`noMemory_iff` says which sequences of records are free of this.  A record whose slices panic is the
last one its thread handles.
-/

namespace Paperlog

namespace LogcatLogger

open Transition

/-- A record for `do_log`, with what `__android_log_is_loggable` answers for it. -/
structure Handled where
  log : LogData
  isLoggable : Bool
  deriving DecidableEq

/-- Under `android-api-30` one record is handled: the buffer it leaves, unless the slices panic. -/
def handle (buffer : Bytes) (call : Handled) : Option Bytes :=
  (doLog true (fun _ _ => call.isLoggable) buffer call.log).map Prod.snd

/-- The call of the NDK it makes, if it comes to that. -/
def handed (buffer : Bytes) (call : Handled) : Option (Option NdkCall) :=
  (doLog true (fun _ _ => call.isLoggable) buffer call.log).map Prod.fst

/-- `do_log` starts with an empty buffer, and what it hands to logcat is the record's own. -/
structure NoMemory (buffer : Bytes) (call : Handled) : Prop where
  empty : buffer = []
  own : handed buffer call = handed [] call

theorem noMemory_nil (call : Handled) : NoMemory [] call := ⟨rfl, rfl⟩

/-- The buffer is cleared exactly when the record goes out. -/
theorem handle_eq_nil_iff {buffer buffer' : Bytes} {call : Handled}
    (h : handle buffer call = some buffer') : buffer' = [] ↔ call.isLoggable = true := by
  have hextend : extend buffer call.log ≠ [] := by simp [extend]
  rw [handle, doLog] at h
  cases hslices : slices (extend buffer call.log) call.log with
  | none => simp [hslices] at h
  | some parts =>
      cases hloggable : call.isLoggable with
      | true =>
          obtain rfl : [] = buffer' := by simpa [hslices, hloggable] using h
          simp
      | false =>
          obtain rfl : extend buffer call.log = buffer' := by simpa [hslices, hloggable] using h
          simp [hextend]

/-- A panic is the record's doing, whatever is in the buffer. -/
theorem handle_eq_none_iff {buffer : Bytes} {call : Handled} :
    handle buffer call = none ↔ ¬ fileLen call.log ≤ messageLen call.log := by
  rw [handle, Option.map_eq_none_iff, doLog_eq_none_iff, Nat.not_le]

/-- The records `do_log` is called with on one thread: a panic of the slices ends it. -/
def reached : List Handled → List Handled
  | [] => []
  | call :: calls =>
      if fileLen call.log ≤ messageLen call.log then call :: reached calls else [call]

theorem reached_ne_nil (call : Handled) (calls : List Handled) : reached (call :: calls) ≠ [] := by
  rw [reached]
  split <;> exact List.cons_ne_nil _ _

/-- **When logcat output has no memory.**  Among the records a thread handles, every one starts with
an empty buffer exactly when each but the last has been loggable. -/
theorem noMemory_iff (calls : List Handled) :
    StepsMeet handle NoMemory [] calls ↔
      ∀ call ∈ (reached calls).dropLast, call.isLoggable = true := by
  induction calls with
  | nil => simp [StepsMeet, reached]
  | cons call calls ih =>
      rw [reached]
      cases hnext : handle [] call with
      | none =>
          rw [if_neg (handle_eq_none_iff.1 hnext)]
          simp [StepsMeet, hnext, noMemory_nil]
      | some next =>
          have hle : fileLen call.log ≤ messageLen call.log := by
            by_contra hle
            exact Option.some_ne_none next (hnext.symm.trans (handle_eq_none_iff.2 hle))
          have hclear := handle_eq_nil_iff hnext
          have hmeet : StepsMeet handle NoMemory [] (call :: calls) ↔
              StepsMeet handle NoMemory next calls := by
            refine ⟨fun h => h.2 next hnext, fun h => ⟨noMemory_nil call, fun t ht => ?_⟩⟩
            exact Option.some.inj (hnext.symm.trans ht) ▸ h
          rw [if_pos hle, hmeet]
          cases calls with
          | nil => simp [StepsMeet, reached]
          | cons call' calls =>
              rw [List.dropLast_cons_of_ne_nil (reached_ne_nil call' calls), List.forall_mem_cons,
                ← hclear]
              constructor
              · intro h
                obtain rfl := h.1.empty
                exact ⟨rfl, ih.1 h⟩
              · rintro ⟨rfl, hloggable⟩
                exact ih.2 hloggable

/-- A filtered record of one context, then a record of another that goes out. -/
def filteredFirst : List Handled :=
  [⟨{ Scenario.log "hidden" with tag := some "A".toList }, false⟩,
    ⟨{ Scenario.log "shown" with tag := some "B".toList }, true⟩]

/-- The second record is sent with the tag and the text of the first. -/
theorem filteredFirst_leaks :
    (¬ ∀ calls, StepsMeet handle NoMemory [] calls) ∧
      (handle [] ⟨{ Scenario.log "hidden" with tag := some "A".toList }, false⟩).bind (fun buffer =>
          handed buffer ⟨{ Scenario.log "shown" with tag := some "B".toList }, true⟩) =
        some (some (.writeLogMessage .info (Str.utf8 "A".toList) [] 0
          (Str.utf8 "[:0:0 @ ] hidden".toList))) := by
  refine ⟨fun hall => ?_, by decide +kernel⟩
  have hmeet := hall filteredFirst
  obtain ⟨buffer, hbuffer⟩ :
      ∃ buffer, handle [] ⟨{ Scenario.log "hidden" with tag := some "A".toList }, false⟩ =
        some buffer := Option.isSome_iff_exists.1 (by decide +kernel)
  have hclear := (handle_eq_nil_iff hbuffer).1 (hmeet.2 buffer hbuffer).1.empty
  cases hclear

end LogcatLogger

end Paperlog
