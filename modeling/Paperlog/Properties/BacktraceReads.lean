import Mathlib.Data.List.TakeDrop
import Paperlog.Model.Backtrace

/-!
# What a backtrace reads

`captureBacktrace` captures the first program counters of the stack that are not null, as many as it
is told there is room for (`captureBacktrace_eq`).  `Backtrace` does not look at the number it
returns: it reads `frameCount` entries behind the first one, written or not.
`readsCaptured_iff` says for which stacks and frame counts they are all written; the room itself is
`frameCount + 1` in 16 bits.
-/

namespace Paperlog

variable {w : ℕ}

theorem unwindCallback_zero (state : BacktraceState w) :
    unwindCallback 0 state = (.noReason, state) := by
  simp [unwindCallback]

theorem unwindCallback_full {pc : BitVec w} {state : BacktraceState w} (hpc : pc ≠ 0)
    (hfull : state.captured.length = state.max) :
    unwindCallback pc state = (.endOfStack, state) := by
  rw [unwindCallback, if_pos hpc, if_pos hfull]

theorem unwindCallback_room {pc : BitVec w} {state : BacktraceState w} (hpc : pc ≠ 0)
    (hroom : state.captured.length ≠ state.max) :
    unwindCallback pc state =
      (.noReason, { state with captured := state.captured ++ [pc] }) := by
  rw [unwindCallback, if_pos hpc, if_neg hroom]

theorem unwindBacktrace_eq (stack : List (BitVec w)) (state : BacktraceState w)
    (hroom : state.captured.length ≤ state.max) :
    (unwindBacktrace stack state).captured =
      state.captured ++ (stack.filter (· ≠ 0)).take (state.max - state.captured.length) := by
  induction stack generalizing state with
  | nil => simp [unwindBacktrace]
  | cons pc stack ih =>
      rw [unwindBacktrace]
      by_cases hpc : pc = 0
      · rw [List.filter_cons_of_neg (by simpa using hpc), hpc, unwindCallback_zero]
        exact ih state hroom
      · rw [List.filter_cons_of_pos (by simpa using hpc)]
        by_cases hfull : state.captured.length = state.max
        · rw [unwindCallback_full hpc hfull, hfull, Nat.sub_self]
          simp
        · rw [unwindCallback_room hpc hfull]
          have hleft : state.max - state.captured.length =
              (state.max - (state.captured.length + 1)) + 1 := by omega
          have hnext := ih { state with captured := state.captured ++ [pc] } (by simp; omega)
          rw [hleft, List.take_succ_cons]
          simpa using hnext

/-- **What is captured**: the program counters that are not null, as far as there is room. -/
theorem captureBacktrace_eq (stack : List (BitVec w)) (max : UInt16) :
    captureBacktrace stack max = (stack.filter (· ≠ 0)).take max.toNat := by
  rw [captureBacktrace, unwindBacktrace_eq _ _ (Nat.zero_le _)]
  rfl

namespace Backtrace

variable {stack : List (BitVec w)} {frameCount : UInt16}

theorem buffer_get (i : ℕ) :
    (buffer stack frameCount)[i]?.join = (captureBacktrace stack (frameCount + 1))[i]? := by
  rw [buffer]
  by_cases hi : i < (captureBacktrace stack (frameCount + 1)).length
  · simp [List.getElem?_append, hi]
  · rw [List.getElem?_append_right (by simpa using hi), List.getElem?_replicate,
      List.getElem?_eq_none (Nat.not_lt.mp hi)]
    split
    · rfl
    · rfl

/-- The reads, against what is captured. -/
theorem reads_eq (stack : List (BitVec w)) (frameCount : UInt16) :
    reads stack frameCount = (List.range frameCount.toNat).map fun i =>
      (captureBacktrace stack (frameCount + 1))[i + 1]? :=
  List.map_congr_left fun i _ => buffer_get (i + 1)

@[simp] theorem length_reads (stack : List (BitVec w)) (frameCount : UInt16) :
    (reads stack frameCount).length = frameCount.toNat := by
  simp [reads]

/-- Every entry read is written when there are enough behind the first. -/
theorem reads_eq_map_some
    (henough : frameCount.toNat + 1 ≤ (captureBacktrace stack (frameCount + 1)).length) :
    reads stack frameCount =
      (((captureBacktrace stack (frameCount + 1)).drop 1).take frameCount.toNat).map some := by
  rw [reads_eq]
  apply List.ext_getElem?
  intro i
  by_cases hi : i < frameCount.toNat
  · have hwritten : i + 1 < (captureBacktrace stack (frameCount + 1)).length := by omega
    simp [hi, List.getElem?_eq_getElem hwritten]
  · rw [List.getElem?_eq_none (by simpa using hi), List.getElem?_eq_none (by simp; omega)]

theorem mapM_id_map_some (pcs : List (BitVec w)) : (pcs.map some).mapM id = some pcs := by
  rw [List.mapM_map]
  exact List.mapM_pure.trans (congrArg some (List.map_id pcs))

/-- **A backtrace that reads what was captured**: no entry it reads is unwritten, it reads as many
as there are behind the first one, up to `frameCount`, and it prints those that resolve. -/
structure ReadsCaptured (stack : List (BitVec w)) (frameCount : UInt16) : Prop where
  written : ∀ entry ∈ reads stack frameCount, entry ≠ none
  count : (reads stack frameCount).length =
    min frameCount.toNat ((captureBacktrace stack (frameCount + 1)).length - 1)
  reported : ∀ (symbols : Symbols w) (pid tid : ℤ),
    backtrace symbols pid tid stack frameCount =
      some ([.header frameCount, .stars, .ids pid tid] ++ frameLines symbols
        (((captureBacktrace stack (frameCount + 1)).drop 1).take frameCount.toNat))

/-- The last entry read is the last one of the buffer. -/
theorem enough_of_written (hpos : 0 < frameCount.toNat)
    (hwritten : ∀ entry ∈ reads stack frameCount, entry ≠ none) :
    frameCount.toNat + 1 ≤ (captureBacktrace stack (frameCount + 1)).length := by
  have hlast : (captureBacktrace stack (frameCount + 1))[frameCount.toNat - 1 + 1]? ≠ none := by
    apply hwritten
    rw [reads_eq]
    exact List.mem_map_of_mem (List.mem_range.mpr (by omega))
  have hlt := mt List.getElem?_eq_none hlast
  omega

/-- How many entries are captured depends on the room, which is `frameCount + 1` in 16 bits. -/
theorem enough_iff (stack : List (BitVec w)) (frameCount : UInt16) :
    frameCount.toNat + 1 ≤ (captureBacktrace stack (frameCount + 1)).length ↔
      frameCount.toNat + 1 < 2 ^ 16 ∧ frameCount.toNat + 1 ≤ (stack.filter (· ≠ 0)).length := by
  have hmod : (frameCount + 1).toNat = (frameCount.toNat + 1) % 2 ^ 16 := UInt16.toNat_add _ _
  have hlt : frameCount.toNat < 2 ^ 16 := frameCount.toNat_lt
  rw [captureBacktrace_eq, List.length_take, hmod]
  omega

/-- **Backtrace reads captured frames exactly when** the stack has more than `frameCount` frames
with a program counter that is not null and `frameCount + 1` still fits 16 bits. -/
theorem readsCaptured_iff (stack : List (BitVec w)) (frameCount : UInt16) (hpos : 0 < frameCount) :
    ReadsCaptured stack frameCount ↔
      frameCount.toNat + 1 < 2 ^ 16 ∧ frameCount.toNat + 1 ≤ (stack.filter (· ≠ 0)).length := by
  have hposNat : 0 < frameCount.toNat := by simpa using UInt16.lt_iff_toNat_lt.mp hpos
  rw [← enough_iff]
  constructor
  · intro h
    exact enough_of_written hposNat h.written
  · intro henough
    have hreads := reads_eq_map_some henough
    refine ⟨?_, ?_, ?_⟩
    · intro entry hentry
      rw [hreads] at hentry
      obtain ⟨pc, -, rfl⟩ := List.mem_map.mp hentry
      exact Option.some_ne_none pc
    · rw [length_reads]
      omega
    · intro symbols pid tid
      have hnot : ¬ frameCount ≤ 0 := UInt16.not_le.mpr hpos
      rw [backtrace, if_neg hnot, hreads, mapM_id_map_some]
      rfl

/-- Three frames, one of them without a program counter, and room for one behind the first. -/
theorem readsCaptured_shallow : ReadsCaptured ([0x1000, 0, 0x2000] : List (BitVec 64)) 1 :=
  (readsCaptured_iff _ 1 (by decide)).mpr ⟨by decide, by decide⟩

/-- **One frame more than there are**: the second entry of the buffer is read and never written. -/
theorem onlyFrame_unwritten : ¬ ReadsCaptured ([0x1000] : List (BitVec 64)) 1 := by
  intro h
  have henough := enough_of_written (by decide) h.written
  rw [enough_iff] at henough
  exact absurd henough.2 (by decide)

/-- With the largest frame count there is no room at all. -/
theorem largest_unwritten (stack : List (BitVec w)) : ¬ ReadsCaptured stack 65535 := by
  intro h
  have henough := enough_of_written (by decide) h.written
  rw [enough_iff] at henough
  exact absurd henough.1 (by decide)

end Backtrace

end Paperlog
