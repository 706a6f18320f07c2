import Mathlib.Data.List.Basic
import Paperlog.Model.LogData

/-!
# Backtraces (`shared/backtrace.hpp`)

`captureBacktrace` lets the unwinder call `unwindCallback` for one frame of the stack after another;
the callback puts the program counters that are not null into the buffer until it is full.
`Backtrace` then walks the buffer.  An entry of the buffer nobody has written is `none`, and a
backtrace that looks at such an entry is `none` as a whole.

Pointers have `w` bits.  What the dynamic linker, the demangler and the file system answer about an
address is the argument `Symbols`.
-/

namespace Paperlog

/-- The two answers of `unwindCallback`. -/
inductive UnwindReasonCode
  | noReason
  | endOfStack
  deriving DecidableEq

variable {w : ℕ}

/-- `BacktraceState`: what stands in the buffer between its beginning and `current`, and how many
entries there are up to `end`. -/
structure BacktraceState (w : ℕ) where
  captured : List (BitVec w)
  max : ℕ

/-- `unwindCallback`, for a frame with program counter `pc`. -/
def unwindCallback (pc : BitVec w) (state : BacktraceState w) :
    UnwindReasonCode × BacktraceState w :=
  if pc ≠ 0 then
    if state.captured.length = state.max then (.endOfStack, state)
    else (.noReason, { state with captured := state.captured ++ [pc] })
  else (.noReason, state)

/-- `_Unwind_Backtrace`: from the innermost frame outwards, until the callback stops it. -/
def unwindBacktrace : List (BitVec w) → BacktraceState w → BacktraceState w
  | [], state => state
  | pc :: pcs, state =>
      match unwindCallback pc state with
      | (.noReason, state) => unwindBacktrace pcs state
      | (.endOfStack, state) => state

/-- `captureBacktrace`: the entries it writes, whose number it returns. -/
def captureBacktrace (stack : List (BitVec w)) (max : UInt16) : List (BitVec w) :=
  (unwindBacktrace stack { captured := [], max := max.toNat }).captured

/-- `Dl_info`. -/
structure DlInfo (w : ℕ) where
  fname : Str
  fbase : BitVec w
  sname : Option Str
  saddr : BitVec w

structure Symbols (w : ℕ) where
  /-- `dladdr`. -/
  dladdr : BitVec w → Option (DlInfo w)
  /-- `abi::__cxa_demangle`, where its status is zero. -/
  demangle : Str → Option Str
  /-- `getBuildId`. -/
  getBuildId : Str → Option Str

/-- What the line of a frame prints. -/
structure FrameReport (w : ℕ) where
  index : ℕ
  addr : BitVec w
  fname : Str
  /-- The name of the function and, when it is less than 10000, the offset in it. -/
  symbol : Option (Str × Option (BitVec w))
  buildId : Option Str
  deriving DecidableEq

/-- The body of the loop of `Backtrace`, once the entry is read. -/
def frameReport (symbols : Symbols w) (index : ℕ) (pc : BitVec w) : Option (FrameReport w) :=
  (symbols.dladdr pc).map fun info =>
    let offset := pc - info.saddr - 4
    { index
      addr := pc - info.fbase - 4
      fname := info.fname
      symbol := info.sname.map fun sname =>
        ((symbols.demangle sname).getD sname, if offset.toNat < 10000 then some offset else none)
      buildId := symbols.getBuildId info.fname }

/-- The lines of a backtrace; all are logged with the same tag. -/
inductive BacktraceLine (w : ℕ)
  /-- "Printing backtrace with: {} max lines:" -/
  | header (frameCount : UInt16)
  | stars
  /-- "pid: {}, tid: {}" -/
  | ids (pid tid : ℤ)
  | frame (report : FrameReport w)
  deriving DecidableEq

namespace Backtrace

/-- `buffer` after the capture. -/
def buffer (stack : List (BitVec w)) (frameCount : UInt16) : List (Option (BitVec w)) :=
  let captured := captureBacktrace stack (frameCount + 1)
  captured.map some ++ List.replicate (frameCount.toNat + 1 - captured.length) none

/-- The entries the loop reads, in order. -/
def reads (stack : List (BitVec w)) (frameCount : UInt16) : List (Option (BitVec w)) :=
  (List.range frameCount.toNat).map fun i => (buffer stack frameCount)[i + 1]?.join

/-- The lines of the frames. -/
def frameLines (symbols : Symbols w) (pcs : List (BitVec w)) : List (BacktraceLine w) :=
  (pcs.zipIdx.filterMap fun (pc, i) => frameReport symbols i pc).map .frame

end Backtrace

/-- `Logger::Backtrace`. -/
def backtrace (symbols : Symbols w) (pid tid : ℤ) (stack : List (BitVec w)) (frameCount : UInt16) :
    Option (List (BacktraceLine w)) :=
  if frameCount ≤ 0 then some []
  else do
    let pcs ← (Backtrace.reads stack frameCount).mapM id
    pure ([.header frameCount, .stars, .ids pid tid] ++ Backtrace.frameLines symbols pcs)

end Paperlog
