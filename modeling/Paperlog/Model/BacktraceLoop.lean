import Paperlog.Framework.Delimited
import Paperlog.Framework.Memo
import Paperlog.Model.Backtrace
import Paperlog.Model.BuildId

/-!
# The loop of `Backtrace` (`shared/backtrace.hpp`)

`backtrace` in `Model/Backtrace.lean` asks for the build id of a frame's object anew for every frame.
The loop here keeps the `std::map` of the source, whose keys are the pointers `dli_fname` and not the
names; what such a pointer points at, and what is in the file of that name, is the argument `Process`.
Where `getBuildId` is undefined, so is the backtrace.

`BacktraceLine.text` are the messages, as `fmt` prints them.
-/

namespace Paperlog

variable {w : ℕ}

/-- `Dl_info`, with the pointer `dli_fname`. -/
structure DlAddr (w : ℕ) where
  fname : BitVec w
  fbase : BitVec w
  sname : Option Str
  saddr : BitVec w

structure Process (w : ℕ) where
  /-- `dladdr`. -/
  dladdr : BitVec w → Option (DlAddr w)
  /-- What a pointer points at, read as a C string. -/
  cString : BitVec w → Str
  /-- `abi::__cxa_demangle`, where its status is zero. -/
  demangle : Str → Option Str
  /-- The contents of a file, if it can be opened. -/
  file : Str → Option Bytes

namespace Process

variable (process : Process w) (cls : ElfClass)

/-- What `buildIds` gets for a pointer that is not among its keys. -/
def searchBuildId (fname : BitVec w) : Option (Option Str) :=
  getBuildId cls (process.file (process.cString fname))

/-- One line of the loop, once the build id is known. -/
def frameReport (index : ℕ) (pc : BitVec w) (info : DlAddr w) (buildId : Option Str) :
    FrameReport w :=
  let offset := pc - info.saddr - 4
  { index
    addr := pc - info.fbase - 4
    fname := process.cString info.fname
    symbol := info.sname.map fun sname =>
      ((process.demangle sname).getD sname, if offset.toNat < 10000 then some offset else none)
    buildId }

/-- The body of the loop, once the entry is read: the line it prints, if any, and `buildIds`. -/
def frameTurn (index : ℕ) (pc : BitVec w) (buildIds : Memo.Table (BitVec w) (Option Str)) :
    Option (List (FrameReport w) × Memo.Table (BitVec w) (Option Str)) :=
  match process.dladdr pc with
  | none => some ([], buildIds)
  | some info => do
      let (buildId, buildIds) ← Memo.get (process.searchBuildId cls) buildIds info.fname
      pure ([process.frameReport index pc info buildId], buildIds)

/-- The loop, from the entry with this index on. -/
def frameLoop : ℕ → List (BitVec w) → Memo.Table (BitVec w) (Option Str) →
    Option (List (FrameReport w) × Memo.Table (BitVec w) (Option Str))
  | _, [], buildIds => some ([], buildIds)
  | index, pc :: pcs, buildIds => do
      let (report, buildIds) ← process.frameTurn cls index pc buildIds
      let (reports, buildIds) ← frameLoop (index + 1) pcs buildIds
      pure (report ++ reports, buildIds)

/-- `Logger::Backtrace`, and `buildIds` in the end. -/
def backtrace (pid tid : ℤ) (stack : List (BitVec w)) (frameCount : UInt16) :
    Option (List (BacktraceLine w) × Memo.Table (BitVec w) (Option Str)) :=
  if frameCount ≤ 0 then some ([], [])
  else do
    let pcs ← (Backtrace.reads stack frameCount).mapM id
    let (reports, buildIds) ← process.frameLoop cls 0 pcs []
    pure ([.header frameCount, .stars, .ids pid tid] ++ reports.map .frame, buildIds)

/-- The process as `backtrace` in `Model/Backtrace.lean` sees it. -/
def symbols : Symbols w :=
  { dladdr := fun pc => (process.dladdr pc).map fun info =>
      { fname := process.cString info.fname
        fbase := info.fbase
        sname := info.sname
        saddr := info.saddr }
    demangle := process.demangle
    getBuildId := fun fname => (getBuildId cls (process.file fname)).join }

end Process

/-! ## The messages -/

namespace FrameReport

/-- What comes before the name of the object, each piece with what follows it. -/
def fields (report : FrameReport w) : List (Str × Str) :=
  [([], "      #".toList), ((decimal report.index).leftpad 2 '0', " pc ".toList),
    ((Nat.toDigits 16 report.addr.toNat).leftpad 16 '0', "  ".toList)]

/-- ` ({}+{})` or ` ({})`. -/
def symbolText (report : FrameReport w) : Str :=
  match report.symbol with
  | none => []
  | some (name, none) => " (".toList ++ name ++ ")".toList
  | some (name, some offset) =>
      " (".toList ++ name ++ "+".toList ++ decimal offset.toNat ++ ")".toList

/-- ` (BuildId: {})`. -/
def buildIdText (report : FrameReport w) : Str :=
  match report.buildId with
  | none => []
  | some buildId => " (BuildId: ".toList ++ buildId ++ ")".toList

def text (report : FrameReport w) : Str :=
  List.printFields report.fields (report.fname ++ report.symbolText ++ report.buildIdText)

end FrameReport

def BacktraceLine.text : BacktraceLine w → Str
  | header frameCount =>
      "Printing backtrace with: ".toList ++ decimal frameCount.toNat ++ " max lines:".toList
  | stars => "*** *** *** *** *** *** *** *** *** *** *** *** *** *** *** ***".toList
  | ids pid tid => "pid: ".toList ++ signedDecimal pid ++ ", tid: ".toList ++ signedDecimal tid
  | frame report => report.text

@[simp] theorem BacktraceLine.text_frame (report : FrameReport w) :
    (BacktraceLine.frame report).text = report.text := rfl

end Paperlog
