import Paperlog.Model.PathComponents
import Paperlog.Model.System

/-!
# Inputs for concrete runs

The small configurations the witnesses and the counterexamples of the properties are evaluated on:
the default configuration on an empty disk, records that differ in their message only, and the
schedules in which one thread takes several steps in a row.
-/

namespace Paperlog.Scenario

def time : DateTime := ⟨0, "1970-01-01 00:00:00".toList⟩

def log (message : String) : LogData := { LogData.default time with message := message.toList }

/-- The working directory is the root, and there are no links. -/
abbrev resolve : PathBuf → Place := PathBuf.place [.rootDir]

def disk : Disk resolve := ⟨fun _ => none⟩

def logPath : PathBuf := "./logs/paper.log".toList

/-- A record of the context `T`. -/
def tagged (message : String) : LogData := { log message with tag := some "T".toList }

/-- The context as `new` creates it, with the disk it leaves. -/
def created : Disk resolve × LoggerThreadCtx BufWriter :=
  ((disk.create logPath).1, .ofGlobalFile .default (disk.create logPath).2)

/-- The booted logger with the given programs, on the empty disk. -/
def start {Tid : Type} (config : LoggerConfig) (todo : Tid → List Call) :
    Sys (Disk resolve) BufWriter Tid :=
  .start (disk.create logPath).1
    { config, inited := true, globalFile := (disk.create logPath).2, contextMap := [], sinks := [] }
    todo

/-- Caller `t` takes `n` steps. -/
def callerSteps {Tid : Type} (t : Tid) (n : ℕ) : List (Action Tid) := List.replicate n (.caller t)

/-- The logging thread takes `n` steps, and every sink called answers `Ok`. -/
def logThreadSteps {Tid : Type} (n : ℕ) : List (Action Tid) :=
  List.replicate n (.logThread (.ok ()) time)

/-- The logging thread takes `n` steps, and every sink called answers with this error. -/
def failingSteps {Tid : Type} (e : LoggerError) (n : ℕ) : List (Action Tid) :=
  List.replicate n (.logThread (.error e) time)

theorem sinkOk_callerSteps {Tid : Type} (t : Tid) (n : ℕ) :
    ∀ a ∈ callerSteps t n, a.SinkOk := by
  intro a ha
  rw [List.eq_of_mem_replicate ha]
  trivial

theorem sinkOk_logThreadSteps {Tid : Type} (n : ℕ) :
    ∀ a ∈ (logThreadSteps n : List (Action Tid)), a.SinkOk := by
  intro a ha
  rw [List.eq_of_mem_replicate ha]
  exact rfl

end Paperlog.Scenario
