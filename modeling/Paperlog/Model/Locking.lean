import Paperlog.Framework.RwLock
import Paperlog.Model.Frames

/-!
# The lock agrees with the program points

Each program point stands for one `Role` at the `RwLock`: inside a read section, waiting for the
write guard, inside a write section, or away from the lock.  Every step of a thread is a move of
that thread at the lock and leaves the roles of the others alone (`move_step`).  So the lock state
agrees with the roles after every step (`linked_step`), and exclusion between sections, which
`RwLock` carries by construction, becomes exclusion between program points.
-/

namespace Paperlog

open RwLock (Role)

def CallerPc.role : CallerPc → Role
  | .idle | .wantRead _ | .write .request _ => .out
  | .holding _ | .pushing _ _ | .signalling _ | .waiting _ _ => .reading
  | .write .await _ => .awaiting
  | .write .held _ => .writing

def LogThreadPc.role : LogThreadPc → Role
  | .reading _ => .reading
  | .write .await _ => .awaiting
  | .write .held _ => .writing
  | _ => .out

namespace Sys

theorem role_startOp (ops : List GuardedOp) : (startOp ops).role = .reading := by
  rcases ops with _ | ⟨op, ops⟩
  · rfl
  · cases op <;> rfl

theorem role_nextRecord (logs : List LogData) : (nextRecord logs).role = .out := by
  cases logs <;> rfl

variable {W ω Tid : Type}

/-- The role every party plays at its program point. -/
def role (s : Sys W ω Tid) : Party Tid → Role
  | .logThread => s.logThread.pc.role
  | .caller t => (s.callers t).pc.role

theorem role_eq_atPc (s : Sys W ω Tid) : s.role = s.atPc LogThreadPc.role CallerPc.role := by
  funext p
  cases p <;> rfl

/-- The lock state agrees with the program points. -/
def Linked (s : Sys W ω Tid) : Prop := s.lock.Linked s.role

variable [DecidableEq Tid] {s s' : Sys W ω Tid} [FileIo W ω]

/-- A caller makes one move with the lock. -/
theorem move_callerStep {t : Tid} (hstep : CallerStep s t s') :
    RwLock.Move (.caller t) s.lock (s.role (.caller t)) s'.lock (s'.role (.caller t)) := by
  have move : ∀ {r r' : Role}, s.role (.caller t) = r → s'.role (.caller t) = r' →
      RwLock.Move (.caller t) s.lock r s'.lock r' →
      RwLock.Move (.caller t) s.lock (s.role (.caller t)) s'.lock (s'.role (.caller t)) := by
    rintro r r' rfl rfl hmove
    exact hmove
  have before : ∀ {pc : CallerPc}, (s.callers t).pc = pc → s.role (.caller t) = pc.role := by
    rintro pc rfl
    rfl
  cases hstep with
  | beginRead hpc htodo => exact .of_eq (by simp [role, hpc, CallerPc.role]) rfl
  | beginWrite hpc htodo => exact .of_eq (by simp [role, hpc, CallerPc.role]) rfl
  | enter hpc hlock =>
      exact move (before hpc) (by simpa [role] using role_startOp _) (.read hlock)
  | leave hpc => exact move (before hpc) (by simp [role, CallerPc.role]) .leave
  | next hpc =>
      refine .of_eq ?_ rfl
      rw [before hpc]
      simpa [role, CallerPc.role] using role_startOp _
  | request hpc => exact move (before hpc) (by simp [role, CallerPc.role]) .request
  | grant hpc hlock => exact move (before hpc) (by simp [role, CallerPc.role]) (.write hlock)
  | register hpc hadd => exact move (before hpc) (by simp [role, CallerPc.role]) .release
  | registerFailed hpc hadd => exact move (before hpc) (by simp [role, CallerPc.role]) .release
  | unregister hpc => exact move (before hpc) (by simp [role, CallerPc.role]) .release
  | addSink hpc => exact move (before hpc) (by simp [role, CallerPc.role]) .release
  | _ hpc => exact .of_eq (by simp [role, hpc, CallerPc.role]) rfl

/-- So does the logging thread. -/
theorem move_logThreadStep {result : Except LoggerError Unit} {now : DateTime}
    (hstep : LogThreadStep s result now s') :
    RwLock.Move .logThread s.lock (s.role .logThread) s'.lock (s'.role .logThread) := by
  have move : ∀ {r r' : Role}, s.role .logThread = r → s'.role .logThread = r' →
      RwLock.Move .logThread s.lock r s'.lock r' →
      RwLock.Move .logThread s.lock (s.role .logThread) s'.lock (s'.role .logThread) := by
    rintro r r' rfl rfl hmove
    exact hmove
  have before : ∀ {pc : LogThreadPc}, s.logThread.pc = pc → s.role .logThread = pc.role := by
    rintro pc rfl
    rfl
  cases hstep with
  | take hpc =>
      refine .of_eq ?_ rfl
      rw [before hpc]
      simp only [role, takeQueue]
      split <;> rfl
  | enter hpc hlock => exact move (before hpc) rfl (.read hlock)
  | split hpc hsplit => exact move (before hpc) rfl .leave
  | splitPanic hpc hsplit => exact move (before hpc) rfl .leave
  | sinkFailed hpc hi hresult => exact move (before hpc) rfl .leave
  | errorSinkFailed hpc hi hresult => exact move (before hpc) rfl .leave
  | sinksDone hpc hi => exact move (before hpc) (role_nextRecord _) .leave
  | errorSinksDone hpc hi => exact move (before hpc) rfl .leave
  | request hpc => exact move (before hpc) rfl .request
  | grant hpc hlock => exact move (before hpc) rfl (.write hlock)
  | batch hpc hio => exact move (before hpc) (role_nextRecord _) .release
  | batchFailed hpc hio => exact move (before hpc) rfl .release
  | flush hpc hio => exact move (before hpc) rfl .release
  | flushFailed hpc hio => exact move (before hpc) rfl .release
  | errorFlushFailed hpc hio => exact move (before hpc) rfl .release
  | errorRecord hpc hio => exact move (before hpc) rfl .release
  | errorRecordFailed hpc hio => exact move (before hpc) rfl .release
  | park hpc hflag => exact .of_eq rfl rfl
  | _ hpc => exact .of_eq (by rw [before hpc]; rfl) rfl

/-- **Every step is one move of the thread that takes it**, and no other role changes. -/
theorem move_step {a : Action Tid} (hstep : s.step a = some s') :
    RwLock.Move a.actor s.lock (s.role a.actor) s'.lock (s'.role a.actor) ∧
      s'.role = Function.update s.role a.actor (s'.role a.actor) := by
  constructor
  · cases step_sound hstep with
    | caller hcaller => exact move_callerStep hcaller
    | logThread hlog => exact move_logThreadStep hlog
    | spurious hparked => exact .stay _
    | timeout hparked hpc => exact .of_eq (by simp [Action.actor, role, hpc, CallerPc.role]) rfl
  · rw [role_eq_atPc, role_eq_atPc]
    exact atPc_step _ _ hstep

/-- **The lock agrees with the program points**, whatever happens. -/
theorem linked_step {a : Action Tid} (h : s.Linked) (hstep : s.step a = some s') : s'.Linked := by
  obtain ⟨hmove, hrole⟩ := move_step hstep
  rw [Linked, hrole]
  exact RwLock.Linked.move h hmove

omit [DecidableEq Tid] in
theorem linked_boot {w : W} {config : LoggerConfig} {logPath : PathBuf} {todo : Tid → List Call}
    (hboot : boot w config logPath todo = .ok s) : s.Linked := by
  obtain ⟨w', globalFile, rfl⟩ := boot_ok hboot
  apply RwLock.Linked.free_out
  intro p
  cases p <;> rfl

end Sys

end Paperlog
