import Paperlog.Model.Frames
import Paperlog.Model.Scenario
import Paperlog.Properties.Semaphore

/-!
# The queue semaphore of the running logger

The logging thread and its callers step through the critical sections of the queue semaphore on
their own account: their waits are program points of theirs, and a `wait_timeout` whose time is over
goes on in the same step.  Seen from the semaphore they are nevertheless threads that call `signal`,
`wait` and `wait_timeout`, as in `SemaphoreThreads`: `queueSemaphore_refines` says so for every run,
and what holds of every `SemaphoreLite` then holds of this one (`queueSemaphore_binary`).

A program is described here by what each party waits for at its program point: nothing, or the
semaphore, with or without a time limit.  `SemaphoreMove` are the ways one step of a party changes
that and the semaphore.
-/

namespace Paperlog

namespace SemaphoreThreads

variable {P : Type} [DecidableEq P]

/-- The thread waits exactly where the program says so; it is parked only inside the condvar. -/
def Agrees (sem : SemaphoreLite P) (p : P) (waits : Option Bool) (pc : SemaphorePc) : Prop :=
  match waits with
  | none => pc = .out ∧ p ∉ sem.condVar
  | some timed => pc = .waiting timed ∨ pc = .entering timed ∧ p ∉ sem.condVar

/-- The threads are a view of a program with this semaphore and these waits. -/
structure Views (j : SemaphoreThreads P) (sem : SemaphoreLite P) (waits : P → Option Bool) :
    Prop where
  sem_eq : j.sem = sem
  nodup : sem.condVar.Nodup
  agrees : ∀ p, Agrees sem p (waits p) (j.pcs p)

/-- One step of `p`, as the semaphore sees it. -/
inductive SemaphoreMove (p : P) (sem : SemaphoreLite P) :
    Option Bool → SemaphoreLite P → Option Bool → Prop
  | stay (waits) : SemaphoreMove p sem waits sem waits
  | call (timed) : SemaphoreMove p sem none sem (some timed)
  | signal : SemaphoreMove p sem none sem.signal none
  | take {timed} (hflag : sem.mutex = true) (hawake : p ∉ sem.condVar) :
      SemaphoreMove p sem (some timed) { sem with mutex := false } none
  | park {timed} (hflag : sem.mutex = false) (hawake : p ∉ sem.condVar) :
      SemaphoreMove p sem (some timed) { sem with condVar := p :: sem.condVar } (some timed)
  | spurious (waits) (hparked : p ∈ sem.condVar) : SemaphoreMove p sem waits (sem.unpark p) waits
  | timeout (hparked : p ∈ sem.condVar) : SemaphoreMove p sem (some true) (sem.unpark p) none

/-- Whoever waits for nothing may go on to wait or not. -/
theorem SemaphoreMove.of_none {p : P} {sem : SemaphoreLite P} (w : Option Bool) :
    SemaphoreMove p sem none sem w := by
  cases w with
  | none => exact .stay none
  | some timed => exact .call timed

/-- One step of some thread. -/
def Steps (j j' : SemaphoreThreads P) : Prop := ∃ a, j.step a = some j'

variable {sem sem' : SemaphoreLite P} {waits : P → Option Bool} {j : SemaphoreThreads P} {p : P}
  {w : Option Bool}

omit [DecidableEq P] in
/-- Whoever leaves the condvar still agrees. -/
theorem Agrees.mono {pc : SemaphorePc} (h : Agrees sem p w pc)
    (hleft : p ∈ sem'.condVar → p ∈ sem.condVar) : Agrees sem' p w pc := by
  cases w with
  | none => exact ⟨h.1, fun hp => h.2 (hleft hp)⟩
  | some timed => exact h.imp_right fun hentering => ⟨hentering.1, fun hp => hentering.2 (hleft hp)⟩

omit [DecidableEq P] in
theorem Agrees.out {pc : SemaphorePc} (h : Agrees sem p none pc) : pc = .out := h.1

omit [DecidableEq P] in
theorem Agrees.waiting {timed : Bool} {pc : SemaphorePc} (h : Agrees sem p (some timed) pc)
    (hparked : p ∈ sem.condVar) : pc = .waiting timed :=
  h.resolve_right fun hentering => hentering.2 hparked

/-- One thread moves, the others stay where they are. -/
theorem Views.update (h : Views j sem waits) {pc : SemaphorePc} {events : List (FlagEvent P)}
    (hnodup : sem'.condVar.Nodup) (hp : Agrees sem' p w pc)
    (hleft : ∀ q, q ≠ p → q ∈ sem'.condVar → q ∈ sem.condVar) :
    Views ⟨sem', Function.update j.pcs p pc, events⟩ sem' (Function.update waits p w) := by
  refine ⟨rfl, hnodup, fun q => ?_⟩
  show Agrees sem' q _ (Function.update j.pcs p pc q)
  by_cases hq : q = p
  · subst hq
    rw [Function.update_self, Function.update_self]
    exact hp
  · rw [Function.update_of_ne hq, Function.update_of_ne hq]
    exact (h.agrees q).mono (hleft q hq)

theorem step_check {timed : Bool} (h : Agrees j.sem p (some timed) (j.pcs p))
    (hawake : p ∉ j.sem.condVar) : j.step (.check p) = some (j.checkBy p timed) := by
  rcases h with hpc | ⟨hpc, -⟩
  · simp [step, hpc, hawake]
  · simp [step, hpc]

/-- **Every move is made by calls of the methods**: the threads can follow it. -/
theorem Views.move (h : Views j sem waits) (hmove : SemaphoreMove p sem (waits p) sem' w) :
    ∃ j', Relation.ReflTransGen Steps j j' ∧ Views j' sem' (Function.update waits p w) := by
  obtain rfl := h.sem_eq
  have hagrees := h.agrees p
  generalize hwaits : waits p = before at hmove hagrees
  cases hmove with
  | stay =>
      refine ⟨j, .refl, ?_⟩
      rw [← hwaits, Function.update_eq_self]
      exact h
  | call timed =>
      have hstep : j.step (.call p timed) =
          some ⟨j.sem, Function.update j.pcs p (.entering timed), j.events⟩ := by
        simp [step, hagrees.out]
      have hentering : Agrees j.sem p (some timed) (.entering timed) := .inr ⟨rfl, hagrees.2⟩
      exact ⟨_, .single ⟨_, hstep⟩, h.update h.nodup hentering fun _ _ => id⟩
  | signal =>
      have hstep : j.step (.signal p) =
          some ⟨j.sem.signal, Function.update j.pcs p .out, j.events ++ [.signal p]⟩ := by
        rw [← hagrees.out, Function.update_eq_self]
        simp [step, hagrees.out]
      have hout : Agrees j.sem.signal p none .out := ⟨rfl, List.not_mem_nil⟩
      have hleft : ∀ q, q ≠ p → q ∈ j.sem.signal.condVar → q ∈ j.sem.condVar := fun _ _ hq =>
        absurd hq List.not_mem_nil
      exact ⟨_, .single ⟨_, hstep⟩, h.update List.nodup_nil hout hleft⟩
  | take hflag hawake =>
      have hstep := step_check hagrees hawake
      rw [checkBy, SemaphoreLite.check_of_mutex hflag] at hstep
      exact ⟨_, .single ⟨_, hstep⟩, h.update h.nodup ⟨rfl, hawake⟩ fun _ _ => id⟩
  | park hflag hawake =>
      have hstep := step_check hagrees hawake
      rw [checkBy, SemaphoreLite.check_of_not_mutex hflag] at hstep
      have hnodup : (p :: j.sem.condVar).Nodup := List.nodup_cons.2 ⟨hawake, h.nodup⟩
      refine ⟨_, .single ⟨_, hstep⟩, h.update hnodup (.inl rfl) fun q hq hmem => ?_⟩
      exact (List.mem_cons.1 hmem).resolve_left hq
  | spurious _ hparked =>
      have hstep : j.step (.spurious p) =
          some ⟨j.sem.unpark p, Function.update j.pcs p (j.pcs p), j.events⟩ := by
        simp [step, hparked]
      refine ⟨_, .single ⟨_, hstep⟩, h.update (h.nodup.erase p) ?_ fun q _ => List.mem_of_mem_erase⟩
      exact hagrees.mono List.mem_of_mem_erase
  | timeout hparked =>
      -- Two steps of the method are one of the program.
      have hstep : j.step (.timeout p) =
          some ⟨j.sem.unpark p, Function.update j.pcs p .expired, j.events⟩ := by
        simp [step, hagrees.waiting hparked]
      have hleave : step ⟨j.sem.unpark p, Function.update j.pcs p .expired, j.events⟩ (.leave p) =
          some ⟨j.sem.unpark p, Function.update j.pcs p .out, j.events⟩ := by
        simp [step]
      have hout : Agrees (j.sem.unpark p) p none .out := ⟨rfl, h.nodup.not_mem_erase⟩
      exact ⟨_, .tail (.single ⟨_, hstep⟩) ⟨_, hleave⟩,
        h.update (h.nodup.erase p) hout fun q _ => List.mem_of_mem_erase⟩

omit [DecidableEq P] in
theorem views_start : Views (start : SemaphoreThreads P) .new fun _ => none :=
  ⟨rfl, List.nodup_nil, fun _ => ⟨rfl, List.not_mem_nil⟩⟩

/-- What holds of every semaphore holds along any steps. -/
theorem binary_of_steps {j' : SemaphoreThreads P} (h : Binary j)
    (hsteps : Relation.ReflTransGen Steps j j') : Binary j' := by
  induction hsteps with
  | refl => exact h
  | tail _ hstep ih =>
      obtain ⟨a, hstep⟩ := hstep
      exact binary_step ih hstep

end SemaphoreThreads

/-! ## The program points that wait -/

def CallerPc.waits : CallerPc → Option Bool
  | .waiting timed _ => some timed
  | _ => none

def LogThreadPc.waits : LogThreadPc → Option Bool
  | .waiting => some false
  | _ => none

namespace Sys

open Transition
open SemaphoreThreads (SemaphoreMove Steps Views Binary)

variable {W ω Tid : Type}

/-- What every party waits for on the queue semaphore. -/
def waits (s : Sys W ω Tid) : Party Tid → Option Bool := s.atPc LogThreadPc.waits CallerPc.waits

theorem waits_nextRecord (logs : List LogData) : (nextRecord logs).waits = none := by
  cases logs <;> rfl

variable [DecidableEq Tid] [FileIo W ω] {s s' : Sys W ω Tid}

/-- A caller makes one move with the queue semaphore. -/
theorem semaphoreMove_callerStep {t : Tid} (hstep : s.callerStep t = some s') :
    SemaphoreMove (.caller t) s.logSemaphore (s.waits (.caller t)) s'.logSemaphore
      (s'.waits (.caller t)) := by
  have move : ∀ {pc : CallerPc} {w : Option Bool}, (s.callers t).pc = pc →
      (s'.callers t).pc.waits = w →
      SemaphoreMove (.caller t) s.logSemaphore pc.waits s'.logSemaphore w →
      SemaphoreMove (.caller t) s.logSemaphore (s.waits (.caller t)) s'.logSemaphore
        (s'.waits (.caller t)) := by
    rintro pc w rfl rfl hmove
    exact hmove
  cases callerStep_sound hstep with
  | beginRead hpc htodo => exact move hpc (by simp [CallerPc.waits]) (.stay none)
  | beginWrite hpc htodo => exact move hpc (by simp [CallerPc.waits]) (.stay none)
  | enter hpc hlock => exact move hpc rfl (.of_none _)
  | next hpc => exact move hpc rfl (.of_none _)
  | signal hpc => exact move hpc (by simp [CallerPc.waits]) .signal
  | takeSignal hpc hflag =>
      have hawake := awake_of_callerStep hpc hstep
      exact move hpc (by simp [CallerPc.waits]) (.take hflag hawake)
  | park hpc hflag =>
      have hawake := awake_of_callerStep hpc hstep
      exact move hpc (by simp [CallerPc.waits]) (.park hflag hawake)
  | _ hpc => exact move hpc (by simp [CallerPc.waits]) (.stay none)

/-- So does the logging thread. -/
theorem semaphoreMove_logThreadStep {result : Except LoggerError Unit} {now : DateTime}
    (hstep : s.logThreadStep result now = some s') :
    SemaphoreMove .logThread s.logSemaphore (s.waits .logThread) s'.logSemaphore
      (s'.waits .logThread) := by
  have move : ∀ {pc : LogThreadPc} {w : Option Bool}, s.logThread.pc = pc →
      s'.logThread.pc.waits = w →
      SemaphoreMove .logThread s.logSemaphore pc.waits s'.logSemaphore w →
      SemaphoreMove .logThread s.logSemaphore (s.waits .logThread) s'.logSemaphore
        (s'.waits .logThread) := by
    rintro pc w rfl rfl hmove
    exact hmove
  cases logThreadStep_sound hstep with
  | take hpc =>
      refine move hpc ?_ (.stay none)
      simp only [takeQueue]
      split <;> rfl
  | sinksDone hpc hi => exact move hpc (waits_nextRecord _) (.stay none)
  | batch hpc hio => exact move hpc (waits_nextRecord _) (.stay none)
  | sleep hpc hqueue => exact move hpc rfl (.call false)
  | wake hpc hflag => exact move hpc rfl (.take hflag (awake_of_logThreadStep hpc hstep))
  | park hpc hflag =>
      exact move hpc (by rw [hpc]; rfl) (.park hflag (awake_of_logThreadStep hpc hstep))
  | _ hpc => exact move hpc rfl (.stay none)

theorem semaphoreMove_step {a : Action Tid} (hstep : s.step a = some s') :
    SemaphoreMove a.actor s.logSemaphore (s.waits a.actor) s'.logSemaphore (s'.waits a.actor) := by
  cases a with
  | caller t => exact semaphoreMove_callerStep hstep
  | logThread result now => exact semaphoreMove_logThreadStep hstep
  | spurious p =>
      cases step_sound hstep with
      | spurious hparked => exact .spurious _ hparked
  | timeout t =>
      have hover : s.waits (.caller t) = some true ∧ s'.waits (.caller t) = none ∧
          s'.logSemaphore = s.logSemaphore.unpark (.caller t) ∧
          .caller t ∈ s.logSemaphore.condVar := by
        cases step_sound hstep with
        | timeout hparked hpc =>
            exact ⟨by simp [waits, atPc, hpc, CallerPc.waits], by simp [waits, atPc, CallerPc.waits],
              rfl, hparked⟩
      obtain ⟨hbefore, hafter, hsem, hparked⟩ := hover
      rw [Action.actor, hbefore, hafter, hsem]
      exact .timeout hparked

/-- **Seen from its queue semaphore, the logger is threads on a `SemaphoreLite`**: every run of the
one is a run of the other. -/
theorem queueSemaphore_refines {w : W} {config : LoggerConfig} {logPath : PathBuf}
    {todo : Tid → List Call} {s₀ : Sys W ω Tid} {as : List (Action Tid)}
    (hboot : boot w config logPath todo = .ok s₀) (hrun : run step s₀ as = some s) :
    ∃ j, Relation.ReflTransGen Steps SemaphoreThreads.start j ∧ Views j s.logSemaphore s.waits := by
  have hstart : Views (SemaphoreThreads.start : SemaphoreThreads (Party Tid)) s₀.logSemaphore
      s₀.waits := by
    obtain ⟨w', globalFile, rfl⟩ := boot_ok hboot
    have hwaits : (start w' { config, inited := true, globalFile, contextMap := [], sinks := [] }
        todo : Sys W ω Tid).waits = fun _ => none := by
      funext p
      cases p <;> rfl
    rw [hwaits]
    exact SemaphoreThreads.views_start
  have hsim : ∀ (r : Sys W ω Tid) a r' (j : SemaphoreThreads (Party Tid)),
      Views j r.logSemaphore r.waits → step r a = some r' →
      ∃ j', Relation.ReflTransGen Steps j j' ∧ Views j' r'.logSemaphore r'.waits := by
    intro r a r' j h hstep
    rw [show r'.waits = _ from atPc_step _ _ hstep]
    exact h.move (semaphoreMove_step hstep)
  exact run_refines hsim hstart hrun

/-- **The queue semaphore is a binary semaphore** in every run of the logger: some run of threads
that call its methods has come to the same state.  So while its flag is up nobody is parked in it,
and whoever is parked is at a program point that waits. -/
theorem queueSemaphore_binary {w : W} {config : LoggerConfig} {logPath : PathBuf}
    {todo : Tid → List Call} {s₀ : Sys W ω Tid} {as : List (Action Tid)}
    (hboot : boot w config logPath todo = .ok s₀) (hrun : run step s₀ as = some s) :
    (∃ j, Relation.ReflTransGen Steps SemaphoreThreads.start j ∧ Views j s.logSemaphore s.waits ∧
      Binary j) ∧
      (s.logSemaphore.mutex = true → s.logSemaphore.condVar = []) ∧
      ∀ p ∈ s.logSemaphore.condVar, s.waits p ≠ none := by
  obtain ⟨j, hsteps, hviews⟩ := queueSemaphore_refines hboot hrun
  have hbinary := SemaphoreThreads.binary_of_steps SemaphoreThreads.binary_start hsteps
  refine ⟨⟨j, hsteps, hviews, hbinary⟩, hviews.sem_eq ▸ hbinary.awake, fun p hparked hnone => ?_⟩
  have hagrees := hviews.agrees p
  rw [hnone] at hagrees
  exact hagrees.2 hparked

/-- One thread logs, the other waits for a flush with a time limit. -/
def logAndTimedWait : Bool → List Call
  | false => [.read [.queueLog (Scenario.log "a")]]
  | true => [.read [.waitForFlushTimeout]]

/-- Both waiters are parked when the entry comes; the caller takes the signal, and the logging
thread parks again. -/
def waiterFirst : List (Action Bool) :=
  Scenario.logThreadSteps 8 ++ Scenario.callerSteps true 3 ++ Scenario.callerSteps false 4 ++
    Scenario.callerSteps true 1 ++ Scenario.logThreadSteps 1

theorem queueSemaphore_binary_waiterFirst :
    ∃ s, run step (Scenario.start .default logAndTimedWait) waiterFirst = some s ∧
      s.queue = [Scenario.log "a"] ∧ s.logSemaphore.condVar = [.logThread] ∧
      (∃ j, Relation.ReflTransGen Steps SemaphoreThreads.start j ∧
        Views j s.logSemaphore s.waits ∧ Binary j) ∧ s.waits .logThread ≠ none := by
  have hend : (run step (Scenario.start .default logAndTimedWait) waiterFirst).map
      (fun s => (s.queue, s.logSemaphore.condVar)) =
      some ([Scenario.log "a"], [.logThread]) := by
    decide +kernel
  obtain ⟨s, hrun, hs⟩ := Option.map_eq_some_iff.1 hend
  simp only [Prod.mk.injEq] at hs
  obtain ⟨hqueue, hparked⟩ := hs
  obtain ⟨hviews, -, hwaits⟩ := queueSemaphore_binary
    (boot_disk Scenario.disk .default Scenario.logPath logAndTimedWait) hrun
  exact ⟨s, hrun, hqueue, hparked, hviews, hwaits _ (hparked ▸ List.mem_singleton_self _)⟩

end Sys

end Paperlog
