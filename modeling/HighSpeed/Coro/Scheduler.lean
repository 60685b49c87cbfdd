import Mathlib.Logic.Function.Basic
import HighSpeed.Lib.Run

/-!
`Scheduler` of `coro/Scheduler.hpp` after `run()`, with its workers, the threads that call
`add_coroutine` and one call of `stop()`, as an interleaving of atomic steps.
-/

namespace HighSpeed

namespace Scheduler

inductive WorkerPc where
  | top
  | locking
  | checking
  | counting
  | blocking
  | blocked
  | woken
  | uncounting
  | exitCheck
  | popping
  | resuming (coro : Nat)
  | exited
  | aborted
  deriving DecidableEq

inductive ClientPc where
  | idle
  | pushing (coro : Nat)
  | notifying
  | incrementing
  deriving DecidableEq

inductive StopPc where
  | idle
  | notifying
  | joining (index : Nat)
  | done
  deriving DecidableEq

structure State where
  lockedBy : Option Nat
  corotines : List Nat
  running : Bool
  waitingThreads : Nat
  taskNum : Nat
  workers : Nat → WorkerPc
  clients : Nat → ClientPc
  stopper : StopPc
  resumed : List Nat

/-- Right after `run()`: `running_` set and the workers at the head of their loops. -/
def initial : State := ⟨none, [], true, 0, 0, fun _ => .top, fun _ => .idle, .idle, []⟩

namespace State

section
@[local simp]
def setWorker (s : State) (worker : Nat) (pc : WorkerPc) : State :=
  { s with workers := Function.update s.workers worker pc }
end

def setClient (s : State) (client : Nat) (pc : ClientPc) : State :=
  { s with clients := Function.update s.clients client pc }

section
@[local simp]
def pop (s : State) (worker : Nat) : State :=
  match s.corotines with
  | coro :: rest =>
      { s with corotines := rest, taskNum := s.taskNum - 1, lockedBy := none }.setWorker worker
        (.resuming coro)
  | [] => s.setWorker worker .aborted
end

end State

section
@[local simp]
def workerStep (s : State) (worker : Nat) : Option State :=
  match s.workers worker with
  | .top => some (s.setWorker worker (if s.running || 0 < s.taskNum then .locking else .exited))
  | .locking =>
      if s.lockedBy = none then some ({ s with lockedBy := some worker }.setWorker worker .checking)
      else none
  | .checking =>
      some (s.setWorker worker (if s.taskNum = 0 ∧ s.running then .counting else .exitCheck))
  | .counting =>
      some ({ s with waitingThreads := s.waitingThreads + 1 }.setWorker worker .blocking)
  | .blocking => some ({ s with lockedBy := none }.setWorker worker .blocked)
  | .blocked => none
  | .woken =>
      if s.lockedBy = none then some ({ s with lockedBy := some worker }.setWorker worker .uncounting)
      else none
  | .uncounting =>
      some ({ s with waitingThreads := s.waitingThreads - 1 }.setWorker worker .checking)
  | .exitCheck =>
      if s.taskNum = 0 ∧ s.running = false then
        some ({ s with lockedBy := none }.setWorker worker .exited)
      else some (s.setWorker worker .popping)
  | .popping => some (s.pop worker)
  | .resuming coro => some ({ s with resumed := s.resumed ++ [coro] }.setWorker worker .top)
  | .exited => none
  | .aborted => none
end

inductive Label where
  | worker (index : Nat)
  | addCoroutine (client coro : Nat)
  | push (client : Nat)
  | notifyOne (client worker : Nat)
  | notifySkip (client : Nat)
  | increment (client : Nat)
  | stopStore
  | stopNotify
  | stopJoin

section
@[local simp]
def step (threadsNum : Nat) (s : State) : Label → Option State
  | .worker index => if index < threadsNum then workerStep s index else none
  | .addCoroutine client coro =>
      if s.clients client = .idle ∧ s.running = true then some (s.setClient client (.pushing coro))
      else none
  | .push client =>
      match s.clients client, s.lockedBy with
      | .pushing coro, none =>
          some ({ s with corotines := s.corotines ++ [coro] }.setClient client .notifying)
      | _, _ => none
  | .notifyOne client worker =>
      if s.clients client = .notifying ∧ 0 < s.waitingThreads ∧ worker < threadsNum ∧
          s.workers worker = .blocked then
        some ((s.setWorker worker .woken).setClient client .incrementing)
      else none
  | .notifySkip client =>
      if s.clients client = .notifying ∧ (s.waitingThreads = 0 ∨
          ∀ worker, worker < threadsNum → s.workers worker ≠ .blocked) then
        some (s.setClient client .incrementing)
      else none
  | .increment client =>
      if s.clients client = .incrementing then
        some ({ s with taskNum := s.taskNum + 1 }.setClient client .idle)
      else none
  | .stopStore =>
      match s.stopper with
      | .idle => some { s with running := false, stopper := .notifying }
      | _ => none
  | .stopNotify =>
      match s.stopper with
      | .notifying =>
          some { s with
            workers := fun worker => if s.workers worker = .blocked then .woken else s.workers worker
            stopper := .joining 0 }
      | _ => none
  | .stopJoin =>
      match s.stopper with
      | .joining index =>
          if index < threadsNum then
            if s.workers index = .exited then some { s with stopper := .joining (index + 1) }
            else none
          else some { s with stopper := .done }
      | _ => none
end

/-! ## Frame lemmas -/

namespace State

@[simp] theorem setWorker_clients (s : State) (worker : Nat) (pc : WorkerPc) :
    (s.setWorker worker pc).clients = s.clients := rfl

theorem pop_clients (s : State) (worker : Nat) : (s.pop worker).clients = s.clients := by
  unfold pop
  split <;> rfl

end State

theorem workerStep_clients {s t : State} {worker : Nat} (stepped : workerStep s worker = some t) :
    t.clients = s.clients := by
  unfold workerStep at stepped
  split at stepped
  · cases stepped
    rfl
  · split at stepped
    · cases stepped
      rfl
    · cases stepped
  · cases stepped
    rfl
  · cases stepped
    rfl
  · cases stepped
    rfl
  · cases stepped
  · split at stepped
    · cases stepped
      rfl
    · cases stepped
  · cases stepped
    rfl
  · split at stepped <;> cases stepped <;> rfl
  · cases stepped
    exact State.pop_clients s worker
  · cases stepped
    rfl
  · cases stepped
  · cases stepped

def Label.client? : Label → Option Nat
  | .addCoroutine client _ | .push client | .notifyOne client _ | .notifySkip client
  | .increment client => some client
  | .worker _ | .stopStore | .stopNotify | .stopJoin => none

theorem step_clients_other {threadsNum : Nat} {s t : State} {label : Label} {client : Nat}
    (other : label.client? ≠ some client) (stepped : step threadsNum s label = some t) :
    t.clients client = s.clients client := by
  have moved : ∀ mover pc, mover ≠ client → (s.setClient mover pc).clients client =
      s.clients client := fun mover pc different => Function.update_of_ne (Ne.symm different) _ _
  cases label with
  | worker index =>
      simp only [step] at stepped
      split at stepped
      · rw [workerStep_clients stepped]
      · cases stepped
  | addCoroutine mover _ | push mover | notifyOne mover _ | notifySkip mover | increment mover =>
      have different : mover ≠ client := fun same => other (by rw [same]; rfl)
      simp only [step] at stepped
      split at stepped
      · cases stepped
        exact moved mover _ different
      · cases stepped
  | stopStore | stopNotify =>
      simp only [step] at stepped
      split at stepped
      · cases stepped
        rfl
      · cases stepped
  | stopJoin =>
      simp only [step] at stepped
      split at stepped
      · split at stepped
        · split at stepped
          · cases stepped
            rfl
          · cases stepped
        · cases stepped
          rfl
      · cases stepped

theorem exec_clients_idle {threadsNum mover client : Nat} (different : client ≠ mover)
    {labels : List Label} (only : ∀ label ∈ labels, label.client? = none ∨ label.client? = some mover)
    {final : State} (ran : Run.exec (step threadsNum) initial labels = some final) :
    final.clients client = .idle := by
  refine Run.exec_preserves (step threadsNum) (fun s => s.clients client = .idle)
    (fun label => label.client? ≠ some client)
    (fun _ _ _ allowed idle stepped => (step_clients_other allowed stepped).trans idle)
    labels initial final (fun label member => ?_) rfl ran
  rcases only label member with none | moverOnly
  · rw [none]
    exact fun same => nomatch same
  · rw [moverOnly]
    exact fun same => different (Option.some.inj same).symm

/-! ## A coroutine left in the queue -/

/-- A coroutine is queued, every worker is blocked in `cv_.wait`, and no `add_coroutine` or
`stop()` call is under way to notify one. -/
def Stranded (threadsNum : Nat) (s : State) : Prop :=
  s.corotines ≠ [] ∧ (∀ worker, worker < threadsNum → s.workers worker = .blocked) ∧
    (∀ client, s.clients client = .idle) ∧ s.stopper = .idle

theorem stranded_enabled {threadsNum : Nat} {s t : State} (stranded : Stranded threadsNum s)
    {label : Label} (stepped : step threadsNum s label = some t) :
    (∃ client coro, label = .addCoroutine client coro) ∨ label = .stopStore := by
  obtain ⟨-, asleep, quiet, notStopped⟩ := stranded
  cases label with
  | worker index =>
      simp only [step] at stepped
      split at stepped
      · rename_i below
        simp [workerStep, asleep index below] at stepped
      · cases stepped
  | addCoroutine client coro => exact .inl ⟨client, coro, rfl⟩
  | push client => simp [step, quiet client] at stepped
  | notifyOne client worker => simp [step, quiet client] at stepped
  | notifySkip client => simp [step, quiet client] at stepped
  | increment client => simp [step, quiet client] at stepped
  | stopStore => exact .inr rfl
  | stopNotify => simp [step, notStopped] at stepped
  | stopJoin => simp [step, notStopped] at stepped

/-- The one worker blocks; `add_coroutine` pushes and, seeing `waiting_threads_ == 1`, wakes it;
the worker takes `mtx_`, still finds `task_num_ == 0` and blocks again; only then is `task_num_`
incremented. The coroutine stays queued, and nothing but another `add_coroutine` or `stop()`
can move the scheduler. -/
theorem coroutine_stranded :
    ∃ stuck, Run.exec (step 1) initial
        [.worker 0, .worker 0, .worker 0, .worker 0, .worker 0, .addCoroutine 0 7, .push 0,
          .notifyOne 0 0, .worker 0, .worker 0, .worker 0, .worker 0, .worker 0,
          .increment 0] = some stuck ∧
      stuck.corotines = [7] ∧ stuck.taskNum = 1 ∧ Stranded 1 stuck ∧
      ∀ label later, step 1 stuck label = some later →
        (∃ client coro, label = .addCoroutine client coro) ∨ label = .stopStore := by
  obtain ⟨stuck, reached, queued, counted, asleep, callerDone, notStopped⟩ :
      ∃ stuck, Run.exec (step 1) initial
        [.worker 0, .worker 0, .worker 0, .worker 0, .worker 0, .addCoroutine 0 7, .push 0,
          .notifyOne 0 0, .worker 0, .worker 0, .worker 0, .worker 0, .worker 0,
          .increment 0] = some stuck ∧ stuck.corotines = [7] ∧ stuck.taskNum = 1 ∧
        stuck.workers 0 = .blocked ∧ stuck.clients 0 = .idle ∧ stuck.stopper = .idle :=
    ⟨_, rfl, rfl, rfl, rfl, rfl, rfl⟩
  have quiet : ∀ client, stuck.clients client = .idle := by
    intro client
    by_cases zero : client = 0
    · rw [zero]
      exact callerDone
    · exact exec_clients_idle zero (by simp [Label.client?]) reached
  have stranded : Stranded 1 stuck := by
    refine ⟨by rw [queued]; exact List.cons_ne_nil 7 [], fun worker below => ?_, quiet, notStopped⟩
    rw [Nat.lt_one_iff.mp below]
    exact asleep
  exact ⟨stuck, reached, queued, counted, stranded,
    fun _ _ stepped => stranded_enabled stranded stepped⟩

end Scheduler

end HighSpeed
