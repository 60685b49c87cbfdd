import Mathlib.Logic.Function.Basic
import HighSpeed.Lib.Run

/-!
`ThreadPool` of `tools/ThreadPool.hpp` after `run()`, with its workers, the threads that call
`addTask` and one call of `stop()`, as an interleaving of atomic steps.
-/

namespace HighSpeed

namespace ThreadPool

inductive WorkerPc where
  | top
  | counting
  | checking
  | blocking
  | blocked
  | woken
  | uncounting
  | deciding
  | executing (task : Nat)
  | exited
deriving DecidableEq

inductive ClientPc where
  | idle
  | pushing (task : Nat)
  | notifying
deriving DecidableEq

inductive StopPc where
  | idle
  | notifying
  | joining (index : Nat)
  | clearing
  | done
deriving DecidableEq

structure State where
  lockedBy : Option Nat
  taskQueue : List Nat
  running : Bool
  waitingThreads : Nat
  taskNum : Nat
  workers : Nat → WorkerPc
  clients : Nat → ClientPc
  stopper : StopPc
  executed : List Nat
  enqueued : List Nat
  enqueuedLate : List Nat
  discarded : List Nat

/-- Right after `run()`: `running_` set and the workers at the head of their loops. -/
def initial : State :=
  ⟨none, [], true, 0, 0, fun _ => .top, fun _ => .idle, .idle, [], [], [], []⟩

namespace State

section
@[local simp]
def setWorker (s : State) (worker : Nat) (pc : WorkerPc) : State :=
  { s with workers := Function.update s.workers worker pc }
end

/-- The predicate of `cv_.wait` in `worker()`. -/
def wakeable (s : State) : Bool := !s.running || !s.taskQueue.isEmpty

section
/-- The block of `worker()` after the wait: the exit check, then the pop. -/
@[local simp]
def takeTask (s : State) (worker : Nat) : State :=
  let s := { s with lockedBy := none }
  if !s.running && s.taskQueue.isEmpty then s.setWorker worker .exited
  else
    match s.taskQueue with
    | task :: rest =>
        { s with taskQueue := rest, taskNum := s.taskNum - 1 }.setWorker worker (.executing task)
    | [] => s.setWorker worker .top
end

end State

section
@[local simp]
def workerStep (s : State) (worker : Nat) : Option State :=
  match s.workers worker with
  | .top => if s.lockedBy = none then some ({ s with lockedBy := some worker }.setWorker worker
      .counting) else none
  | .counting => some ({ s with waitingThreads := s.waitingThreads + 1 }.setWorker worker
      .checking)
  | .checking => some (s.setWorker worker (if s.wakeable then .uncounting else .blocking))
  | .blocking => some ({ s with lockedBy := none }.setWorker worker .blocked)
  | .blocked => none
  | .woken => if s.lockedBy = none then some ({ s with lockedBy := some worker }.setWorker worker
      .checking) else none
  | .uncounting => some ({ s with waitingThreads := s.waitingThreads - 1 }.setWorker worker
      .deciding)
  | .deciding => some (s.takeTask worker)
  | .executing task => some ({ s with executed := s.executed ++ [task] }.setWorker worker .top)
  | .exited => none
end

inductive Label where
  | worker (index : Nat)
  | addTask (client task : Nat)
  | push (client : Nat)
  | notifyOne (client worker : Nat)
  | notifySkip (client : Nat)
  | stopExchange
  | stopNotify
  | stopJoin
  | stopClear

section
@[local simp]
def step (threadsNum : Nat) (s : State) : Label → Option State
  | .worker index => if index < threadsNum then workerStep s index else none
  | .addTask client task =>
      match s.clients client with
      | .idle => some { s with clients := Function.update s.clients client (.pushing task) }
      | _ => none
  | .push client =>
      match s.clients client, s.lockedBy with
      | .pushing task, none =>
          some { s with
            taskQueue := s.taskQueue ++ [task]
            taskNum := s.taskNum + 1
            clients := Function.update s.clients client .notifying
            enqueued := if s.running then s.enqueued ++ [task] else s.enqueued
            enqueuedLate := if s.running then s.enqueuedLate else s.enqueuedLate ++ [task] }
      | _, _ => none
  | .notifyOne client worker =>
      if s.clients client = .notifying ∧ 0 < s.waitingThreads ∧ worker < threadsNum ∧
          s.workers worker = .blocked then
        some { (s.setWorker worker .woken) with
          clients := Function.update s.clients client .idle }
      else none
  | .notifySkip client =>
      if s.clients client = .notifying ∧ (s.waitingThreads = 0 ∨
          ∀ worker, worker < threadsNum → s.workers worker ≠ .blocked) then
        some { s with clients := Function.update s.clients client .idle }
      else none
  | .stopExchange =>
      match s.stopper with
      | .idle => some (if s.running then { s with running := false, stopper := .notifying }
          else { s with stopper := .done })
      | _ => none
  | .stopNotify =>
      match s.stopper with
      | .notifying =>
          some { s with
            workers := fun worker => if s.workers worker = .blocked then .woken else s.workers worker
            stopper := .joining 0 }
      | _ => none
  | .stopJoin =>
      match s.stopper with
      | .joining index =>
          if index < threadsNum then
            if s.workers index = .exited then some { s with stopper := .joining (index + 1) }
            else none
          else some { s with stopper := .clearing }
      | _ => none
  | .stopClear =>
      match s.stopper, s.lockedBy with
      | .clearing, none =>
          some { s with
            taskQueue := []
            taskNum := s.taskNum - s.taskQueue.length
            stopper := .done
            discarded := s.discarded ++ s.taskQueue }
      | _, _ => none
end

/-! ## A worker that sleeps through `stop()` -/

namespace State

@[simp] theorem setWorker_running (s : State) (worker : Nat) (pc : WorkerPc) :
    (s.setWorker worker pc).running = s.running := rfl

@[simp] theorem setWorker_stopper (s : State) (worker : Nat) (pc : WorkerPc) :
    (s.setWorker worker pc).stopper = s.stopper := rfl

@[simp] theorem setWorker_clients (s : State) (worker : Nat) (pc : WorkerPc) :
    (s.setWorker worker pc).clients = s.clients := rfl

theorem setWorker_other (s : State) {worker other : Nat} (different : other ≠ worker)
    (pc : WorkerPc) : (s.setWorker worker pc).workers other = s.workers other :=
  Function.update_of_ne different _ _

theorem takeTask_frame (s : State) (worker : Nat) :
    (s.takeTask worker).running = s.running ∧ (s.takeTask worker).stopper = s.stopper ∧
      (s.takeTask worker).clients = s.clients ∧
      ∀ other, other ≠ worker → (s.takeTask worker).workers other = s.workers other := by
  unfold takeTask
  dsimp only
  split
  · exact ⟨rfl, rfl, rfl, fun other different => setWorker_other _ different _⟩
  · split
    · exact ⟨rfl, rfl, rfl, fun other different => setWorker_other _ different _⟩
    · exact ⟨rfl, rfl, rfl, fun other different => setWorker_other _ different _⟩

end State

theorem workerStep_frame {s t : State} {worker : Nat} (stepped : workerStep s worker = some t) :
    t.running = s.running ∧ t.stopper = s.stopper ∧ t.clients = s.clients ∧
      ∀ other, other ≠ worker → t.workers other = s.workers other := by
  have oneWorker : ∀ (u : State) (pc : WorkerPc), u.workers = s.workers →
      ∀ other, other ≠ worker → (u.setWorker worker pc).workers other = s.workers other := by
    intro u pc same other different
    rw [State.setWorker_other u different, same]
  unfold workerStep at stepped
  split at stepped
  · split at stepped
    · cases stepped
      exact ⟨rfl, rfl, rfl, oneWorker _ _ rfl⟩
    · cases stepped
  · cases stepped
    exact ⟨rfl, rfl, rfl, oneWorker _ _ rfl⟩
  · cases stepped
    exact ⟨rfl, rfl, rfl, oneWorker _ _ rfl⟩
  · cases stepped
    exact ⟨rfl, rfl, rfl, oneWorker _ _ rfl⟩
  · cases stepped
  · split at stepped
    · cases stepped
      exact ⟨rfl, rfl, rfl, oneWorker _ _ rfl⟩
    · cases stepped
  · cases stepped
    exact ⟨rfl, rfl, rfl, oneWorker _ _ rfl⟩
  · cases stepped
    exact State.takeTask_frame s worker
  · cases stepped
    exact ⟨rfl, rfl, rfl, oneWorker _ _ rfl⟩
  · cases stepped

/-- Worker `worker` is blocked in `cv_.wait` with its predicate true, no `_addTask` is under
way to notify it, and `stop()` has notified and waits to join it. -/
def LostWakeup (threadsNum : Nat) (s : State) (worker : Nat) : Prop :=
  worker < threadsNum ∧ s.workers worker = .blocked ∧ s.running = false ∧
    (∃ index, index ≤ worker ∧ s.stopper = .joining index) ∧ ∀ client, s.clients client = .idle

theorem lostWakeup_step {threadsNum worker : Nat} {s t : State}
    (lost : LostWakeup threadsNum s worker) {label : Label}
    (noTask : ∀ client task, label ≠ .addTask client task)
    (stepped : step threadsNum s label = some t) : LostWakeup threadsNum t worker := by
  obtain ⟨bound, sleeping, stopped, ⟨index, before, joining⟩, quiet⟩ := lost
  cases label with
  | worker other =>
      simp only [step] at stepped
      split at stepped
      · obtain ⟨sameRunning, sameStopper, sameClients, othersKept⟩ := workerStep_frame stepped
        have different : worker ≠ other := by
          rintro rfl
          simp [workerStep, sleeping] at stepped
        refine ⟨bound, by rw [othersKept worker different, sleeping], by rw [sameRunning, stopped],
          ⟨index, before, by rw [sameStopper, joining]⟩, fun client => ?_⟩
        rw [sameClients]
        exact quiet client
      · cases stepped
  | addTask client task => exact absurd rfl (noTask client task)
  | push client | notifyOne client _ | notifySkip client =>
      simp only [step, quiet client] at stepped
      cases stepped
  | stopExchange | stopNotify | stopClear =>
      simp only [step, joining] at stepped
      cases stepped
  | stopJoin =>
      simp only [step, joining] at stepped
      have below : index < threadsNum := by omega
      have notReached : index ≠ worker := by
        rintro rfl
        simp [below, sleeping] at stepped
      simp only [below, if_true] at stepped
      split at stepped
      · cases stepped
        exact ⟨bound, sleeping, stopped, ⟨index + 1, by omega, rfl⟩, quiet⟩
      · cases stepped

/-- A worker checks its predicate while `running_` is still set; `stop()` then clears the flag
and calls `notify_all` before the worker blocks, so the notify finds no one. The other worker
sees the flag cleared and exits, and `stop()` waits to join the first one. From there, as long
as no `addTask` comes, the first worker sleeps and `stop()` does not return. -/
theorem stop_join_blocks :
    ∃ stuck, Run.exec (step 2) initial
        [.worker 0, .worker 0, .worker 0, .stopExchange, .stopNotify, .worker 0,
          .worker 1, .worker 1, .worker 1, .worker 1, .worker 1] = some stuck ∧
      LostWakeup 2 stuck 0 ∧
      ∀ labels later, (∀ label ∈ labels, ∀ client task, label ≠ .addTask client task) →
        Run.exec (step 2) stuck labels = some later →
          later.workers 0 = .blocked ∧ later.stopper = .joining 0 := by
  obtain ⟨stuck, reached, lost⟩ : ∃ stuck, Run.exec (step 2) initial
      [.worker 0, .worker 0, .worker 0, .stopExchange, .stopNotify, .worker 0,
        .worker 1, .worker 1, .worker 1, .worker 1, .worker 1] = some stuck ∧
      LostWakeup 2 stuck 0 :=
    ⟨_, rfl, by decide, rfl, rfl, ⟨0, Nat.le_refl 0, rfl⟩, fun _ => rfl⟩
  refine ⟨stuck, reached, lost, fun labels later noTask ran => ?_⟩
  have stillLost := Run.exec_preserves (step 2) (fun s => LostWakeup 2 s 0)
    (fun label => ∀ client task, label ≠ .addTask client task)
    (fun _ _ _ noTask lost stepped => lostWakeup_step lost noTask stepped) labels _ later noTask
    lost ran
  obtain ⟨-, sleeping, -, ⟨index, before, joining⟩, -⟩ := stillLost
  have first : index = 0 := by omega
  rw [first] at joining
  exact ⟨sleeping, joining⟩

end ThreadPool

end HighSpeed
