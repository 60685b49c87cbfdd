import Mathlib.Data.List.Perm.Subperm
import HighSpeed.Tools.ThreadPool

/-!
What `stop()` of `ThreadPool` does with the tasks, over every interleaving of the workers, the
`addTask` calls and one `stop()`.
-/

namespace HighSpeed

namespace ThreadPool

section
@[local simp]
def WorkerPc.task? : WorkerPc → Option Nat
  | .executing task => some task
  | _ => none

@[local simp]
def inFlight (threadsNum : Nat) (workers : Nat → WorkerPc) : List Nat :=
  (List.range threadsNum).filterMap (WorkerPc.task? ∘ workers)
end

section Accounting

variable {threadsNum : Nat}

theorem inFlight_update (workers : Nat → WorkerPc) {worker : Nat} (below : worker < threadsNum)
    (pc : WorkerPc) :
    (inFlight threadsNum (Function.update workers worker pc) ++ (workers worker).task?.toList).Perm
      (inFlight threadsNum workers ++ pc.task?.toList) := by
  unfold inFlight
  rw [Function.comp_update]
  exact Run.filterMap_update_perm _ worker pc.task? _ List.nodup_range (List.mem_range.mpr below)

theorem inFlight_congr {workers others : Nat → WorkerPc}
    (same : ∀ worker, (others worker).task? = (workers worker).task?) :
    inFlight threadsNum others = inFlight threadsNum workers :=
  List.filterMap_congr fun worker _ => same worker

theorem inFlight_update_quiet (workers : Nat → WorkerPc) {worker : Nat} {pc : WorkerPc}
    (before : (workers worker).task? = none) (after : pc.task? = none) :
    inFlight threadsNum (Function.update workers worker pc) = inFlight threadsNum workers := by
  refine inFlight_congr fun other => ?_
  by_cases same : other = worker
  · rw [same, Function.update_self, before, after]
  · rw [Function.update_of_ne same]

theorem inFlight_all_exited {workers : Nat → WorkerPc}
    (exited : ∀ worker, worker < threadsNum → workers worker = .exited) :
    inFlight threadsNum workers = [] := by
  unfold inFlight
  rw [List.filterMap_eq_nil_iff]
  intro worker member
  simp only [Function.comp_apply, exited worker (List.mem_range.mp member), WorkerPc.task?]

end Accounting

/-! ## What a worker's step does to the tasks -/

theorem workerStep_exited {s : State} {worker : Nat} (exited : s.workers worker = .exited) :
    workerStep s worker = none := by
  simp only [workerStep, exited]

theorem takeTask_cases (s : State) (worker : Nat) :
    (s.running = false ∧ s.taskQueue = [] ∧
        s.takeTask worker = { s with lockedBy := none }.setWorker worker .exited) ∨
      (∃ task rest, s.taskQueue = task :: rest ∧ s.takeTask worker =
        { s with lockedBy := none, taskQueue := rest, taskNum := s.taskNum - 1 }.setWorker worker
          (.executing task)) ∨
      (s.running = true ∧ s.taskQueue = [] ∧
        s.takeTask worker = { s with lockedBy := none }.setWorker worker .top) := by
  unfold State.takeTask
  cases queue : s.taskQueue with
  | nil =>
      cases running : s.running with
      | false => exact .inl ⟨rfl, rfl, rfl⟩
      | true => exact .inr (.inr ⟨rfl, rfl, rfl⟩)
  | cons task rest =>
      exact .inr (.inl ⟨task, rest, rfl, by simp⟩)

theorem workerStep_cases {s t : State} {worker : Nat} (stepped : workerStep s worker = some t) :
    (∃ pc lockedBy waitingThreads, (s.workers worker).task? = none ∧ pc.task? = none ∧
        pc ≠ .exited ∧
        t = { s with lockedBy := lockedBy, waitingThreads := waitingThreads }.setWorker worker pc) ∨
      (∃ task rest, (s.workers worker).task? = none ∧ s.taskQueue = task :: rest ∧
        t = { s with lockedBy := none, taskQueue := rest, taskNum := s.taskNum - 1 }.setWorker
          worker (.executing task)) ∨
      (∃ task, s.workers worker = .executing task ∧
        t = { s with executed := s.executed ++ [task] }.setWorker worker .top) ∨
      ((s.workers worker).task? = none ∧ s.running = false ∧ s.taskQueue = [] ∧
        t = { s with lockedBy := none }.setWorker worker .exited) := by
  unfold workerStep at stepped
  split at stepped
  next top =>
    split at stepped
    · cases stepped
      exact .inl ⟨.counting, some worker, s.waitingThreads, by rw [top]; rfl, rfl, by decide, rfl⟩
    · cases stepped
  next counting =>
    cases stepped
    exact .inl ⟨.checking, s.lockedBy, s.waitingThreads + 1, by rw [counting]; rfl, rfl, by decide,
      rfl⟩
  next checking =>
    cases stepped
    exact .inl ⟨if s.wakeable then .uncounting else .blocking, s.lockedBy, s.waitingThreads,
      by rw [checking]; rfl, by split <;> rfl, by split <;> decide, rfl⟩
  next blocking =>
    cases stepped
    exact .inl ⟨.blocked, none, s.waitingThreads, by rw [blocking]; rfl, rfl, by decide, rfl⟩
  next => cases stepped
  next woken =>
    split at stepped
    · cases stepped
      exact .inl ⟨.checking, some worker, s.waitingThreads, by rw [woken]; rfl, rfl, by decide, rfl⟩
    · cases stepped
  next uncounting =>
    cases stepped
    exact .inl ⟨.deciding, s.lockedBy, s.waitingThreads - 1, by rw [uncounting]; rfl, rfl,
      by decide, rfl⟩
  next deciding =>
    cases stepped
    have idle : (s.workers worker).task? = none := by rw [deciding]; rfl
    rcases takeTask_cases s worker with ⟨stopped, empty, exits⟩ | ⟨task, rest, queue, pops⟩ |
      ⟨_, _, loops⟩
    · exact .inr (.inr (.inr ⟨idle, stopped, empty, exits⟩))
    · exact .inr (.inl ⟨task, rest, idle, queue, pops⟩)
    · exact .inl ⟨.top, none, s.waitingThreads, idle, rfl, by decide, loops⟩
  next task executing =>
    cases stepped
    exact .inr (.inr (.inl ⟨task, executing, rfl⟩))
  next => cases stepped

namespace State

theorem setWorker_exited_iff (s : State) {worker : Nat} {pc : WorkerPc}
    (before : s.workers worker ≠ .exited) (after : pc ≠ .exited) (other : Nat) :
    (s.setWorker worker pc).workers other = .exited ↔ s.workers other = .exited := by
  by_cases same : other = worker
  · rw [same]
    simp only [setWorker, Function.update_self, before, after]
  · rw [setWorker_other s same]

theorem setWorker_exited_of_exited (s : State) (worker : Nat) {other : Nat}
    (exited : s.workers other = .exited) : (s.setWorker worker .exited).workers other = .exited := by
  by_cases same : other = worker
  · rw [same]
    exact Function.update_self worker WorkerPc.exited s.workers
  · rw [setWorker_other s same, exited]

end State

/-! ## The invariant -/

structure Drains (threadsNum : Nat) (s : State) : Prop where
  conserved : (s.enqueued ++ s.enqueuedLate).Perm
    (s.executed ++ inFlight threadsNum s.workers ++ s.discarded ++ s.taskQueue)
  counted : s.taskNum = s.taskQueue.length
  discardedLate : s.discarded.Subperm s.enqueuedLate
  idleRunning : s.stopper = .idle → s.running = true
  exitedDrained : ∀ worker, worker < threadsNum → s.workers worker = .exited →
    s.running = false ∧ s.enqueued.Subperm (s.executed ++ inFlight threadsNum s.workers)
  joined : ∀ index, s.stopper = .joining index →
    ∀ worker, worker < index → worker < threadsNum → s.workers worker = .exited
  allJoined : s.stopper = .clearing ∨ s.stopper = .done →
    ∀ worker, worker < threadsNum → s.workers worker = .exited

section Invariant

variable {threadsNum : Nat}

theorem initial_drains : Drains threadsNum initial := by
  have idle : inFlight threadsNum initial.workers = [] := by
    unfold inFlight
    rw [List.filterMap_eq_nil_iff]
    exact fun _ _ => rfl
  refine ⟨by rw [idle]; rfl, rfl, List.nil_subperm, fun _ => rfl, ?_, ?_, ?_⟩
  · intro worker _ exited
    cases exited
  · intro index joining
    cases joining
  · rintro (clearing | done)
    · cases clearing
    · cases done

theorem Drains.of_workers {s t : State} (inv : Drains threadsNum s)
    (running : t.running = s.running) (stopper : t.stopper = s.stopper)
    (enqueued : t.enqueued = s.enqueued) (enqueuedLate : t.enqueuedLate = s.enqueuedLate)
    (discarded : t.discarded = s.discarded)
    (exitedIff : ∀ worker, t.workers worker = .exited ↔ s.workers worker = .exited)
    (moved : (t.executed ++ inFlight threadsNum t.workers ++ t.taskQueue).Perm
      (s.executed ++ inFlight threadsNum s.workers ++ s.taskQueue))
    (counted : t.taskNum = t.taskQueue.length)
    (grows : (s.executed ++ inFlight threadsNum s.workers).Subperm
      (t.executed ++ inFlight threadsNum t.workers)) :
    Drains threadsNum t where
  conserved := by
    rw [enqueued, enqueuedLate, discarded, List.perm_iff_count]
    intro item
    have before := List.perm_iff_count.mp inv.conserved item
    have after := List.perm_iff_count.mp moved item
    simp only [List.count_append] at before after ⊢
    omega
  counted := counted
  discardedLate := by
    rw [discarded, enqueuedLate]
    exact inv.discardedLate
  idleRunning := by
    rw [stopper, running]
    exact inv.idleRunning
  exitedDrained := fun worker below exited => by
    obtain ⟨stopped, drained⟩ := inv.exitedDrained worker below ((exitedIff worker).mp exited)
    rw [running, enqueued]
    exact ⟨stopped, drained.trans grows⟩
  joined := fun index joining worker before below =>
    (exitedIff worker).mpr (inv.joined index (stopper ▸ joining) worker before below)
  allJoined := fun stopping worker below =>
    (exitedIff worker).mpr (inv.allJoined (stopper ▸ stopping) worker below)

theorem Drains.clients {s : State} (inv : Drains threadsNum s) (clients : Nat → ClientPc) :
    Drains threadsNum { s with clients := clients } :=
  ⟨inv.conserved, inv.counted, inv.discardedLate, inv.idleRunning, inv.exitedDrained, inv.joined,
    inv.allJoined⟩

theorem Drains.worker {s t : State} {worker : Nat} (inv : Drains threadsNum s)
    (below : worker < threadsNum) (stepped : workerStep s worker = some t) :
    Drains threadsNum t := by
  have live : s.workers worker ≠ .exited := fun exited => by
    rw [workerStep_exited exited] at stepped
    cases stepped
  rcases workerStep_cases stepped with
    ⟨pc, lockedBy, waitingThreads, idle, stillIdle, stays, rfl⟩ |
    ⟨task, rest, idle, queue, rfl⟩ | ⟨task, executing, rfl⟩ | ⟨idle, stopped, empty, rfl⟩
  · -- a move between places that hold no task
    have same : inFlight threadsNum (Function.update s.workers worker pc) =
        inFlight threadsNum s.workers := inFlight_update_quiet s.workers idle stillIdle
    refine inv.of_workers rfl rfl rfl rfl rfl (State.setWorker_exited_iff _ live stays) ?_
      inv.counted ?_
    · dsimp only [State.setWorker]
      rw [same]
    · dsimp only [State.setWorker]
      rw [same]
  · -- the pop: the head of the queue is now held
    have held := inFlight_update s.workers below (.executing task)
    rw [idle] at held
    refine inv.of_workers rfl rfl rfl rfl rfl
      (State.setWorker_exited_iff _ live (fun same => by cases same)) ?_ ?_ ?_
    · dsimp only [State.setWorker]
      rw [queue, List.perm_iff_count]
      intro item
      have swapped := List.perm_iff_count.mp held item
      simp only [List.count_append, List.count_cons, Option.toList, WorkerPc.task?] at swapped ⊢
      omega
    · have counted := inv.counted
      rw [queue, List.length_cons] at counted
      dsimp only [State.setWorker]
      omega
    · dsimp only [State.setWorker]
      rw [List.subperm_ext_iff]
      intro item _
      have swapped := List.perm_iff_count.mp held item
      simp only [List.count_append, List.count_cons, Option.toList, WorkerPc.task?] at swapped ⊢
      omega
  · -- the end of a task's call: the task held is now run
    have held := inFlight_update s.workers below .top
    rw [executing] at held
    have kept : (s.executed ++ [task] ++ inFlight threadsNum (Function.update s.workers worker .top)).Perm
        (s.executed ++ inFlight threadsNum s.workers) := by
      rw [List.perm_iff_count]
      intro item
      have swapped := List.perm_iff_count.mp held item
      simp only [List.count_append, List.count_nil, Option.toList, WorkerPc.task?] at swapped ⊢
      omega
    refine inv.of_workers rfl rfl rfl rfl rfl
      (State.setWorker_exited_iff _ live (by decide)) ?_ inv.counted ?_
    · dsimp only [State.setWorker]
      exact kept.append_right s.taskQueue
    · exact kept.symm.subperm
  · -- the exit: every task pushed before `running_` was cleared has been popped
    have same : inFlight threadsNum (Function.update s.workers worker .exited) =
        inFlight threadsNum s.workers := inFlight_update_quiet s.workers idle rfl
    have drained : s.enqueued.Subperm (s.executed ++ inFlight threadsNum s.workers) := by
      have conserved := inv.conserved
      rw [empty, List.append_nil] at conserved
      exact Run.subperm_of_append_perm conserved inv.discardedLate
    refine ⟨?_, inv.counted, inv.discardedLate, inv.idleRunning, ?_, ?_, ?_⟩
    · dsimp only [State.setWorker]
      rw [same]
      exact inv.conserved
    · intro other _ exited
      dsimp only [State.setWorker]
      rw [same]
      by_cases itself : other = worker
      · exact ⟨stopped, drained⟩
      · rw [State.setWorker_other _ itself] at exited
        exact ⟨stopped, (inv.exitedDrained other (by assumption) exited).2⟩
    · intro index joining other before below'
      exact State.setWorker_exited_of_exited _ worker (inv.joined index joining other before below')
    · intro stopping other below'
      exact State.setWorker_exited_of_exited _ worker (inv.allJoined stopping other below')

theorem Drains.push {s : State} (inv : Drains threadsNum s) (task : Nat)
    (clients : Nat → ClientPc) :
    Drains threadsNum { s with
      taskQueue := s.taskQueue ++ [task]
      taskNum := s.taskNum + 1
      clients := clients
      enqueued := if s.running then s.enqueued ++ [task] else s.enqueued
      enqueuedLate := if s.running then s.enqueuedLate else s.enqueuedLate ++ [task] } := by
  refine ⟨?_, ?_, ?_, inv.idleRunning, ?_, inv.joined, inv.allJoined⟩
  · -- the task is pushed on both sides, as an early or a late one
    rw [List.perm_iff_count]
    intro item
    have before := List.perm_iff_count.mp inv.conserved item
    cases s.running <;>
      simp only [Bool.false_eq_true, if_true, if_false, List.count_append] at before ⊢ <;>
      omega
  · simp only [List.length_append, List.length_singleton, inv.counted]
  · cases s.running
    · exact inv.discardedLate.trans (List.sublist_append_left _ _).subperm
    · exact inv.discardedLate
  · -- once a worker has exited, `running_` is cleared and pushes are late
    intro worker below exited
    obtain ⟨stopped, drained⟩ := inv.exitedDrained worker below exited
    refine ⟨stopped, ?_⟩
    simp only [stopped, Bool.false_eq_true, if_false]
    exact drained

theorem Drains.notifyOne {s : State} (inv : Drains threadsNum s) {worker : Nat}
    (blocked : s.workers worker = .blocked) (clients : Nat → ClientPc) :
    Drains threadsNum { s.setWorker worker .woken with clients := clients } := by
  have same : inFlight threadsNum (Function.update s.workers worker .woken) =
      inFlight threadsNum s.workers :=
    inFlight_update_quiet s.workers (by rw [blocked]; rfl) rfl
  refine inv.of_workers rfl rfl rfl rfl rfl
    (State.setWorker_exited_iff s (by rw [blocked]; decide) (by decide)) ?_ inv.counted ?_
  · dsimp only [State.setWorker]
    rw [same]
  · dsimp only [State.setWorker]
    rw [same]

theorem Drains.stopExchange {s : State} (inv : Drains threadsNum s) (idle : s.stopper = .idle) :
    Drains threadsNum (if s.running then { s with running := false, stopper := .notifying }
      else { s with stopper := .done }) := by
  have running := inv.idleRunning idle
  simp only [running, if_true]
  have noneExited : ∀ worker, worker < threadsNum → s.workers worker ≠ .exited :=
    fun worker below exited => by
      have stopped := (inv.exitedDrained worker below exited).1
      rw [running] at stopped
      cases stopped
  refine ⟨inv.conserved, inv.counted, inv.discardedLate, fun notifying => (by cases notifying),
    fun worker below exited => absurd exited (noneExited worker below),
    fun index notifying => (by cases notifying), ?_⟩
  rintro (notifying | notifying) <;> cases notifying

theorem Drains.stopNotify {s : State} (inv : Drains threadsNum s) :
    Drains threadsNum { s with
      workers := fun worker => if s.workers worker = .blocked then .woken else s.workers worker
      stopper := .joining 0 } := by
  have sameTask : ∀ worker, (if s.workers worker = .blocked then WorkerPc.woken
      else s.workers worker).task? = (s.workers worker).task? := by
    intro worker
    split
    · next blocked => rw [blocked]; rfl
    · rfl
  have sameExited : ∀ worker, (if s.workers worker = .blocked then WorkerPc.woken
      else s.workers worker) = .exited → s.workers worker = .exited := by
    intro worker exited
    split at exited
    · cases exited
    · exact exited
  have same : inFlight threadsNum (fun worker =>
      if s.workers worker = .blocked then .woken else s.workers worker) =
      inFlight threadsNum s.workers := inFlight_congr sameTask
  refine ⟨?_, inv.counted, inv.discardedLate, fun joining => (by cases joining), ?_, ?_, ?_⟩
  · dsimp only
    rw [same]
    exact inv.conserved
  · intro worker below exited
    dsimp only
    rw [same]
    exact inv.exitedDrained worker below (sameExited worker exited)
  · intro index joining worker before _
    cases joining
    exact absurd before (Nat.not_lt_zero worker)
  · rintro (clearing | done)
    · cases clearing
    · cases done

theorem Drains.stopJoin_next {s : State} (inv : Drains threadsNum s) {index : Nat}
    (joining : s.stopper = .joining index) (exited : s.workers index = .exited) :
    Drains threadsNum { s with stopper := .joining (index + 1) } := by
  refine ⟨inv.conserved, inv.counted, inv.discardedLate, fun idle => (by cases idle),
    inv.exitedDrained, ?_, ?_⟩
  · intro next nextJoining worker before below
    cases nextJoining
    by_cases earlier : worker < index
    · exact inv.joined index joining worker earlier below
    · have itself : worker = index := by omega
      rw [itself]
      exact exited
  · rintro (clearing | done)
    · cases clearing
    · cases done

theorem Drains.stopJoin_last {s : State} (inv : Drains threadsNum s) {index : Nat}
    (joining : s.stopper = .joining index) (past : ¬index < threadsNum) :
    Drains threadsNum { s with stopper := .clearing } := by
  refine ⟨inv.conserved, inv.counted, inv.discardedLate, fun idle => (by cases idle),
    inv.exitedDrained, fun _ clearing => (by cases clearing), ?_⟩
  intro _ worker below
  exact inv.joined index joining worker (by omega) below

theorem Drains.stopClear {s : State} (someWorker : 0 < threadsNum) (inv : Drains threadsNum s)
    (clearing : s.stopper = .clearing) :
    Drains threadsNum { s with
      taskQueue := []
      taskNum := s.taskNum - s.taskQueue.length
      stopper := .done
      discarded := s.discarded ++ s.taskQueue } := by
  have allExited := inv.allJoined (.inl clearing)
  have drained := (inv.exitedDrained 0 someWorker (allExited 0 someWorker)).2
  have regrouped : (s.discarded ++ s.taskQueue ++ (s.executed ++ inFlight threadsNum s.workers)).Perm
      (s.enqueuedLate ++ s.enqueued) := by
    rw [List.perm_iff_count]
    intro item
    have before := List.perm_iff_count.mp inv.conserved item
    simp only [List.count_append] at before ⊢
    omega
  refine ⟨?_, ?_, Run.subperm_of_append_perm regrouped drained, fun idle => (by cases idle),
    inv.exitedDrained, fun _ done => (by cases done), fun _ => allExited⟩
  · simpa only [List.append_assoc, List.append_nil] using inv.conserved
  · simp only [inv.counted, Nat.sub_self, List.length_nil]

theorem drains_step {s t : State} {label : Label} (someWorker : 0 < threadsNum)
    (inv : Drains threadsNum s) (stepped : step threadsNum s label = some t) :
    Drains threadsNum t := by
  cases label with
  | worker index =>
      simp only [step] at stepped
      split at stepped
      · next below => exact inv.worker below stepped
      · cases stepped
  | addTask client _ | notifySkip client =>
      simp only [step] at stepped
      split at stepped
      · cases stepped
        exact inv.clients _
      · cases stepped
  | push client =>
      simp only [step] at stepped
      split at stepped
      · next task _ _ =>
          cases stepped
          exact inv.push task _
      · cases stepped
  | notifyOne client worker =>
      simp only [step] at stepped
      split at stepped
      · next guard =>
          cases stepped
          exact inv.notifyOne guard.2.2.2 _
      · cases stepped
  | stopExchange =>
      simp only [step] at stepped
      split at stepped
      · next idle =>
          cases stepped
          exact inv.stopExchange idle
      · cases stepped
  | stopNotify =>
      simp only [step] at stepped
      split at stepped
      · cases stepped
        exact inv.stopNotify
      · cases stepped
  | stopJoin =>
      simp only [step] at stepped
      split at stepped
      · next index joining =>
          split at stepped
          · split at stepped
            · next exited =>
                cases stepped
                exact inv.stopJoin_next joining exited
            · cases stepped
          · next past =>
              cases stepped
              exact inv.stopJoin_last joining past
      · cases stepped
  | stopClear =>
      simp only [step] at stepped
      split at stepped
      · next clearing _ =>
          cases stepped
          exact inv.stopClear someWorker clearing
      · cases stepped

end Invariant

/-- With at least one worker, over every run from `run()`: no task is run twice, or both run and
discarded; the clearing loop of `stop()` discards only tasks pushed after `running_` was
cleared; `task_num_` is the length of the queue; and once `stop()` has returned, the tasks run
are each task pushed before `stop()` was entered, once, and some tasks pushed later. -/
theorem stop_drains_queue (threadsNum : Nat) (someWorker : 0 < threadsNum) (labels : List Label)
    (final : State) (ran : Run.exec (step threadsNum) initial labels = some final) :
    (final.executed ++ final.discarded).Subperm (final.enqueued ++ final.enqueuedLate) ∧
      final.discarded.Subperm final.enqueuedLate ∧ final.taskNum = final.taskQueue.length ∧
      (final.stopper = .done → ∃ lateRun, final.executed.Perm (final.enqueued ++ lateRun) ∧
        (lateRun ++ final.discarded).Subperm final.enqueuedLate) := by
  have inv : Drains threadsNum final :=
    Run.exec_preserves (step threadsNum) (Drains threadsNum) (fun _ => True)
      (fun _ _ _ _ holds stepped => drains_step someWorker holds stepped) labels initial final
      (fun _ _ => trivial) initial_drains ran
  have accounted : (final.executed ++ final.discarded).Subperm
      (final.executed ++ inFlight threadsNum final.workers ++ final.discarded ++ final.taskQueue) := by
    rw [List.subperm_ext_iff]
    intro item _
    simp only [List.count_append]
    omega
  refine ⟨accounted.trans inv.conserved.symm.subperm, inv.discardedLate, inv.counted,
    fun done => ?_⟩
  have allExited := inv.allJoined (.inr done)
  have idle := inFlight_all_exited allExited
  have drained := (inv.exitedDrained 0 someWorker (allExited 0 someWorker)).2
  rw [idle, List.append_nil] at drained
  obtain ⟨early, earlyPerm, earlySublist⟩ := drained
  obtain ⟨lateRun, split⟩ := earlySublist.exists_perm_append
  have executed := split.trans (earlyPerm.append_right lateRun)
  refine ⟨lateRun, executed, ?_⟩
  have conserved := inv.conserved
  rw [idle, List.append_nil, List.append_assoc] at conserved
  have regrouped : (final.enqueued ++ final.enqueuedLate).Perm
      (final.enqueued ++ (lateRun ++ final.discarded ++ final.taskQueue)) := by
    refine conserved.trans ?_
    simpa only [List.append_assoc] using
      (executed.append_right (final.discarded ++ final.taskQueue))
  have late := (List.perm_append_left_iff final.enqueued).mp regrouped
  exact (List.sublist_append_left _ _).subperm.trans late.symm.subperm

/-- One task pushed while the pool runs, popped and run by the one worker; `stop()` then wakes the
worker, which exits, joins it and returns. -/
theorem stop_drains_queue_one_task :
    ∃ final, Run.exec (step 1) initial
        [.addTask 0 3, .push 0, .notifySkip 0, .worker 0, .worker 0, .worker 0, .worker 0,
          .worker 0, .worker 0, .stopExchange, .stopNotify, .worker 0, .worker 0, .worker 0,
          .worker 0, .worker 0, .stopJoin, .stopJoin, .stopClear] = some final ∧
      final.stopper = .done ∧ final.executed = [3] ∧
      ((final.executed ++ final.discarded).Subperm (final.enqueued ++ final.enqueuedLate) ∧
        final.discarded.Subperm final.enqueuedLate ∧ final.taskNum = final.taskQueue.length ∧
        (final.stopper = .done → ∃ lateRun, final.executed.Perm (final.enqueued ++ lateRun) ∧
          (lateRun ++ final.discarded).Subperm final.enqueuedLate)) :=
  ⟨_, rfl, rfl, rfl, stop_drains_queue 1 Nat.one_pos
    [.addTask 0 3, .push 0, .notifySkip 0, .worker 0, .worker 0, .worker 0, .worker 0,
      .worker 0, .worker 0, .stopExchange, .stopNotify, .worker 0, .worker 0, .worker 0,
      .worker 0, .worker 0, .stopJoin, .stopJoin, .stopClear] _ rfl⟩

end ThreadPool

end HighSpeed
