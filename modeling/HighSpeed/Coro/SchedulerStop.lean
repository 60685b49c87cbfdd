import HighSpeed.Coro.SchedulerSafety

/-!
What `stop()` of `Scheduler` finds when it has joined its workers: the `assert(task_num_ == 0)`
after the joins, over every interleaving.
-/

namespace HighSpeed

namespace Scheduler

/-! ## What one statement of `worker()` can change -/

structure WorkerMoved (s t : State) (worker : Nat) : Prop where
  running : t.running = s.running
  stopper : t.stopper = s.stopper
  clients : t.clients = s.clients
  taskNum : t.taskNum ≤ s.taskNum
  wasLooping : s.workers worker ≠ .exited
  others : ∀ other, other ≠ worker → t.workers other = s.workers other
  exits : t.workers worker = .exited → s.running = false ∧ t.taskNum = 0

section Workers

variable {s t : State} {worker : Nat}

theorem WorkerMoved.setWorker {u : State} {pc : WorkerPc} (running : u.running = s.running)
    (stopper : u.stopper = s.stopper) (clients : u.clients = s.clients)
    (workers : u.workers = s.workers) (taskNum : u.taskNum ≤ s.taskNum)
    (wasLooping : s.workers worker ≠ .exited)
    (exits : pc = .exited → s.running = false ∧ u.taskNum = 0) :
    WorkerMoved s (u.setWorker worker pc) worker where
  running := running
  stopper := stopper
  clients := clients
  taskNum := taskNum
  wasLooping := wasLooping
  others other different := by
    show Function.update u.workers worker pc other = s.workers other
    rw [Function.update_of_ne different, workers]
  exits exited := by
    have moved : pc = .exited := by
      rw [← exited]
      exact (Function.update_self worker pc u.workers).symm
    exact exits moved

theorem WorkerMoved.exited_kept (moved : WorkerMoved s t worker) {other : Nat}
    (exited : s.workers other = .exited) : t.workers other = .exited := by
  have different : other ≠ worker := by
    rintro rfl
    exact moved.wasLooping exited
  rw [moved.others other different, exited]

theorem not_exited_of_ne {pc : WorkerPc} {fact : Prop} (stays : pc ≠ .exited) :
    pc = .exited → fact :=
  fun exited => absurd exited stays

theorem workerStep_moved (stepped : workerStep s worker = some t) : WorkerMoved s t worker := by
  unfold workerStep at stepped
  split at stepped
  · -- the loop test `running_ || task_num_ > 0`: the worker leaves when both are false
    rename_i atTop
    cases stepped
    refine .setWorker rfl rfl rfl rfl (Nat.le_refl _) (by rw [atTop]; decide) fun exited => ?_
    split at exited
    · cases exited
    · rename_i leaves
      simp only [Bool.or_eq_true, decide_eq_true_eq, not_or, Bool.not_eq_true] at leaves
      exact ⟨leaves.1, by omega⟩
  · split at stepped
    · rename_i atLocking _
      cases stepped
      exact .setWorker rfl rfl rfl rfl (Nat.le_refl _) (by rw [atLocking]; decide)
        (not_exited_of_ne (by decide))
    · cases stepped
  · rename_i atChecking
    cases stepped
    refine .setWorker rfl rfl rfl rfl (Nat.le_refl _) (by rw [atChecking]; decide)
      (not_exited_of_ne ?_)
    split <;> decide
  · rename_i atCounting
    cases stepped
    exact .setWorker rfl rfl rfl rfl (Nat.le_refl _) (by rw [atCounting]; decide)
      (not_exited_of_ne (by decide))
  · rename_i atBlocking
    cases stepped
    exact .setWorker rfl rfl rfl rfl (Nat.le_refl _) (by rw [atBlocking]; decide)
      (not_exited_of_ne (by decide))
  · cases stepped
  · split at stepped
    · rename_i atWoken _
      cases stepped
      exact .setWorker rfl rfl rfl rfl (Nat.le_refl _) (by rw [atWoken]; decide)
        (not_exited_of_ne (by decide))
    · cases stepped
  · rename_i atUncounting
    cases stepped
    exact .setWorker rfl rfl rfl rfl (Nat.le_refl _) (by rw [atUncounting]; decide)
      (not_exited_of_ne (by decide))
  · -- the exit test under `mtx_`: the worker leaves on `task_num_ == 0 && !running_`
    rename_i atExitCheck
    split at stepped
    · rename_i leaves
      cases stepped
      exact .setWorker rfl rfl rfl rfl (Nat.le_refl _) (by rw [atExitCheck]; decide)
        fun _ => ⟨leaves.2, leaves.1⟩
    · cases stepped
      exact .setWorker rfl rfl rfl rfl (Nat.le_refl _) (by rw [atExitCheck]; decide)
        (not_exited_of_ne (by decide))
  · -- the pop lowers `task_num_`
    rename_i atPopping
    cases stepped
    unfold State.pop
    split
    · exact .setWorker rfl rfl rfl rfl (Nat.sub_le _ _) (by rw [atPopping]; simp)
        (not_exited_of_ne (by simp))
    · exact .setWorker rfl rfl rfl rfl (Nat.le_refl _) (by rw [atPopping]; simp)
        (not_exited_of_ne (by decide))
  · rename_i coro atResuming
    cases stepped
    exact .setWorker rfl rfl rfl rfl (Nat.le_refl _) (by rw [atResuming]; simp)
      (not_exited_of_ne (by decide))
  · cases stepped
  · cases stepped

end Workers

/-! ## Before `stop()` -/

/-- Until `stop()` stores `running_ = false`, the flag is set and every worker is in its loop. -/
def Running (s : State) : Prop :=
  s.stopper = .idle → s.running = true ∧ ∀ worker, s.workers worker ≠ .exited

theorem initial_running : Running initial :=
  fun _ => ⟨rfl, (fun _ same => by cases same)⟩

section Running

variable {threadsNum : Nat} {s t : State}

theorem stopper_idle_of_step {label : Label} (stepped : step threadsNum s label = some t)
    (idle : t.stopper = .idle) : s.stopper = .idle ∧ label ≠ .stopStore := by
  cases label with
  | worker index =>
      simp only [step] at stepped
      split at stepped
      · rw [← (workerStep_moved stepped).stopper]
        exact ⟨idle, (fun same => by cases same)⟩
      · cases stepped
  | addCoroutine | push | notifyOne | notifySkip | increment =>
      simp only [step] at stepped
      split at stepped
      · cases stepped
        exact ⟨idle, (fun same => by cases same)⟩
      · cases stepped
  | stopStore =>
      simp only [step] at stepped
      split at stepped
      · cases stepped
        cases idle
      · cases stepped
  | stopNotify =>
      simp only [step] at stepped
      split at stepped
      · cases stepped
        cases idle
      · cases stepped
  | stopJoin =>
      simp only [step] at stepped
      split at stepped
      · split at stepped
        · split at stepped
          · cases stepped
            cases idle
          · cases stepped
        · cases stepped
          cases idle
      · cases stepped

theorem running_step (running : Running s) {label : Label}
    (stepped : step threadsNum s label = some t) : Running t := by
  intro idle
  obtain ⟨wasIdle, notStore⟩ := stopper_idle_of_step stepped idle
  obtain ⟨flag, looping⟩ := running wasIdle
  cases label with
  | worker index =>
      simp only [step] at stepped
      split at stepped
      · -- a worker that left its loop saw `running_` cleared
        have moved := workerStep_moved stepped
        refine ⟨by rw [moved.running, flag], fun worker exited => ?_⟩
        by_cases same : worker = index
        · subst same
          rw [(moved.exits exited).1] at flag
          cases flag
        · rw [moved.others worker same] at exited
          exact looping worker exited
      · cases stepped
  | addCoroutine | push | notifySkip | increment =>
      simp only [step] at stepped
      split at stepped
      · cases stepped
        exact ⟨flag, looping⟩
      · cases stepped
  | notifyOne client woken =>
      simp only [step] at stepped
      split at stepped
      · cases stepped
        refine ⟨flag, fun worker exited => ?_⟩
        change Function.update s.workers woken .woken worker = .exited at exited
        by_cases same : worker = woken
        · subst same
          rw [Function.update_self] at exited
          cases exited
        · rw [Function.update_of_ne same] at exited
          exact looping worker exited
      · cases stepped
  | stopStore => exact absurd rfl notStore
  | stopNotify | stopJoin =>
      simp only [step, wasIdle] at stepped
      cases stepped

end Running

/-! ## After `stop()` has cleared `running_` -/

/-- `stop()` has stored `running_ = false` with no `add_coroutine` under way: no client moves
again, a worker that left its loop saw `task_num_` at zero, and the workers `stop()` has joined
have left. -/
structure Stopping (threadsNum : Nat) (s : State) : Prop where
  stopped : s.running = false
  started : s.stopper ≠ .idle
  quiet : ∀ client, s.clients client = .idle
  drained : ∀ worker, s.workers worker = .exited → s.taskNum = 0
  joinedBelow : ∀ index, s.stopper = .joining index →
    ∀ worker, worker < index → s.workers worker = .exited
  joinedAll : s.stopper = .done → ∀ worker, worker < threadsNum → s.workers worker = .exited

section Stopping

variable {threadsNum : Nat} {s t : State}

theorem stopping_start (running : Running s) (quiet : ∀ client, s.clients client = .idle)
    (stepped : step threadsNum s .stopStore = some t) : Stopping threadsNum t := by
  simp only [step] at stepped
  split at stepped
  · rename_i idle
    cases stepped
    have looping := (running idle).2
    exact ⟨rfl, (fun same => by cases same), quiet,
      fun worker exited => absurd exited (looping worker), (fun _ joining => by cases joining),
      (fun done => by cases done)⟩
  · cases stepped

theorem Stopping.workerStep (stopping : Stopping threadsNum s) {worker : Nat}
    (stepped : Scheduler.workerStep s worker = some t) : Stopping threadsNum t := by
  have moved := workerStep_moved stepped
  refine ⟨by rw [moved.running, stopping.stopped], by rw [moved.stopper]; exact stopping.started,
    fun client => by rw [moved.clients]; exact stopping.quiet client, fun other exited => ?_,
    fun index joining below belowIndex => ?_, fun done below belowThreads => ?_⟩
  · -- `task_num_` was zero when the first worker left, and workers only lower it
    by_cases same : other = worker
    · subst same
      exact (moved.exits exited).2
    · rw [moved.others other same] at exited
      have zero := stopping.drained other exited
      have lowered := moved.taskNum
      omega
  · rw [moved.stopper] at joining
    exact moved.exited_kept (stopping.joinedBelow index joining below belowIndex)
  · rw [moved.stopper] at done
    exact moved.exited_kept (stopping.joinedAll done below belowThreads)

theorem stopping_step (stopping : Stopping threadsNum s) {label : Label}
    (stepped : step threadsNum s label = some t) : Stopping threadsNum t := by
  cases label with
  | worker index =>
      simp only [step] at stepped
      split at stepped
      · exact stopping.workerStep stepped
      · cases stepped
  | addCoroutine client coro =>
      simp only [step, stopping.stopped] at stepped
      simp at stepped
  | push client => simp [step, stopping.quiet client] at stepped
  | notifyOne client worker => simp [step, stopping.quiet client] at stepped
  | notifySkip client => simp [step, stopping.quiet client] at stepped
  | increment client => simp [step, stopping.quiet client] at stepped
  | stopStore =>
      simp only [step] at stepped
      split at stepped
      · rename_i idle
        exact absurd idle stopping.started
      · cases stepped
  | stopNotify =>
      simp only [step] at stepped
      split at stepped
      · cases stepped
        refine ⟨stopping.stopped, (fun same => by cases same), stopping.quiet,
          fun worker exited => ?_, ?_, (fun done => by cases done)⟩
        · have kept : s.workers worker = .exited := by
            by_cases blocked : s.workers worker = .blocked
            · simp only [blocked, if_true] at exited
              cases exited
            · simpa only [blocked, if_false] using exited
          exact stopping.drained worker kept
        · intro index joining worker below
          cases joining
          omega
      · cases stepped
  | stopJoin =>
      simp only [step] at stepped
      split at stepped
      · rename_i index joining
        split at stepped
        · -- joined worker `index`, which has left its loop
          rename_i below
          split at stepped
          · rename_i exited
            cases stepped
            refine ⟨stopping.stopped, (fun same => by cases same), stopping.quiet,
              stopping.drained, ?_, (fun done => by cases done)⟩
            intro next joiningNext worker belowNext
            cases joiningNext
            by_cases last : worker = index
            · rw [last]
              exact exited
            · exact stopping.joinedBelow index joining worker (by omega)
          · cases stepped
        · -- every worker joined
          rename_i past
          cases stepped
          refine ⟨stopping.stopped, (fun same => by cases same), stopping.quiet, stopping.drained,
            (fun _ joining => by cases joining), ?_⟩
          intro _ worker below
          exact stopping.joinedBelow index joining worker (by omega)
      · cases stepped

end Stopping

theorem Accounted.corotines_eq_nil {s : State} (accounted : Accounted s)
    (quiet : ∀ client, s.clients client = .idle) (zero : s.taskNum = 0) : s.corotines = [] := by
  obtain ⟨pending, _, members, length⟩ := accounted
  have none : pending = [] := by
    rw [List.eq_nil_iff_forall_not_mem]
    intro client member
    have flagged := (members client).mp member
    rw [quiet client] at flagged
    cases flagged
  rw [none, zero, List.length_nil] at length
  exact List.eq_nil_of_length_eq_zero length

/-- Over every interleaving from `run()` in which `stop()` stores `running_ = false` after every
`add_coroutine` call has returned: when `stop()` has joined every worker, each has left its
loop, `task_num_` is zero and `corotines_` is empty. So the `assert(task_num_ == 0)` of `stop()`
holds and no coroutine added is left unresumed. This needs a worker: `THREADS_NUM` is
`hardware_concurrency()`, which may be 0. -/
theorem stop_assert_holds (threadsNum : Nat) (someWorker : 0 < threadsNum)
    (before after : List Label) (s final : State)
    (reached : Run.exec (step threadsNum) initial before = some s)
    (quiet : ∀ client, s.clients client = .idle)
    (stopped : Run.exec (step threadsNum) s (.stopStore :: after) = some final)
    (joined : final.stopper = .done) :
    (∀ worker, worker < threadsNum → final.workers worker = .exited) ∧ final.taskNum = 0 ∧
      final.corotines = [] := by
  have running : Running s :=
    Run.exec_preserves (step threadsNum) Running (fun _ => True)
      (fun _ _ _ _ holds stepped => running_step holds stepped) before initial s
      (fun _ _ => trivial) initial_running reached
  have safe : Safe s :=
    Run.exec_preserves (step threadsNum) Safe (fun _ => True)
      (fun _ _ _ _ holds stepped => safe_step holds stepped) before initial s
      (fun _ _ => trivial) initial_safe reached
  rw [Run.exec_cons, Option.bind_eq_some_iff] at stopped
  obtain ⟨next, store, rest⟩ := stopped
  have stopping : Stopping threadsNum final :=
    Run.exec_preserves (step threadsNum) (Stopping threadsNum) (fun _ => True)
      (fun _ _ _ _ holds stepped => stopping_step holds stepped) after next final
      (fun _ _ => trivial) (stopping_start running quiet store) rest
  have safeFinal : Safe final :=
    Run.exec_preserves (step threadsNum) Safe (fun _ => True)
      (fun _ _ _ _ holds stepped => safe_step holds stepped) after next final
      (fun _ _ => trivial) (safe_step safe store) rest
  have allExited := stopping.joinedAll joined
  have zero := stopping.drained 0 (allExited 0 someWorker)
  exact ⟨allExited, zero, safeFinal.accounted.corotines_eq_nil stopping.quiet zero⟩

/-- One worker resumes coroutine 4; `stop()` then clears `running_`, wakes nobody, joins the
worker that left its loop, and passes its `assert`. -/
theorem stop_assert_holds_one :
    ∃ s final, Run.exec (step 1) initial
        [.addCoroutine 0 4, .push 0, .notifySkip 0, .increment 0, .worker 0, .worker 0,
          .worker 0, .worker 0, .worker 0, .worker 0] = some s ∧
      (∀ client, s.clients client = .idle) ∧
      Run.exec (step 1) s [.stopStore, .stopNotify, .worker 0, .stopJoin, .stopJoin] =
        some final ∧ final.stopper = .done ∧ final.resumed = [4] ∧
      ((∀ worker, worker < 1 → final.workers worker = .exited) ∧ final.taskNum = 0 ∧
        final.corotines = []) := by
  have quiet : ∀ client, (Function.update (Function.update (Function.update
      (Function.update (fun _ => ClientPc.idle) 0 (.pushing 4)) 0 .notifying) 0 .incrementing)
      0 .idle) client = .idle := by
    intro client
    by_cases first : client = 0 <;> simp [first]
  exact ⟨_, _, rfl, quiet, rfl, rfl, rfl, stop_assert_holds 1 Nat.one_pos
    [.addCoroutine 0 4, .push 0, .notifySkip 0, .increment 0, .worker 0, .worker 0, .worker 0,
      .worker 0, .worker 0, .worker 0] [.stopNotify, .worker 0, .stopJoin, .stopJoin] _ _ rfl
    quiet rfl rfl⟩

theorem stop_assert_fails_racing_add :
    ∃ final, Run.exec (step 1) initial
        [.addCoroutine 0 7, .push 0, .notifySkip 0, .stopStore, .stopNotify, .worker 0,
          .stopJoin, .increment 0, .stopJoin] = some final ∧
      final.stopper = .done ∧ final.taskNum = 1 ∧ final.corotines = [7] ∧
        final.resumed = [] :=
  ⟨_, rfl, rfl, rfl, rfl, rfl⟩

end Scheduler

end HighSpeed
