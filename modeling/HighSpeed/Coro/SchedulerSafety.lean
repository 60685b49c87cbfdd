import HighSpeed.Coro.Scheduler

/-!
Safety of `Scheduler` of `coro/Scheduler.hpp` over every interleaving: at most one worker holds
`mtx_`, `task_num_` never exceeds the length of `corotines_`, and the
`assert(!corotines_.empty())` of `worker()` never fails.
-/

namespace HighSpeed

namespace Scheduler

/-- The program points of `worker()` inside the block that holds `mtx_`. -/
def WorkerPc.holdsMutex : WorkerPc → Bool
  | .checking | .counting | .blocking | .uncounting | .exitCheck | .popping => true
  | _ => false

section
@[local simp]
def ClientPc.pending : ClientPc → Bool
  | .notifying | .incrementing => true
  | _ => false
end

def WorkerPc.Safe (s : State) (worker : Nat) : WorkerPc → Prop
  | .checking | .counting | .blocking | .uncounting => s.lockedBy = some worker
  | .exitCheck => s.lockedBy = some worker ∧ (0 < s.taskNum ∨ s.running = false)
  | .popping => s.lockedBy = some worker ∧ 0 < s.taskNum
  | .aborted => False
  | _ => True

def Accounted (s : State) : Prop :=
  ∃ pending : List Nat, pending.Nodup ∧
    (∀ client, client ∈ pending ↔ (s.clients client).pending = true) ∧
    s.corotines.length = s.taskNum + pending.length

structure Safe (s : State) : Prop where
  workers : ∀ worker, (s.workers worker).Safe s worker
  accounted : Accounted s

theorem initial_safe : Safe initial where
  workers _ := trivial
  accounted := ⟨[], List.nodup_nil, fun _ => ⟨fun absent => absurd absent List.not_mem_nil,
    fun pending => by cases pending⟩, rfl⟩

section Workers

variable {s t : State} {worker : Nat} {pc : WorkerPc}

theorem WorkerPc.Safe.lockedBy (safe : pc.Safe s worker) (holds : pc.holdsMutex = true) :
    s.lockedBy = some worker := by
  cases pc with
  | checking | counting | blocking | uncounting => exact safe
  | exitCheck | popping => exact safe.1
  | _ => cases holds

theorem WorkerPc.Safe.transfer (safe : pc.Safe s worker)
    (frame : s.lockedBy = some worker →
      t.lockedBy = some worker ∧ s.taskNum ≤ t.taskNum ∧ (t.running = true → s.running = true)) :
    pc.Safe t worker := by
  cases pc with
  | checking | counting | blocking | uncounting => exact (frame safe).1
  | exitCheck =>
      obtain ⟨held, ready⟩ := safe
      obtain ⟨stillHeld, grown, notRestarted⟩ := frame held
      refine ⟨stillHeld, ?_⟩
      rcases ready with counted | stopped
      · exact .inl (by omega)
      · cases running : t.running with
        | false => exact .inr rfl
        | true => exact absurd (notRestarted running) (by rw [stopped]; decide)
  | popping =>
      obtain ⟨held, ready⟩ := safe
      obtain ⟨stillHeld, grown, _⟩ := frame held
      exact ⟨stillHeld, by omega⟩
  | top | locking | blocked | woken | resuming _ | exited | aborted => exact safe

theorem workers_move (safe : ∀ other, (s.workers other).Safe s other)
    (workers : t.workers = Function.update s.workers worker pc) (own : pc.Safe t worker)
    (frame : ∀ other, other ≠ worker → s.lockedBy = some other →
      t.lockedBy = some other ∧ s.taskNum ≤ t.taskNum ∧ (t.running = true → s.running = true)) :
    ∀ other, (t.workers other).Safe t other := by
  intro other
  by_cases same : other = worker
  · subst same
    rw [workers, Function.update_self]
    exact own
  · rw [workers, Function.update_of_ne same]
    exact (safe other).transfer (frame other same)

theorem workers_frame (safe : ∀ other, (s.workers other).Safe s other)
    (workers : t.workers = s.workers)
    (frame : ∀ other, s.lockedBy = some other →
      t.lockedBy = some other ∧ s.taskNum ≤ t.taskNum ∧ (t.running = true → s.running = true)) :
    ∀ other, (t.workers other).Safe t other := by
  intro other
  rw [workers]
  exact (safe other).transfer (frame other)

end Workers

section Accounting

variable {s t : State}

theorem Accounted.keep (accounted : Accounted s)
    (samePending : ∀ client, (t.clients client).pending = (s.clients client).pending)
    (queue : t.corotines.length + s.taskNum = s.corotines.length + t.taskNum) : Accounted t := by
  obtain ⟨pending, distinct, members, length⟩ := accounted
  exact ⟨pending, distinct, fun client => (members client).trans (by rw [samePending]),
    by omega⟩

theorem Accounted.push (accounted : Accounted s) {client : Nat}
    (before : (s.clients client).pending = false) (after : (t.clients client).pending = true)
    (others : ∀ other, other ≠ client → (t.clients other).pending = (s.clients other).pending)
    (queue : t.corotines.length = s.corotines.length + 1) (taskNum : t.taskNum = s.taskNum) :
    Accounted t := by
  obtain ⟨pending, distinct, members, length⟩ := accounted
  have fresh : client ∉ pending := fun member => by
    rw [members client, before] at member
    cases member
  refine ⟨client :: pending, List.nodup_cons.mpr ⟨fresh, distinct⟩, fun other => ?_, ?_⟩
  · by_cases same : other = client
    · subst same
      simp only [List.mem_cons_self, after]
    · rw [List.mem_cons, others other same, ← members other]
      exact or_iff_right same
  · rw [queue, taskNum, length, List.length_cons]
    omega

theorem Accounted.increment (accounted : Accounted s) {client : Nat}
    (before : (s.clients client).pending = true) (after : (t.clients client).pending = false)
    (others : ∀ other, other ≠ client → (t.clients other).pending = (s.clients other).pending)
    (queue : t.corotines = s.corotines) (taskNum : t.taskNum = s.taskNum + 1) :
    Accounted t := by
  obtain ⟨pending, distinct, members, length⟩ := accounted
  have member : client ∈ pending := (members client).mpr before
  refine ⟨pending.erase client, distinct.erase client, fun other => ?_, ?_⟩
  · rw [distinct.mem_erase_iff]
    by_cases same : other = client
    · subst same
      simp only [ne_eq, not_true_eq_false, false_and, after, Bool.false_eq_true]
    · rw [others other same, ← members other]
      exact and_iff_right same
  · have shorter := List.length_erase_of_mem member
    have nonempty := List.length_pos_of_mem member
    rw [queue, taskNum, length, shorter]
    omega

end Accounting

section Step

variable {s t : State}

theorem frame_of_same (lockedBy : t.lockedBy = s.lockedBy) (taskNum : t.taskNum = s.taskNum)
    (running : t.running = s.running) (other : Nat) (held : s.lockedBy = some other) :
    t.lockedBy = some other ∧ s.taskNum ≤ t.taskNum ∧ (t.running = true → s.running = true) := by
  rw [lockedBy, taskNum, running]
  exact ⟨held, Nat.le_refl _, id⟩

theorem not_held_of_mine {worker other : Nat} (mine : s.lockedBy = none ∨ s.lockedBy = some worker)
    (different : other ≠ worker) (held : s.lockedBy = some other) : False := by
  rcases mine with free | own
  · rw [free] at held
    cases held
  · rw [own] at held
    exact different (Option.some.inj held).symm

theorem Accounted.corotines_ne_nil (accounted : Accounted s) (counted : 0 < s.taskNum) :
    s.corotines ≠ [] := by
  obtain ⟨pending, _, _, length⟩ := accounted
  intro empty
  rw [empty, List.length_nil] at length
  omega

theorem Safe.moveWorker (safe : Safe s) {worker waiting : Nat} {resumed : List Nat}
    {pc : WorkerPc} (own : pc.Safe s worker) :
    Safe ({ s with waitingThreads := waiting, resumed := resumed }.setWorker worker pc) :=
  ⟨workers_move safe.workers rfl (own.transfer fun held => ⟨held, Nat.le_refl _, id⟩)
      fun other _ => frame_of_same rfl rfl rfl other,
    safe.accounted.keep (fun _ => rfl) rfl⟩

theorem Safe.moveWorker_lock (safe : Safe s) {worker : Nat} {lock : Option Nat} {pc : WorkerPc}
    (mine : s.lockedBy = none ∨ s.lockedBy = some worker)
    (own : pc.Safe { s with lockedBy := lock } worker) :
    Safe ({ s with lockedBy := lock }.setWorker worker pc) :=
  ⟨workers_move safe.workers rfl (own.transfer fun held => ⟨held, Nat.le_refl _, id⟩)
      fun _ different held => (not_held_of_mine mine different held).elim,
    safe.accounted.keep (fun _ => rfl) rfl⟩

theorem Safe.workerStep {worker : Nat} (safe : Safe s)
    (stepped : Scheduler.workerStep s worker = some t) : Safe t := by
  have own := safe.workers worker
  unfold Scheduler.workerStep at stepped
  split at stepped
  · -- the loop test; no lock is involved
    cases stepped
    refine safe.moveWorker ?_
    split <;> trivial
  · -- taking the free `mtx_`
    split at stepped
    · rename_i atLocking free
      cases stepped
      exact safe.moveWorker_lock (.inl free) rfl
    · cases stepped
  · -- the wait condition, under `mtx_`
    rename_i atChecking
    rw [atChecking] at own
    cases stepped
    refine safe.moveWorker ?_
    split
    · exact own
    · rename_i leaves
      refine ⟨own, ?_⟩
      cases running : s.running with
      | false => exact .inr rfl
      | true =>
          rw [running] at leaves
          exact .inl (Nat.pos_of_ne_zero fun zero => leaves ⟨zero, rfl⟩)
  · rename_i atCounting
    rw [atCounting] at own
    cases stepped
    exact safe.moveWorker own
  · -- `cv_.wait` releases `mtx_`
    rename_i atBlocking
    rw [atBlocking] at own
    cases stepped
    exact safe.moveWorker_lock (.inr own) trivial
  · cases stepped
  · -- a notified worker takes the free `mtx_` again
    split at stepped
    · rename_i atWoken free
      cases stepped
      exact safe.moveWorker_lock (.inl free) rfl
    · cases stepped
  · rename_i atUncounting
    rw [atUncounting] at own
    cases stepped
    exact safe.moveWorker own
  · -- the exit test: leave and release `mtx_`, or go on to pop
    rename_i atExitCheck
    rw [atExitCheck] at own
    obtain ⟨held, ready⟩ := own
    split at stepped
    · cases stepped
      exact safe.moveWorker_lock (.inr held) trivial
    · rename_i stays
      cases stepped
      refine safe.moveWorker ⟨held, ?_⟩
      rcases ready with counted | stopped
      · exact counted
      · exact Nat.pos_of_ne_zero fun zero => stays ⟨zero, stopped⟩
  · -- the pop, which the assert guards
    rename_i atPopping
    rw [atPopping] at own
    obtain ⟨held, counted⟩ := own
    cases stepped
    unfold State.pop
    split
    · rename_i coro rest queued
      refine ⟨workers_move safe.workers rfl trivial fun other different owned =>
          (not_held_of_mine (.inr held) different owned).elim,
        safe.accounted.keep (fun _ => rfl) ?_⟩
      show rest.length + s.taskNum = s.corotines.length + (s.taskNum - 1)
      rw [queued, List.length_cons]
      omega
    · rename_i empty
      exact absurd empty (safe.accounted.corotines_ne_nil counted)
  · cases stepped
    exact safe.moveWorker trivial
  · cases stepped
  · cases stepped

@[simp] theorem State.setClient_clients (s : State) (client : Nat) (pc : ClientPc) :
    (s.setClient client pc).clients = Function.update s.clients client pc := rfl

theorem setClient_pending_other (s : State) {client other : Nat} (pc : ClientPc)
    (different : other ≠ client) :
    ((s.setClient client pc).clients other).pending = (s.clients other).pending := by
  rw [State.setClient_clients, Function.update_of_ne different]

theorem samePending_setClient (s : State) {client : Nat} {pc : ClientPc}
    (moved : pc.pending = (s.clients client).pending) (other : Nat) :
    ((s.setClient client pc).clients other).pending = (s.clients other).pending := by
  by_cases same : other = client
  · subst same
    rw [State.setClient_clients, Function.update_self, moved]
  · exact setClient_pending_other s pc same

theorem Safe.setClient (safe : Safe s) {client : Nat} {pc : ClientPc}
    (moved : pc.pending = (s.clients client).pending) : Safe (s.setClient client pc) :=
  ⟨workers_frame safe.workers rfl fun other => frame_of_same rfl rfl rfl other,
    safe.accounted.keep (samePending_setClient s moved) rfl⟩

theorem Safe.setStopper (safe : Safe s) (stopper : StopPc) : Safe { s with stopper := stopper } :=
  ⟨workers_frame safe.workers rfl fun other => frame_of_same rfl rfl rfl other,
    safe.accounted.keep (fun _ => rfl) rfl⟩

theorem safe_step {threadsNum : Nat} (safe : Safe s) {label : Label}
    (stepped : step threadsNum s label = some t) : Safe t := by
  cases label with
  | worker index =>
      simp only [step] at stepped
      split at stepped
      · exact safe.workerStep stepped
      · cases stepped
  | addCoroutine client coro =>
      simp only [step] at stepped
      split at stepped
      · rename_i ready
        cases stepped
        have moved : (ClientPc.pushing coro).pending = (s.clients client).pending := by
          rw [ready.1]
          rfl
        exact safe.setClient moved
      · cases stepped
  | push client =>
      simp only [step] at stepped
      split at stepped
      · rename_i coro atPushing free
        cases stepped
        have before : (s.clients client).pending = false := by
          rw [atPushing]
          rfl
        exact ⟨workers_frame safe.workers rfl fun other => frame_of_same rfl rfl rfl other,
          safe.accounted.push before (by rw [State.setClient_clients, Function.update_self]; rfl)
            (fun other different => setClient_pending_other _ _ different)
            (List.length_append ..) rfl⟩
      · cases stepped
  | notifyOne client worker =>
      simp only [step] at stepped
      split at stepped
      · rename_i ready
        cases stepped
        have moved : ClientPc.incrementing.pending = (s.clients client).pending := by
          rw [ready.1]
          rfl
        have woken : Safe (s.setWorker worker .woken) := safe.moveWorker trivial
        exact woken.setClient moved
      · cases stepped
  | notifySkip client =>
      simp only [step] at stepped
      split at stepped
      · rename_i ready
        cases stepped
        have moved : ClientPc.incrementing.pending = (s.clients client).pending := by
          rw [ready.1]
          rfl
        exact safe.setClient moved
      · cases stepped
  | increment client =>
      simp only [step] at stepped
      split at stepped
      · rename_i atIncrementing
        cases stepped
        have before : (s.clients client).pending = true := by
          rw [atIncrementing]
          rfl
        refine ⟨workers_frame safe.workers rfl fun other held => ⟨held, Nat.le_succ _, id⟩,
          safe.accounted.increment before ?_
            (fun other different => setClient_pending_other _ _ different) rfl rfl⟩
        rw [State.setClient_clients, Function.update_self]
        rfl
      · cases stepped
  | stopStore =>
      simp only [step] at stepped
      split at stepped
      · cases stepped
        exact ⟨workers_frame safe.workers rfl fun other held =>
            ⟨held, Nat.le_refl _, fun restarted => by cases restarted⟩,
          safe.accounted.keep (fun _ => rfl) rfl⟩
      · cases stepped
  | stopNotify =>
      simp only [step] at stepped
      split at stepped
      · cases stepped
        refine ⟨fun worker => ?_, safe.accounted.keep (fun _ => rfl) rfl⟩
        show WorkerPc.Safe _ worker (if s.workers worker = .blocked then .woken else s.workers worker)
        split
        · trivial
        · exact (safe.workers worker).transfer (frame_of_same rfl rfl rfl worker)
      · cases stepped
  | stopJoin =>
      simp only [step] at stepped
      split at stepped
      · split at stepped
        · split at stepped
          · cases stepped
            exact safe.setStopper _
          · cases stepped
        · cases stepped
          exact safe.setStopper _
      · cases stepped

end Step

/-- Over every interleaving from `run()`: the `assert(!corotines_.empty())` of `worker()` never
fails, `task_num_` never exceeds the length of `corotines_`, and at most one worker is inside
the block that holds `mtx_`. -/
theorem scheduler_safe (threadsNum : Nat) (labels : List Label) (final : State)
    (ran : Run.exec (step threadsNum) initial labels = some final) :
    (∀ worker, final.workers worker ≠ .aborted) ∧ final.taskNum ≤ final.corotines.length ∧
      ∀ first second, (final.workers first).holdsMutex = true →
        (final.workers second).holdsMutex = true → first = second := by
  have safe : Safe final :=
    Run.exec_preserves (step threadsNum) Safe (fun _ => True)
      (fun _ _ _ _ holds stepped => safe_step holds stepped) labels initial final
      (fun _ _ => trivial) initial_safe ran
  refine ⟨fun worker aborted => ?_, ?_, fun first second firstHolds secondHolds => ?_⟩
  · have known := safe.workers worker
    rw [aborted] at known
    exact known
  · obtain ⟨pending, _, _, length⟩ := safe.accounted
    omega
  · have firstHeld := (safe.workers first).lockedBy firstHolds
    have secondHeld := (safe.workers second).lockedBy secondHolds
    exact Option.some.inj (firstHeld.symm.trans secondHeld)

/-- One coroutine added while the one worker runs, then popped and resumed by it. -/
theorem scheduler_safe_resume_one :
    ∃ final, Run.exec (step 1) initial
        [.addCoroutine 0 5, .push 0, .notifySkip 0, .increment 0, .worker 0, .worker 0,
          .worker 0, .worker 0, .worker 0, .worker 0] = some final ∧ final.resumed = [5] ∧
      ((∀ worker, final.workers worker ≠ .aborted) ∧ final.taskNum ≤ final.corotines.length ∧
        ∀ first second, (final.workers first).holdsMutex = true →
          (final.workers second).holdsMutex = true → first = second) :=
  ⟨_, rfl, rfl, scheduler_safe 1
    [.addCoroutine 0 5, .push 0, .notifySkip 0, .increment 0, .worker 0, .worker 0,
      .worker 0, .worker 0, .worker 0, .worker 0] _ rfl⟩

end Scheduler

end HighSpeed
