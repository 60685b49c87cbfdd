import Mathlib.Logic.Function.Basic
import HighSpeed.Lib.Run

/-!
`Strand` of `net/Strand.hpp`, with the threads that call it and the executor it hands its jobs
to, as an interleaving of atomic steps.
-/

namespace HighSpeed

namespace Strand

inductive ThreadPc where
  | idle
  | scheduling
  | handing (task : Nat)
  | running (task : Nat)
deriving DecidableEq

structure State where
  threads : Nat → ThreadPc
  queue : List Nat
  running : Bool
  executor : List Nat
  pushed : List Nat
  started : List Nat

def initial : State := ⟨fun _ => .idle, [], false, [], [], []⟩

namespace State

def addTask (s : State) (thread task : Nat) : State :=
  let pushed := { s with
    queue := s.queue ++ [task]
    pushed := s.pushed ++ [task]
    running := true }
  if s.running then pushed
  else { pushed with threads := Function.update s.threads thread .scheduling }

def scheduleNext (s : State) (thread : Nat) : State :=
  match s.queue with
  | [] => { s with running := false, threads := Function.update s.threads thread .idle }
  | next :: rest =>
      { s with queue := rest, threads := Function.update s.threads thread (.handing next) }

end State

inductive Label where
  | addTask (thread task : Nat)
  | scheduleNext (thread : Nat)
  | hand (thread : Nat)
  | take (thread : Nat)
  | finish (thread : Nat)

section
@[local simp]
def step (s : State) : Label → Option State
  | .addTask thread task =>
      match s.threads thread with
      | .idle => some (s.addTask thread task)
      | _ => none
  | .scheduleNext thread =>
      match s.threads thread with
      | .scheduling => some (s.scheduleNext thread)
      | _ => none
  | .hand thread =>
      match s.threads thread with
      | .handing next =>
          some { s with
            executor := s.executor ++ [next]
            threads := Function.update s.threads thread .idle }
      | _ => none
  | .take thread =>
      match s.threads thread, s.executor with
      | .idle, next :: rest =>
          some { s with
            executor := rest
            threads := Function.update s.threads thread (.running next)
            started := s.started ++ [next] }
      | _, _ => none
  | .finish thread =>
      match s.threads thread with
      | .running _ => some { s with threads := Function.update s.threads thread .scheduling }
      | _ => none
end

/-! ## The token that `running_` stands for -/

inductive Token where
  | free
  | scheduling (thread : Nat)
  | handing (thread task : Nat)
  | queued (task : Nat)
  | running (thread task : Nat)

def OthersIdle (s : State) (holder : Nat) : Prop :=
  ∀ thread, thread ≠ holder → s.threads thread = .idle

def Placed (s : State) : Token → Prop
  | .free => s.running = false ∧ s.queue = [] ∧ s.executor = [] ∧
      (∀ thread, s.threads thread = .idle) ∧ s.pushed = s.started
  | .scheduling holder => s.running = true ∧ s.threads holder = .scheduling ∧
      OthersIdle s holder ∧ s.executor = [] ∧ s.pushed = s.started ++ s.queue
  | .handing holder task => s.running = true ∧ s.threads holder = .handing task ∧
      OthersIdle s holder ∧ s.executor = [] ∧ s.pushed = s.started ++ task :: s.queue
  | .queued task => s.running = true ∧ (∀ thread, s.threads thread = .idle) ∧
      s.executor = [task] ∧ s.pushed = s.started ++ task :: s.queue
  | .running holder task => s.running = true ∧ s.threads holder = .running task ∧
      OthersIdle s holder ∧ s.executor = [] ∧ s.pushed = s.started ++ s.queue

theorem initial_placed : Placed initial .free := ⟨rfl, rfl, rfl, fun _ => rfl, rfl⟩

variable {s : State}

theorem OthersIdle.eq_holder {holder thread : Nat} (others : OthersIdle s holder)
    (busy : s.threads thread ≠ .idle) : thread = holder := by
  by_contra different
  exact busy (others thread different)

theorem OthersIdle.update {holder : Nat} (others : OthersIdle s holder) (pc : ThreadPc) :
    ∀ thread, thread ≠ holder → Function.update s.threads holder pc thread = .idle := by
  intro thread different
  rw [Function.update_of_ne different]
  exact others thread different

theorem OthersIdle.update_all {holder : Nat} (others : OthersIdle s holder) :
    ∀ thread, Function.update s.threads holder .idle thread = .idle := by
  intro thread
  by_cases same : thread = holder
  · rw [same, Function.update_self]
  · exact others.update .idle thread same

def Token.holderPc : Token → Option (Nat × ThreadPc)
  | .scheduling holder => some (holder, .scheduling)
  | .handing holder task => some (holder, .handing task)
  | .running holder task => some (holder, .running task)
  | _ => none

theorem Placed.busy {token : Token} (placed : Placed s token) {thread : Nat}
    (busy : s.threads thread ≠ .idle) : token.holderPc = some (thread, s.threads thread) := by
  cases token with
  | free => exact absurd (placed.2.2.2.1 thread) busy
  | queued task => exact absurd (placed.2.1 thread) busy
  | scheduling holder =>
      obtain ⟨-, atHolder, others, -⟩ := placed
      rw [others.eq_holder busy, atHolder]
      rfl
  | handing holder task =>
      obtain ⟨-, atHolder, others, -⟩ := placed
      rw [others.eq_holder busy, atHolder]
      rfl
  | running holder task =>
      obtain ⟨-, atHolder, others, -⟩ := placed
      rw [others.eq_holder busy, atHolder]
      rfl

theorem placed_addTask {token : Token} (placed : Placed s token) (thread task : Nat) :
    ∃ next, Placed (s.addTask thread task) next := by
  cases token with
  | free =>
      obtain ⟨stopped, empty, noJobs, allIdle, sameOrder⟩ := placed
      refine ⟨.scheduling thread, ?_⟩
      simp only [State.addTask, stopped, Bool.false_eq_true, if_false]
      refine ⟨rfl, Function.update_self _ _ _, fun other different =>
        (Function.update_of_ne different _ _).trans (allIdle other), noJobs, ?_⟩
      rw [sameOrder, empty, List.nil_append]
  | scheduling holder =>
      obtain ⟨held, atHolder, others, noJobs, order⟩ := placed
      refine ⟨.scheduling holder, ?_⟩
      simp only [State.addTask, held, if_true]
      exact ⟨rfl, atHolder, others, noJobs, by rw [order, List.append_assoc]⟩
  | handing holder task' =>
      obtain ⟨held, atHolder, others, noJobs, order⟩ := placed
      refine ⟨.handing holder task', ?_⟩
      simp only [State.addTask, held, if_true]
      exact ⟨rfl, atHolder, others, noJobs, by rw [order, List.append_assoc, List.cons_append]⟩
  | queued task' =>
      obtain ⟨held, allIdle, oneJob, order⟩ := placed
      refine ⟨.queued task', ?_⟩
      simp only [State.addTask, held, if_true]
      exact ⟨rfl, allIdle, oneJob, by rw [order, List.append_assoc, List.cons_append]⟩
  | running holder task' =>
      obtain ⟨held, atHolder, others, noJobs, order⟩ := placed
      refine ⟨.running holder task', ?_⟩
      simp only [State.addTask, held, if_true]
      exact ⟨rfl, atHolder, others, noJobs, by rw [order, List.append_assoc]⟩

theorem placed_scheduleNext {token : Token} (placed : Placed s token) {thread : Nat}
    (scheduling : s.threads thread = .scheduling) :
    ∃ next, Placed (s.scheduleNext thread) next := by
  have busy : s.threads thread ≠ .idle := by simp [scheduling]
  have holds := placed.busy busy
  rw [scheduling] at holds
  cases token with
  | scheduling holder =>
      cases holds
      obtain ⟨held, atHolder, others, noJobs, order⟩ := placed
      cases queued : s.queue with
      | nil =>
          simp only [State.scheduleNext, queued]
          refine ⟨.free, rfl, rfl, noJobs, others.update_all, ?_⟩
          rw [order, queued, List.append_nil]
      | cons next rest =>
          simp only [State.scheduleNext, queued]
          refine ⟨.handing thread next, held, Function.update_self _ _ _, others.update _, noJobs,
            ?_⟩
          rw [order, queued]
  | free => cases holds
  | handing holder task => cases holds
  | queued task => cases holds
  | running holder task => cases holds

theorem placed_hand {token : Token} (placed : Placed s token) {thread next : Nat}
    (handing : s.threads thread = .handing next) :
    Placed { s with
      executor := s.executor ++ [next]
      threads := Function.update s.threads thread .idle } (.queued next) := by
  have busy : s.threads thread ≠ .idle := by simp [handing]
  have holds := placed.busy busy
  rw [handing] at holds
  cases token with
  | handing holder task =>
      cases holds
      obtain ⟨held, -, others, noJobs, order⟩ := placed
      exact ⟨held, others.update_all, by rw [noJobs, List.nil_append], order⟩
  | free => cases holds
  | scheduling holder => cases holds
  | queued task => cases holds
  | running holder task => cases holds

theorem placed_take {token : Token} (placed : Placed s token) {thread next : Nat}
    {rest : List Nat} (jobs : s.executor = next :: rest) :
    Placed { s with
      executor := rest
      threads := Function.update s.threads thread (.running next)
      started := s.started ++ [next] } (.running thread next) := by
  cases token with
  | queued task =>
      obtain ⟨held, allIdle, oneJob, order⟩ := placed
      rw [oneJob, List.cons.injEq] at jobs
      obtain ⟨same, noRest⟩ := jobs
      subst same noRest
      refine ⟨held, Function.update_self _ _ _, fun other different =>
        (Function.update_of_ne different _ _).trans (allIdle other), rfl, ?_⟩
      rw [order, List.append_assoc, List.singleton_append]
  | free => rw [placed.2.2.1] at jobs; cases jobs
  | scheduling holder => rw [placed.2.2.2.1] at jobs; cases jobs
  | handing holder task => rw [placed.2.2.2.1] at jobs; cases jobs
  | running holder task => rw [placed.2.2.2.1] at jobs; cases jobs

theorem placed_finish {token : Token} (placed : Placed s token) {thread task : Nat}
    (running : s.threads thread = .running task) :
    Placed { s with threads := Function.update s.threads thread .scheduling }
      (.scheduling thread) := by
  have busy : s.threads thread ≠ .idle := by simp [running]
  have holds := placed.busy busy
  rw [running] at holds
  cases token with
  | running holder task' =>
      cases holds
      obtain ⟨held, -, others, noJobs, order⟩ := placed
      exact ⟨held, Function.update_self _ _ _, others.update _, noJobs, order⟩
  | free => cases holds
  | scheduling holder => cases holds
  | handing holder task' => cases holds
  | queued task' => cases holds

theorem placed_step {token : Token} (placed : Placed s token) {label : Label} {t : State}
    (stepped : step s label = some t) : ∃ next, Placed t next := by
  cases label with
  | addTask thread task =>
      simp only [step] at stepped
      split at stepped
      · cases stepped
        exact placed_addTask placed thread task
      · cases stepped
  | scheduleNext thread =>
      simp only [step] at stepped
      split at stepped
      · rename_i scheduling
        cases stepped
        exact placed_scheduleNext placed scheduling
      · cases stepped
  | hand thread =>
      simp only [step] at stepped
      split at stepped
      · rename_i next handing
        cases stepped
        exact ⟨_, placed_hand placed handing⟩
      · cases stepped
  | take thread =>
      simp only [step] at stepped
      split at stepped
      · rename_i next rest idle jobs
        cases stepped
        exact ⟨_, placed_take placed jobs⟩
      · cases stepped
  | finish thread =>
      simp only [step] at stepped
      split at stepped
      · rename_i task running
        cases stepped
        exact ⟨_, placed_finish placed running⟩
      · cases stepped

theorem placed_of_reachable {s : State} (reached : Run.Reachable step initial s) :
    ∃ token, Placed s token :=
  reached.invariant (fun s => ∃ token, Placed s token) ⟨.free, initial_placed⟩
    (fun _ _ _ ⟨_, placed⟩ stepped => placed_step placed stepped)

/-- In every reachable state, at most one thread runs a task of the strand, the tasks have
started in the order of their pushes into `queue_`, and when `running_` is false nothing of the
strand is queued, handed over or running. -/
theorem strand_serial {s : State} (reached : Run.Reachable step initial s) :
    (∀ first second firstTask secondTask, s.threads first = .running firstTask →
      s.threads second = .running secondTask → first = second) ∧
    s.started <+: s.pushed ∧
    (s.running = false → s.queue = [] ∧ s.executor = [] ∧ ∀ thread, s.threads thread = .idle) ∧
    (s.queue ≠ [] → s.executor ≠ [] ∨ ∃ thread, s.threads thread ≠ .idle) := by
  obtain ⟨token, placed⟩ := placed_of_reachable reached
  refine ⟨fun first second firstTask secondTask firstRunning secondRunning => ?_, ?_, ?_, ?_⟩
  · -- both hold the one token
    have firstBusy : s.threads first ≠ .idle := by simp [firstRunning]
    have secondBusy : s.threads second ≠ .idle := by simp [secondRunning]
    have holds := placed.busy secondBusy
    rw [placed.busy firstBusy, Option.some.injEq, Prod.mk.injEq] at holds
    exact holds.1
  · cases token with
    | free => exact ⟨[], by rw [placed.2.2.2.2, List.append_nil]⟩
    | scheduling holder => exact ⟨s.queue, placed.2.2.2.2.symm⟩
    | handing holder task => exact ⟨task :: s.queue, placed.2.2.2.2.symm⟩
    | queued task => exact ⟨task :: s.queue, placed.2.2.2.symm⟩
    | running holder task => exact ⟨s.queue, placed.2.2.2.2.symm⟩
  · intro stopped
    cases token with
    | free => exact ⟨placed.2.1, placed.2.2.1, placed.2.2.2.1⟩
    | scheduling holder => rw [placed.1] at stopped; cases stopped
    | handing holder task => rw [placed.1] at stopped; cases stopped
    | queued task => rw [placed.1] at stopped; cases stopped
    | running holder task => rw [placed.1] at stopped; cases stopped
  · intro waiting
    cases token with
    | free => exact absurd placed.2.1 waiting
    | scheduling holder => exact .inr ⟨holder, by rw [placed.2.1]; exact fun same => by cases same⟩
    | handing holder task =>
        exact .inr ⟨holder, by rw [placed.2.1]; exact fun same => by cases same⟩
    | queued task => exact .inl (by rw [placed.2.2.1]; exact List.cons_ne_nil task [])
    | running holder task =>
        exact .inr ⟨holder, by rw [placed.2.1]; exact fun same => by cases same⟩

theorem strand_serial_two_tasks :
    ∃ s, Run.exec step initial
        [.addTask 0 7, .scheduleNext 0, .hand 0, .take 1, .addTask 2 8] = some s ∧
      s.threads 1 = .running 7 ∧ s.queue = [8] ∧
      ((∀ first second firstTask secondTask, s.threads first = .running firstTask →
        s.threads second = .running secondTask → first = second) ∧
      s.started <+: s.pushed ∧
      (s.running = false → s.queue = [] ∧ s.executor = [] ∧ ∀ thread, s.threads thread = .idle) ∧
      (s.queue ≠ [] → s.executor ≠ [] ∨ ∃ thread, s.threads thread ≠ .idle)) := by
  refine ⟨_, rfl, rfl, rfl, ?_⟩
  exact strand_serial (Run.reachable_of_exec _
    [.addTask 0 7, .scheduleNext 0, .hand 0, .take 1, .addTask 2 8] _ _ rfl)

end Strand

end HighSpeed
