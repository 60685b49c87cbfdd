import HighSpeed.Coro.Scheduler

/-!
`Task<T>` and `Task<void>` of `coro/Task.hpp` with the `Scheduler` they hand themselves to.
-/

namespace HighSpeed

namespace Task

inductive Lifecycle where
  | unborn
  | created
  | suspended
  | finalSuspended
  | destroyed
  deriving DecidableEq, Repr

inductive CreatorPc where
  | idle
  | returningObject (coro : Nat)
  | initialSuspending (coro : Nat)
  | holding (coro : Nat)
  deriving DecidableEq

structure State where
  scheduler : Scheduler.State
  frames : Nat → Lifecycle
  creators : Nat → CreatorPc
  resumes : List (Nat × Lifecycle)

def initial : State := ⟨Scheduler.initial, fun _ => .unborn, fun _ => .idle, []⟩

inductive Label where
  | scheduler (label : Scheduler.Label)
  | create (creator coro : Nat)
  | returned (creator : Nat)
  | initialSuspend (creator : Nat)
  | destroy (creator : Nat)

def resumeFrame (frames : Nat → Lifecycle) (coro : Nat) : Nat → Lifecycle :=
  if frames coro = .suspended then Function.update frames coro .finalSuspended else frames

section
@[local simp]
def step (threadsNum : Nat) (s : State) : Label → Option State
  | .scheduler label =>
      (Scheduler.step threadsNum s.scheduler label).map fun scheduler =>
        match label, s.scheduler.workers with
        | .worker index, workers =>
            match workers index with
            | .resuming coro =>
                { s with
                  scheduler := scheduler
                  frames := resumeFrame s.frames coro
                  resumes := s.resumes ++ [(coro, s.frames coro)] }
            | _ => { s with scheduler := scheduler }
        | _, _ => { s with scheduler := scheduler }
  | .create creator coro =>
      if s.creators creator = .idle ∧ s.frames coro = .unborn then
        (Scheduler.step threadsNum s.scheduler (.addCoroutine creator coro)).map fun scheduler =>
          { s with
            scheduler := scheduler
            frames := Function.update s.frames coro .created
            creators := Function.update s.creators creator (.returningObject coro) }
      else none
  | .returned creator =>
      match s.creators creator with
      | .returningObject coro =>
          if s.scheduler.clients creator = .idle then
            some { s with creators := Function.update s.creators creator (.initialSuspending coro) }
          else none
      | _ => none
  | .initialSuspend creator =>
      match s.creators creator with
      | .initialSuspending coro =>
          some { s with
            frames := Function.update s.frames coro .suspended
            creators := Function.update s.creators creator (.holding coro) }
      | _ => none
  | .destroy creator =>
      match s.creators creator with
      | .holding coro =>
          some { s with
            frames := Function.update s.frames coro .destroyed
            creators := Function.update s.creators creator .idle }
      | _ => none
end

/-- Thread 0 calls a `Task` coroutine; its `add_coroutine` pushes the handle and finds no worker
waiting. Before `get_return_object` returns, the worker passes its checks, pops the handle and
resumes the frame, which has not reached `initial_suspend`. -/
theorem task_resumed_before_initial_suspend :
    ∃ final, Run.exec (step 1) initial
        [.create 0 5, .scheduler (.push 0), .scheduler (.notifySkip 0),
          .scheduler (.increment 0), .scheduler (.worker 0), .scheduler (.worker 0),
          .scheduler (.worker 0), .scheduler (.worker 0), .scheduler (.worker 0),
          .scheduler (.worker 0)] = some final ∧
      final.resumes = [(5, .created)] ∧ final.creators 0 = .returningObject 5 :=
  ⟨_, rfl, rfl, rfl⟩

end Task

end HighSpeed
