import Mathlib.Logic.Function.Basic
import HighSpeed.Coro.CallStack

/-!
`Awaitable<T>` and `Awaitable<void>` of `coro/Awaitable.hpp`, with `co_spawn` and the pool that
runs the tasks they add.
-/

namespace HighSpeed

namespace Awaitable

inductive Status where
  | suspended
  | running
  | final
  | destroyed
  deriving DecidableEq, Repr

structure Frame (α ε : Type) where
  status : Status
  body : Body α ε
  executor : Option Nat
  awaiting : Option Nat
  value : Option α
  exception : Option ε
  awaiter : Option Nat

variable {α ε : Type}

section
@[local simp]
def Frame.create (body : Body α ε) : Frame α ε :=
  ⟨.suspended, body, none, none, none, none, none⟩
end

structure State (α ε : Type) where
  frames : Nat → Option (Frame α ε)
  nextHandle : Nat
  tasks : List Nat
  workers : Nat → Option Nat
  resumes : List (Nat × Status)
  suspensions : List Nat
  aborted : Bool

/-- `co_spawn(pool, root())`: the root's frame gets the pool as executor and its first resume
is queued; `co_spawn` keeps the handle, so nothing awaits the root. -/
def coSpawn (pool : Nat) (root : Body α ε) : State α ε where
  frames := fun handle =>
    if handle = 0 then some { Frame.create root with executor := some pool } else none
  nextHandle := 1
  tasks := [0]
  workers := fun _ => none
  resumes := []
  suspensions := [0]
  aborted := false

def awaitTransform (parent child : Frame α ε) : Frame α ε :=
  { child with executor := parent.executor }

section
/-- `co_await child()` reached by frame `handle` on `worker`. The call creates the child's frame;
`await_transform` hands it the executor; `await_suspend` asserts it, stores the awaiting handle
and queues the child's first resume; the frame is suspended and its `resume()` returns. -/
@[local simp]
def awaitSuspend (s : State α ε) (worker handle : Nat) (frame : Frame α ε) (child : Body α ε) :
    State α ε :=
  let created := awaitTransform frame (Frame.create child)
  match created.executor with
  | none => { s with aborted := true }
  | some _ =>
      { s with
        frames := Function.update
          (Function.update s.frames s.nextHandle (some { created with awaiting := some handle }))
          handle (some { frame with status := .suspended, awaiter := some s.nextHandle })
        nextHandle := s.nextHandle + 1
        tasks := s.tasks ++ [s.nextHandle]
        workers := Function.update s.workers worker none
        suspensions := s.suspensions ++ [s.nextHandle, handle] }
end

theorem awaitSuspend_of_executor {s : State α ε} {worker handle pool : Nat} {frame : Frame α ε}
    (child : Body α ε) (executor : frame.executor = some pool) :
    awaitSuspend s worker handle frame child = { s with
      frames := Function.update
        (Function.update s.frames s.nextHandle
          (some ⟨.suspended, child, some pool, some handle, none, none, none⟩))
        handle (some { frame with status := .suspended, awaiter := some s.nextHandle })
      nextHandle := s.nextHandle + 1
      tasks := s.tasks ++ [s.nextHandle]
      workers := Function.update s.workers worker none
      suspensions := s.suspensions ++ [s.nextHandle, handle] } := by
  simp only [awaitSuspend, awaitTransform, Frame.create, executor]

section Steps

variable (badOptionalAccess : ε)

def awaitResume (frame : Frame α ε) : Except ε α :=
  match frame.exception with
  | some error => .error error
  | none =>
      match frame.value with
      | some value => .ok value
      | none => .error badOptionalAccess

section
/-- `final_suspend` of frame `handle` on `worker`, its promise holding the outcome.
`final_awaiter` resumes the awaiting frame, if any, on the same worker: there `await_resume`
reads the promise of the frame its `Awaitable` holds, the `Awaitable`'s destructor destroys that
frame, and the body goes on. With nothing to resume, or a handle that names no frame, the
`resume()` that ran the frame returns. -/
@[local simp]
def finalSuspend (s : State α ε) (worker handle : Nat) (frame : Frame α ε) : State α ε :=
  let frames := Function.update s.frames handle (some { frame with status := .final })
  let returned := { s with frames := frames, workers := Function.update s.workers worker none }
  match frame.awaiting with
  | none => returned
  | some parent =>
      match frames parent with
      | none => returned
      | some waiting =>
          match waiting.awaiter with
          | none => returned
          | some held =>
              match frames held with
              | none => returned
              | some heldFrame =>
                  { s with
                    frames := Function.update
                      (Function.update frames held (some { heldFrame with status := .destroyed }))
                      parent (some { waiting with
                        status := .running
                        body := waiting.body.resume (awaitResume badOptionalAccess heldFrame)
                        awaiter := none })
                    workers := Function.update s.workers worker (some parent)
                    resumes := s.resumes ++ [(parent, waiting.status)] }
end

theorem finalSuspend_unawaited {s : State α ε} {worker handle : Nat} {frame : Frame α ε}
    (unawaited : frame.awaiting = none) :
    finalSuspend badOptionalAccess s worker handle frame = { s with
      frames := Function.update s.frames handle (some { frame with status := .final })
      workers := Function.update s.workers worker none } := by
  simp only [finalSuspend, unawaited]

theorem finalSuspend_awaited {s : State α ε} {worker handle parent : Nat} {frame waiting : Frame α ε}
    (awaited : frame.awaiting = some parent) (other : parent ≠ handle)
    (found : s.frames parent = some waiting) (holds : waiting.awaiter = some handle) :
    finalSuspend badOptionalAccess s worker handle frame = { s with
      frames := Function.update
        (Function.update s.frames handle (some { frame with status := .destroyed }))
        parent (some { waiting with
          status := .running
          body := waiting.body.resume (awaitResume badOptionalAccess frame)
          awaiter := none })
      workers := Function.update s.workers worker (some parent)
      resumes := s.resumes ++ [(parent, waiting.status)] } := by
  simp only [finalSuspend, awaited, Function.update_of_ne other, found, holds,
    Function.update_self, Function.update_idem]
  rfl

inductive Label where
  | take (worker : Nat)
  | run (worker : Nat)

section
@[local simp]
def step (threadsNum : Nat) (s : State α ε) : Label → Option (State α ε)
  | .take worker =>
      if s.aborted = false ∧ worker < threadsNum ∧ s.workers worker = none then
        match s.tasks with
        | handle :: rest =>
            (s.frames handle).map fun frame =>
              { s with
                frames := Function.update s.frames handle (some { frame with status := .running })
                tasks := rest
                workers := Function.update s.workers worker (some handle)
                resumes := s.resumes ++ [(handle, frame.status)] }
        | [] => none
      else none
  | .run worker =>
      if s.aborted = false then
        match s.workers worker with
        | some handle =>
            (s.frames handle).map fun frame =>
              match frame.body with
              | .await child _ => awaitSuspend s worker handle frame child
              | .ret value =>
                  finalSuspend badOptionalAccess s worker handle { frame with value := some value }
              | .throw error =>
                  finalSuspend badOptionalAccess s worker handle
                    { frame with exception := some error }
        | none => none
      else none
end

end Steps

end Awaitable

end HighSpeed
