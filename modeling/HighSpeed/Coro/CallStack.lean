import Mathlib.Order.Basic

/-!
What a tree of `Awaitable` coroutines computes: each `co_await` of a child is a plain call.
-/

namespace HighSpeed

namespace Awaitable

inductive Body (α ε : Type) where
  | ret (value : α)
  | throw (error : ε)
  | await (child : Body α ε) (rest : Except ε α → Body α ε)

variable {α ε : Type}

def Body.eval : Body α ε → Except ε α
  | .ret value => .ok value
  | .throw error => .error error
  | .await child rest => (rest child.eval).eval

section
@[local simp]
def Body.finished? : Body α ε → Option (Except ε α)
  | .ret value => some (.ok value)
  | .throw error => some (.error error)
  | .await _ _ => none

@[local simp]
def Body.resume : Body α ε → Except ε α → Body α ε
  | .await _ rest, outcome => rest outcome
  | body, _ => body
end

def Body.cost : Body α ε → Nat
  | .ret _ => 1
  | .throw _ => 1
  | .await child rest => child.cost + (rest child.eval).cost + 1

theorem Body.eval_of_finished {body : Body α ε} {outcome : Except ε α}
    (finished : body.finished? = some outcome) : body.eval = outcome := by
  cases body with
  | ret value =>
      simp only [finished?, Option.some.injEq] at finished
      rw [← finished]
      rfl
  | throw error =>
      simp only [finished?, Option.some.injEq] at finished
      rw [← finished]
      rfl
  | await child rest => cases finished

structure Call (α ε : Type) where
  focus : Body α ε
  stack : List (Except ε α → Body α ε)

def unwind : List (Except ε α → Body α ε) → Except ε α → Except ε α
  | [], outcome => outcome
  | rest :: stack, outcome => unwind stack (rest outcome).eval

def unwindCost : List (Except ε α → Body α ε) → Except ε α → Nat
  | [], _ => 0
  | rest :: stack, outcome => (rest outcome).cost + unwindCost stack (rest outcome).eval

namespace Call

def result (call : Call α ε) : Except ε α := unwind call.stack call.focus.eval

def cost (call : Call α ε) : Nat := call.focus.cost + unwindCost call.stack call.focus.eval

section
@[local simp]
def step (call : Call α ε) : Option (Call α ε) :=
  match call.focus, call.stack with
  | .await child rest, stack => some ⟨child, rest :: stack⟩
  | .ret value, rest :: stack => some ⟨rest (.ok value), stack⟩
  | .throw error, rest :: stack => some ⟨rest (.error error), stack⟩
  | _, [] => none
end

theorem step_finished {focus : Body α ε} {outcome : Except ε α}
    (finished : focus.finished? = some outcome) (rest : Except ε α → Body α ε)
    (stack : List (Except ε α → Body α ε)) :
    (⟨focus, rest :: stack⟩ : Call α ε).step = some ⟨rest outcome, stack⟩ := by
  cases focus with
  | ret value =>
      simp only [Body.finished?, Option.some.injEq] at finished
      rw [← finished]
      rfl
  | throw error =>
      simp only [Body.finished?, Option.some.injEq] at finished
      rw [← finished]
      rfl
  | await child rest => cases finished

theorem result_step {call next : Call α ε} (stepped : call.step = some next) :
    next.result = call.result := by
  obtain ⟨focus, stack⟩ := call
  cases focus with
  | await child rest =>
      cases stepped
      rfl
  | ret value =>
      cases stack with
      | nil => cases stepped
      | cons rest stack =>
          cases stepped
          rfl
  | throw error =>
      cases stack with
      | nil => cases stepped
      | cons rest stack =>
          cases stepped
          rfl

theorem cost_step {call next : Call α ε} (stepped : call.step = some next) :
    next.cost + 1 = call.cost := by
  obtain ⟨focus, stack⟩ := call
  cases focus with
  | await child rest =>
      cases stepped
      simp only [cost, unwindCost, Body.cost, Body.eval]
      omega
  | ret value =>
      cases stack with
      | nil => cases stepped
      | cons rest stack =>
          cases stepped
          simp only [cost, unwindCost, Body.cost, Body.eval]
          omega
  | throw error =>
      cases stack with
      | nil => cases stepped
      | cons rest stack =>
          cases stepped
          simp only [cost, unwindCost, Body.cost, Body.eval]
          omega

theorem finished_of_step_none {call : Call α ε} (stopped : call.step = none) :
    call.stack = [] ∧ call.focus.finished? = some call.result := by
  obtain ⟨focus, stack⟩ := call
  cases focus with
  | await child rest => cases stopped
  | ret value =>
      cases stack with
      | nil => exact ⟨rfl, rfl⟩
      | cons rest stack => cases stopped
  | throw error =>
      cases stack with
      | nil => exact ⟨rfl, rfl⟩
      | cons rest stack => cases stopped

end Call

end Awaitable

end HighSpeed
