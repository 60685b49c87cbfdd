import Mathlib.Order.Basic

/-!
`Generator<T>` of `coro/Generator.hpp` and the two loops that consume it.
-/

namespace HighSpeed

namespace Generator

variable {α ε : Type}

structure Frame (α ε : Type) where
  pending : List α
  ending : Option ε
  done : Bool
  value : Option α
  exception : Option ε

section
@[local simp]
def Frame.create (yields : List α) (ending : Option ε) : Frame α ε :=
  ⟨yields, ending, false, none, none⟩

@[local simp]
def Frame.resume (frame : Frame α ε) : Frame α ε :=
  match frame.pending with
  | value :: rest => { frame with pending := rest, value := some value }
  | [] =>
      match frame.ending with
      | none => { frame with done := true }
      | some error => { frame with done := true, exception := some error }
end

inductive Thrown (ε : Type) where
  | rethrown (error : ε)
  | runtimeError

section
/-- The check after a resume in `begin`, `operator++` and `next`: `done()` first, then
`exception_`. `true` means the iterator is at its end. -/
@[local simp]
def afterResume (frame : Frame α ε) : Except (Thrown ε) (Frame α ε × Bool) :=
  if frame.done then .ok (frame, true)
  else
    match frame.exception with
    | some error => .error (.rethrown error)
    | none => .ok (frame, false)
end

/-- `begin()` on a generator that owns its frame. -/
def begin (frame : Frame α ε) : Except (Thrown ε) (Frame α ε × Bool) :=
  if frame.done then .ok (frame, true) else afterResume frame.resume

def increment (frame : Frame α ε) (isEnd : Bool) : Except (Thrown ε) (Frame α ε × Bool) :=
  if isEnd || frame.done then .ok (frame, true) else afterResume frame.resume

def deref (frame : Frame α ε) (isEnd : Bool) : Except (Thrown ε) α :=
  if isEnd || frame.done then .error .runtimeError
  else
    match frame.value with
    | some value => .ok value
    | none => .error .runtimeError

section
/-- `next()`: whether a value was produced. -/
@[local simp]
def next (frame : Frame α ε) : Except (Thrown ε) (Frame α ε × Bool) :=
  if frame.done then .ok (frame, false)
  else
    let frame := frame.resume
    if frame.done then .ok (frame, false)
    else
      match frame.exception with
      | some error => .error (.rethrown error)
      | none => .ok (frame, true)
end

inductive LoopEnd (ε : Type) where
  | finished
  | thrown (thrown : Thrown ε)

section
@[local simp]
def rangeForFrom : Nat → Frame α ε → Bool → Option (List α × LoopEnd ε)
  | 0, _, _ => none
  | fuel + 1, frame, isEnd =>
      if isEnd then some ([], .finished)
      else
        match deref frame isEnd with
        | .error thrown => some ([], .thrown thrown)
        | .ok value =>
            match increment frame isEnd with
            | .error thrown => some ([value], .thrown thrown)
            | .ok (frame, isEnd) =>
                (rangeForFrom fuel frame isEnd).map fun (rest, ending) => (value :: rest, ending)
end

def rangeFor (fuel : Nat) (frame : Frame α ε) : Option (List α × LoopEnd ε) :=
  match begin frame with
  | .error thrown => some ([], .thrown thrown)
  | .ok (frame, isEnd) => rangeForFrom fuel frame isEnd

def nextLoop : Nat → Frame α ε → Option (List (Option α) × LoopEnd ε)
  | 0, _ => none
  | fuel + 1, frame =>
      match next frame with
      | .error thrown => some ([], .thrown thrown)
      | .ok (_, false) => some ([], .finished)
      | .ok (frame, true) =>
          (nextLoop fuel frame).map fun (rest, ending) => (frame.value :: rest, ending)

/-! ## Both loops observe the yields and end normally -/

def Yielded (frame : Frame α ε) (value : α) (rest : List α) : Prop :=
  frame.pending = rest ∧ frame.done = false ∧ frame.value = some value ∧ frame.exception = none

theorem Frame.resume_yields {frame : Frame α ε} {value : α} {rest : List α}
    (pending : frame.pending = value :: rest) (notDone : frame.done = false)
    (noException : frame.exception = none) : Yielded frame.resume value rest := by
  unfold Frame.resume
  rw [pending]
  exact ⟨rfl, notDone, rfl, noException⟩

theorem Frame.resume_done {frame : Frame α ε} (pending : frame.pending = []) :
    frame.resume.done = true := by
  unfold Frame.resume
  rw [pending]
  cases frame.ending <;> rfl

theorem rangeForFrom_yielded (fuel : Nat) (rest : List α) :
    ∀ (frame : Frame α ε) (value : α), Yielded frame value rest → rest.length + 2 ≤ fuel →
      rangeForFrom fuel frame false = some (value :: rest, .finished) := by
  induction rest generalizing fuel with
  | nil =>
      intro frame value ⟨pending, notDone, stored, _⟩ enough
      obtain ⟨fuel, rfl⟩ : ∃ smaller, fuel = smaller + 2 := ⟨fuel - 2, by
        simp only [List.length_nil] at enough
        omega⟩
      have finished : afterResume frame.resume = .ok (frame.resume, true) := by
        simp only [afterResume, Frame.resume_done pending, if_true]
      simp only [rangeForFrom, deref, increment, notDone, stored, Bool.false_or,
        Bool.false_eq_true, if_false, finished, if_true, Option.map_some]
  | cons next later ih =>
      intro frame value ⟨pending, notDone, stored, noException⟩ enough
      obtain ⟨fuel, rfl⟩ : ∃ smaller, fuel = smaller + 1 := ⟨fuel - 1, by omega⟩
      have yielded := Frame.resume_yields pending notDone noException
      have moved : afterResume frame.resume = .ok (frame.resume, false) := by
        simp only [afterResume, yielded.2.1, yielded.2.2.2, Bool.false_eq_true, if_false]
      have tail := ih fuel frame.resume next yielded
        (by simp only [List.length_cons] at enough; omega)
      simp only [rangeForFrom, deref, increment, notDone, stored, Bool.false_or,
        Bool.false_eq_true, if_false, moved, tail, Option.map_some]

theorem nextLoop_pending (fuel : Nat) (yields : List α) :
    ∀ frame : Frame α ε, frame.pending = yields → frame.done = false → frame.exception = none →
      yields.length + 1 ≤ fuel → nextLoop fuel frame = some (yields.map some, .finished) := by
  induction yields generalizing fuel with
  | nil =>
      intro frame pending notDone _ enough
      obtain ⟨fuel, rfl⟩ : ∃ smaller, fuel = smaller + 1 := ⟨fuel - 1, by omega⟩
      simp only [nextLoop, next, notDone, Bool.false_eq_true, if_false, Frame.resume_done pending,
        if_true, List.map_nil]
  | cons value later ih =>
      intro frame pending notDone noException enough
      obtain ⟨fuel, rfl⟩ : ∃ smaller, fuel = smaller + 1 := ⟨fuel - 1, by omega⟩
      obtain ⟨laterPending, stillRunning, stored, clean⟩ :=
        Frame.resume_yields pending notDone noException
      have tail := ih fuel frame.resume laterPending stillRunning clean
        (by simp only [List.length_cons] at enough; omega)
      simp only [nextLoop, next, notDone, Bool.false_eq_true, if_false, stillRunning, clean,
        tail, Option.map_some, stored, List.map_cons]

/-- Both consumer loops over a generator whose body yields `yields` and then ends observe exactly
`yields` and finish normally, also when the body ends by throwing: its exception never reaches
the consumer. -/
theorem generator_loops_finish (yields : List α) (ending : Option ε) (fuel : Nat)
    (enough : yields.length + 1 ≤ fuel) :
    rangeFor fuel (Frame.create yields ending) = some (yields, .finished) ∧
      nextLoop fuel (Frame.create yields ending) = some (yields.map some, .finished) := by
  refine ⟨?_, nextLoop_pending fuel yields _ rfl rfl rfl enough⟩
  cases yields with
  | nil =>
      obtain ⟨fuel, rfl⟩ : ∃ smaller, fuel = smaller + 1 := ⟨fuel - 1, by omega⟩
      have finished : afterResume (Frame.create ([] : List α) ending).resume =
          .ok ((Frame.create [] ending).resume, true) := by
        simp only [afterResume, Frame.resume_done (rfl : (Frame.create ([] : List α) ending).pending
          = []), if_true]
      simp only [rangeFor, begin, Frame.create, Bool.false_eq_true, if_false] at finished ⊢
      simp only [finished, rangeForFrom, if_true]
  | cons value later =>
      have yielded := Frame.resume_yields (rfl : (Frame.create (value :: later) ending).pending =
        value :: later) rfl rfl
      have moved : begin (Frame.create (value :: later) ending) =
          .ok ((Frame.create (value :: later) ending).resume, false) := by
        simp only [begin, Frame.create, afterResume, Bool.false_eq_true, if_false]
        simp only [Frame.create] at yielded
        simp only [yielded.2.1, yielded.2.2.2, Bool.false_eq_true, if_false]
      simp only [rangeFor, moved]
      exact rangeForFrom_yielded fuel later _ value yielded
        (by simp only [List.length_cons] at enough; omega)

/-- A body that yields 1 and 2 and then throws: both loops see 1 and 2 and end normally. -/
theorem generator_loops_finish_thrown :
    [1, 2].length + 1 ≤ 3 ∧
      rangeFor 3 (Frame.create [1, 2] (some "boom")) = some ([1, 2], .finished) ∧
      nextLoop 3 (Frame.create [1, 2] (some "boom")) = some ([1, 2].map some, .finished) :=
  ⟨by decide, generator_loops_finish [1, 2] (some "boom") 3 (by decide)⟩

end Generator

end HighSpeed
