import Mathlib.Algebra.Group.Nat.Defs
import Mathlib.Data.List.Range

/-!
`Allocator` of `alloc/alloc.hpp`, as the calls it makes on `gMemoryPool` and on the objects.
-/

namespace HighSpeed

namespace Allocator

inductive Event where
  | allocate (size : Nat)
  | construct (index : Nat)
  | destroy (index : Nat)
  | deallocate (size : Nat)
  deriving DecidableEq, Repr

inductive Outcome where
  | returned
  | rethrown
  deriving DecidableEq, Repr

def alloc (size : Nat) (throws : Bool) : List Event × Outcome :=
  if throws then ([.allocate size, .deallocate size], .rethrown)
  else ([.allocate size, .construct 0], .returned)

section
@[local simp]
def constructLoop (throwsAt : Nat → Bool) : List Nat → List Event × Bool
  | [] => ([], false)
  | index :: rest =>
      if throwsAt index then ([], true)
      else
        let built := constructLoop throwsAt rest
        (.construct index :: built.1, built.2)

@[local simp]
def allocArray (elementSize n : Nat) (throwsAt : Nat → Bool) : List Event × Outcome :=
  let size := elementSize * n % 2 ^ 64
  let built := constructLoop throwsAt (List.range n)
  if built.2 then
    (.allocate size :: built.1 ++ (List.range n).map .destroy ++ [.deallocate size], .rethrown)
  else (.allocate size :: built.1, .returned)
end

def deallocArray (elementSize n : Nat) : List Event :=
  (List.range n).map .destroy ++ [.deallocate (elementSize * n % 2 ^ 64)]

theorem constructLoop_append (throwsAt : Nat → Bool) (built rest : List Nat)
    (noThrow : ∀ index ∈ built, throwsAt index = false) :
    constructLoop throwsAt (built ++ rest) =
      (built.map .construct ++ (constructLoop throwsAt rest).1,
        (constructLoop throwsAt rest).2) := by
  induction built with
  | nil => rfl
  | cons index built ih =>
      have first : throwsAt index = false := noThrow index List.mem_cons_self
      have others : ∀ other ∈ built, throwsAt other = false :=
        fun other member => noThrow other (List.mem_cons_of_mem index member)
      simp only [List.cons_append, constructLoop, first, Bool.false_eq_true, if_false,
        ih others, List.map_cons]

theorem constructLoop_all (throwsAt : Nat → Bool) (slots : List Nat)
    (noThrow : ∀ index ∈ slots, throwsAt index = false) :
    constructLoop throwsAt slots = (slots.map .construct, false) := by
  have whole := constructLoop_append throwsAt slots [] noThrow
  rw [List.append_nil] at whole
  rw [whole]
  simp only [constructLoop, List.append_nil]

theorem constructLoop_range_throws (throwsAt : Nat → Bool) {n k : Nat} (inside : k < n)
    (fails : throwsAt k = true) (before : ∀ index < k, throwsAt index = false) :
    constructLoop throwsAt (List.range n) = ((List.range k).map .construct, true) := by
  obtain ⟨later, rfl⟩ : ∃ later, n = k + (later + 1) := ⟨n - k - 1, by omega⟩
  have split : List.range (k + (later + 1)) = List.range k ++ k :: (List.range later).map
      (fun index => k + (index + 1)) := by
    rw [List.range_add, List.range_succ_eq_map]
    simp only [List.map_cons, List.map_map, Nat.add_zero]
    rfl
  have builtFirst : ∀ index ∈ List.range k, throwsAt index = false :=
    fun index member => before index (List.mem_range.mp member)
  rw [split, constructLoop_append throwsAt _ _ builtFirst]
  simp only [constructLoop, fails, if_true, List.append_nil]

theorem allocArray_returns (elementSize n : Nat) (throwsAt : Nat → Bool)
    (noThrow : ∀ index < n, throwsAt index = false) :
    allocArray elementSize n throwsAt =
      (.allocate (elementSize * n % 2 ^ 64) :: (List.range n).map .construct, .returned) := by
  have built := constructLoop_all throwsAt (List.range n)
    (fun index member => noThrow index (List.mem_range.mp member))
  simp only [allocArray, built, Bool.false_eq_true, if_false]

/-- When the constructor of slot `k < n` throws, the catch block runs the destructor on all `n`
slots, so on the `n - k` slots from `k` on whose constructor never returned, and gives back the
block it took. -/
theorem allocArray_destroys_unconstructed (elementSize n k : Nat) (throwsAt : Nat → Bool)
    (inside : k < n) (fails : throwsAt k = true) (before : ∀ index < k, throwsAt index = false) :
    allocArray elementSize n throwsAt =
      (.allocate (elementSize * n % 2 ^ 64) :: (List.range k).map .construct ++
        (List.range n).map .destroy ++ [.deallocate (elementSize * n % 2 ^ 64)], .rethrown) := by
  simp only [allocArray, constructLoop_range_throws throwsAt inside fails before, if_true]

theorem allocArray_destroys_unconstructed_second :
    1 < 3 ∧ (fun index => index == 1) 1 = true ∧
      (∀ index < 1, (fun index => index == 1) index = false) ∧
      allocArray 4 3 (fun index => index == 1) =
        (.allocate (4 * 3 % 2 ^ 64) :: (List.range 1).map .construct ++
          (List.range 3).map .destroy ++ [.deallocate (4 * 3 % 2 ^ 64)], .rethrown) :=
  ⟨by decide, rfl, by decide,
    allocArray_destroys_unconstructed 4 3 1 (fun index => index == 1) (by decide) rfl (by decide)⟩

end Allocator

end HighSpeed
