import Mathlib.Data.List.Basic

/-!
`std::vector` as a list: `resize`, which truncates or pads with a value-initialized element and
throws `std::length_error` past `max_size()`, and `std::copy` of a run of elements into the
vector from a position on, which is undefined behaviour past `end()`.
-/

namespace CxxVector

variable {α : Type}

def overwrite (elements : List α) (position : Nat) (data : List α) : List α :=
  elements.take position ++ data ++ elements.drop (position + data.length)

section
/-- `v.resize(count)` on a vector whose `max_size()` is `maxSize`. -/
@[local simp]
def resize (maxSize : Nat) (elements : List α) (count : Nat) (fill : α) : Option (List α) :=
  if elements.length < count ∧ maxSize < count then none
  else some (elements.take count ++ List.replicate (count - elements.length) fill)

/-- `std::copy(data.begin(), data.end(), v.begin() + position)`. -/
@[local simp]
def copyTo (elements : List α) (position : Nat) (data : List α) : Option (List α) :=
  if position + data.length ≤ elements.length then some (overwrite elements position data)
  else none
end

theorem resize_of_le {maxSize : Nat} {elements : List α} {count : Nat}
    (longer : elements.length ≤ count) (fits : count ≤ maxSize) (fill : α) :
    resize maxSize elements count fill =
      some (elements ++ List.replicate (count - elements.length) fill) := by
  rw [resize, if_neg (by omega), List.take_of_length_le longer]

theorem resize_of_gt {maxSize : Nat} {elements : List α} {count : Nat}
    (longer : elements.length < count) (tooLarge : maxSize < count) (fill : α) :
    resize maxSize elements count fill = none := by
  rw [resize, if_pos ⟨longer, tooLarge⟩]

theorem copyTo_of_fits {elements : List α} {position : Nat} {data : List α}
    (fits : position + data.length ≤ elements.length) :
    copyTo elements position data = some (overwrite elements position data) := by
  rw [copyTo, if_pos fits]

theorem length_overwrite {elements : List α} {position : Nat} {data : List α}
    (fits : position + data.length ≤ elements.length) :
    (overwrite elements position data).length = elements.length := by
  simp only [overwrite, List.length_append, List.length_take, List.length_drop]
  omega

theorem drop_overwrite_of_le {elements : List α} {start position : Nat} (data : List α)
    (before : start ≤ position) (fits : position ≤ elements.length) :
    (overwrite elements position data).drop start =
      (elements.drop start).take (position - start) ++ data ++
        elements.drop (position + data.length) := by
  have taken : start ≤ (elements.take position).length := by simp [fits, before]
  simp only [overwrite, List.append_assoc, List.drop_append_of_le_length taken, List.drop_take]

end CxxVector
