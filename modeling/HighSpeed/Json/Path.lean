import HighSpeed.Json.Core
import HighSpeed.Lib.CxxVector

/-!
Path assignment through `JsonValue`, the proxy of `protocol/Json.hpp`.
-/

namespace HighSpeed

section
@[local simp]
def Json.slotAt : Json → List Nat → Option (Option Json)
  | node, [] => some (some node)
  | .object members, index :: path =>
      members[index]?.bind fun (_, child) => child.slotAt path
  | .array elements, index :: path =>
      match elements[index]? with
      | some (some child) => child.slotAt path
      | some none => if path = [] then some none else none
      | none => none
  | _, _ :: _ => none

@[local simp]
def Json.setSlot : Json → List Nat → Json → Option Json
  | _, [], value => some value
  | .object members, index :: path, value =>
      members[index]?.bind fun (key, child) =>
        (child.setSlot path value).map fun child => .object (members.set index (key, child))
  | .array elements, index :: path, value =>
      match elements[index]? with
      | some (some child) =>
          (child.setSlot path value).map fun child => .array (elements.set index (some child))
      | some none => if path = [] then some (.array (elements.set index (some value))) else none
      | none => none
  | _, _ :: _, _ => none

/-- `JsonObject::getRefForKeyCreate`: the members after the call and the index of the slot it
returns, the first member with `key` or a `(key, null)` appended at the end. -/
@[local simp]
def JsonObject.getRefForKeyCreate (members : List (List Char × Json)) (key : List Char) :
    List (List Char × Json) × Nat :=
  match members.findIdx? (fun member => member.1 == key) with
  | some index => (members, index)
  | none => (members ++ [(key, .null)], members.length)

/-- `max_size()` of `std::vector<std::unique_ptr<JsonBase>>`: `PTRDIFF_MAX` over the size of a
pointer. -/
def JsonArray.maxSize : Nat := (2 ^ 63 - 1) / 8

/-- `JsonArray::getElementRefCreate`: `none` when `resize` throws `std::length_error`, and when
`idx` is still out of range after the resize to the `size_t` sum `idx + 1`, where
`elements_[idx]` is undefined behaviour. -/
@[local simp]
def JsonArray.getElementRefCreate (elements : List (Option Json)) (idx : UInt64) :
    Option (List (Option Json) × Nat) :=
  (if elements.length ≤ idx.toNat then
      (CxxVector.resize JsonArray.maxSize elements (idx + 1).toNat none).map
        (List.map fun element => some (element.getD .null))
    else some elements).bind fun elements =>
    match elements[idx.toNat]? with
    | some element => some (elements.set idx.toNat (some (element.getD .null)), idx.toNat)
    | none => none
end

/-- One step of an access path: `operator[](const std::string&)` or `operator[](size_t)`. -/
inductive PathStep where
  | key (name : List Char)
  | index (idx : UInt64)
  deriving DecidableEq, Repr

section
@[local simp]
def objectMembers : Option Json → List (List Char × Json)
  | some (.object members) => members
  | _ => []

@[local simp]
def arrayElements : Option Json → List (Option Json)
  | some (.array elements) => elements
  | _ => []
end

namespace JsonValue

/-- The proxy constructor `JsonValue(std::unique_ptr<JsonBase>*)`: an unset slot gets a null. -/
def make (root : Json) (slot : List Nat) : Option Json :=
  match root.slotAt slot with
  | some none => root.setSlot slot .null
  | some (some _) => some root
  | none => none

section
@[local simp]
def indexKey (root : Json) (slot : List Nat) (key : List Char) : Option (Json × List Nat) := do
  let current ← root.slotAt slot
  let (members, index) := JsonObject.getRefForKeyCreate (objectMembers current) key
  let root ← root.setSlot slot (.object members)
  let root ← make root (slot ++ [index])
  pure (root, slot ++ [index])

@[local simp]
def indexAt (root : Json) (slot : List Nat) (idx : UInt64) : Option (Json × List Nat) := do
  let current ← root.slotAt slot
  let (elements, index) ← JsonArray.getElementRefCreate (arrayElements current) idx
  let root ← root.setSlot slot (.array elements)
  let root ← make root (slot ++ [index])
  pure (root, slot ++ [index])

@[local simp]
def access (root : Json) (slot : List Nat) : List PathStep → Option (Json × List Nat)
  | [] => some (root, slot)
  | .key name :: steps =>
      (indexKey root slot name).bind fun (root, slot) => access root slot steps
  | .index idx :: steps =>
      (indexAt root slot idx).bind fun (root, slot) => access root slot steps

@[local simp]
def assignPath (tree : Json) (steps : List PathStep) (value : Json) : Option Json :=
  (access tree [] steps).bind fun (root, slot) => root.setSlot slot value
end

end JsonValue

/-! ## The update as a function on trees -/

def setPath : Json → List PathStep → Json → Json
  | _, [], value => value
  | node, .key name :: steps, value =>
      let members := objectMembers (some node)
      match members.findIdx? (fun member => member.1 == name) with
      | some index =>
          .object (members.modify index fun (key, child) => (key, setPath child steps value))
      | none => .object (members ++ [(name, setPath .null steps value)])
  | node, .index idx :: steps, value =>
      let elements := arrayElements (some node)
      let padded :=
        if elements.length ≤ idx.toNat then
          elements ++ List.replicate (idx.toNat + 1 - elements.length) (some .null)
        else elements
      .array (padded.modify idx.toNat fun element =>
        some (setPath (element.getD .null) steps value))

section
@[local simp]
def fillPadded (elements : List (Option Json)) (index : Nat) : List (Option Json) :=
  if elements.length ≤ index then
    (elements ++ List.replicate (index + 1 - elements.length) none).map
      fun (element : Option Json) => some (element.getD .null)
  else elements

@[local simp]
def setPathFilling : Json → List PathStep → Json → Json
  | _, [], value => value
  | node, .key name :: steps, value =>
      let members := objectMembers (some node)
      match members.findIdx? (fun member => member.1 == name) with
      | some index =>
          .object (members.modify index fun (key, child) => (key, setPathFilling child steps value))
      | none => .object (members ++ [(name, setPathFilling .null steps value)])
  | node, .index idx :: steps, value =>
      let elements := arrayElements (some node)
      .array ((fillPadded elements idx.toNat).modify idx.toNat fun element =>
        some (setPathFilling (element.getD .null) steps value))
end

/-! ## The proxy chain computes the update

A slot path behaves like a pointer: the slot lemmas below say that writing and reading a slot
compose as they do in memory, and that the slot of a child is the parent's slot extended by one
position. -/

section Slots

variable {value : Json}

theorem Json.slotAt_cons_eq_some {root : Json} {index : Nat} {path : List Nat}
    {found : Option Json} (located : root.slotAt (index :: path) = some found) :
    (∃ members key child, root = .object members ∧ members[index]? = some (key, child) ∧
        child.slotAt path = some found) ∨
      (∃ elements child, root = .array elements ∧ elements[index]? = some (some child) ∧
        child.slotAt path = some found) ∨
      (∃ elements, root = .array elements ∧ elements[index]? = some none ∧ path = [] ∧
        found = none) := by
  cases root with
  | object members =>
      simp only [Json.slotAt, Option.bind_eq_some_iff] at located
      obtain ⟨⟨key, child⟩, member, childFound⟩ := located
      exact .inl ⟨members, key, child, rfl, member, childFound⟩
  | array elements =>
      simp only [Json.slotAt] at located
      split at located
      · rename_i child element
        exact .inr (.inl ⟨elements, child, rfl, element, located⟩)
      · rename_i element
        split at located
        · rename_i atEnd
          exact .inr (.inr ⟨elements, rfl, element, atEnd, (Option.some.inj located).symm⟩)
        · cases located
      · cases located
  | _ => simp [Json.slotAt] at located

theorem Json.setSlot_cons_eq_some {root updated : Json} {index : Nat} {path : List Nat}
    (written : root.setSlot (index :: path) value = some updated) :
    (∃ members key child childUpdated, root = .object members ∧
        members[index]? = some (key, child) ∧ child.setSlot path value = some childUpdated ∧
        updated = .object (members.set index (key, childUpdated))) ∨
      (∃ elements child childUpdated, root = .array elements ∧
        elements[index]? = some (some child) ∧ child.setSlot path value = some childUpdated ∧
        updated = .array (elements.set index (some childUpdated))) ∨
      (∃ elements, root = .array elements ∧ elements[index]? = some none ∧ path = [] ∧
        updated = .array (elements.set index (some value))) := by
  cases root with
  | object members =>
      simp only [Json.setSlot, Option.bind_eq_some_iff, Option.map_eq_some_iff] at written
      obtain ⟨⟨key, child⟩, member, childUpdated, childSet, rfl⟩ := written
      exact .inl ⟨members, key, child, childUpdated, rfl, member, childSet, rfl⟩
  | array elements =>
      simp only [Json.setSlot] at written
      split at written
      · rename_i child element
        simp only [Option.map_eq_some_iff] at written
        obtain ⟨childUpdated, childSet, rfl⟩ := written
        exact .inr (.inl ⟨elements, child, childUpdated, rfl, element, childSet, rfl⟩)
      · rename_i element
        split at written
        · rename_i atEnd
          exact .inr (.inr ⟨elements, rfl, element, atEnd, (Option.some.inj written).symm⟩)
        · cases written
      · cases written
  | _ => simp [Json.setSlot] at written

theorem Json.setSlot_of_slotAt {root : Json} {slot : List Nat} {node : Option Json}
    (found : root.slotAt slot = some node) (value : Json) :
    ∃ updated, root.setSlot slot value = some updated := by
  induction slot generalizing root node with
  | nil => exact ⟨value, rfl⟩
  | cons index slot ih =>
      rcases Json.slotAt_cons_eq_some found with
        ⟨members, key, child, rfl, member, childFound⟩ |
          ⟨elements, child, rfl, element, childFound⟩ | ⟨elements, rfl, element, rfl, -⟩
      · obtain ⟨updated, childSet⟩ := ih childFound
        exact ⟨.object (members.set index (key, updated)),
          by simp [Json.setSlot, member, childSet]⟩
      · obtain ⟨updated, childSet⟩ := ih childFound
        exact ⟨.array (elements.set index (some updated)),
          by simp [Json.setSlot, element, childSet]⟩
      · exact ⟨.array (elements.set index (some value)), by simp [Json.setSlot, element]⟩

theorem Json.slotAt_setSlot {root updated : Json} {slot : List Nat}
    (written : root.setSlot slot value = some updated) : updated.slotAt slot = some (some value) := by
  induction slot generalizing root updated with
  | nil =>
      simp only [Json.setSlot, Option.some.injEq] at written
      subst updated
      rfl
  | cons index slot ih =>
      rcases Json.setSlot_cons_eq_some written with
        ⟨members, key, child, childUpdated, rfl, member, childSet, rfl⟩ |
          ⟨elements, child, childUpdated, rfl, element, childSet, rfl⟩ |
          ⟨elements, rfl, element, rfl, rfl⟩
      · have bound : index < members.length := (List.getElem?_eq_some_iff.mp member).1
        simp [Json.slotAt, bound, ih childSet]
      · have bound : index < elements.length := (List.getElem?_eq_some_iff.mp element).1
        simp [Json.slotAt, bound, ih childSet]
      · have bound : index < elements.length := (List.getElem?_eq_some_iff.mp element).1
        simp [Json.slotAt, bound]

theorem Json.slotAt_append {root node : Json} {slot : List Nat}
    (found : root.slotAt slot = some (some node)) (path : List Nat) :
    root.slotAt (slot ++ path) = node.slotAt path := by
  induction slot generalizing root with
  | nil =>
      simp only [Json.slotAt, Option.some.injEq] at found
      subst found
      rfl
  | cons index slot ih =>
      rcases Json.slotAt_cons_eq_some found with
        ⟨members, key, child, rfl, member, childFound⟩ |
          ⟨elements, child, rfl, element, childFound⟩ | ⟨elements, rfl, element, rfl, unset⟩
      · simp [Json.slotAt, member, ih childFound]
      · simp [Json.slotAt, element, ih childFound]
      · cases unset

theorem Json.setSlot_append {root node : Json} {slot : List Nat}
    (found : root.slotAt slot = some (some node)) (path : List Nat) :
    root.setSlot (slot ++ path) value = (node.setSlot path value).bind (root.setSlot slot) := by
  induction slot generalizing root with
  | nil =>
      simp only [Json.slotAt, Option.some.injEq] at found
      subst found
      simp [Json.setSlot]
  | cons index slot ih =>
      rcases Json.slotAt_cons_eq_some found with
        ⟨members, key, child, rfl, member, childFound⟩ |
          ⟨elements, child, rfl, element, childFound⟩ | ⟨elements, rfl, element, rfl, unset⟩
      · simp [Json.setSlot, member, ih childFound, Option.map_bind]
      · simp [Json.setSlot, element, ih childFound, Option.map_bind]
      · cases unset

theorem Json.setSlot_setSlot {root updated first : Json} {slot : List Nat}
    (written : root.setSlot slot first = some updated) (second : Json) :
    updated.setSlot slot second = root.setSlot slot second := by
  induction slot generalizing root updated with
  | nil => simp [Json.setSlot]
  | cons index slot ih =>
      rcases Json.setSlot_cons_eq_some written with
        ⟨members, key, child, childUpdated, rfl, member, childSet, rfl⟩ |
          ⟨elements, child, childUpdated, rfl, element, childSet, rfl⟩ |
          ⟨elements, rfl, element, rfl, rfl⟩
      · obtain ⟨bound, entry⟩ := List.getElem?_eq_some_iff.mp member
        simp [Json.setSlot, bound, entry, ih childSet]
      · obtain ⟨bound, entry⟩ := List.getElem?_eq_some_iff.mp element
        simp [Json.setSlot, bound, entry, ih childSet]
      · obtain ⟨bound, entry⟩ := List.getElem?_eq_some_iff.mp element
        simp [Json.setSlot, bound, entry]

end Slots

theorem JsonValue.make_of_set {root node : Json} {slot : List Nat}
    (found : root.slotAt slot = some (some node)) : JsonValue.make root slot = some root := by
  simp [JsonValue.make, found]

theorem length_fillPadded (elements : List (Option Json)) (index : Nat) :
    index < (fillPadded elements index).length := by
  unfold fillPadded
  split
  · simp only [List.length_map, List.length_append, List.length_replicate]
    omega
  · omega

theorem JsonArray.maxSize_eq : JsonArray.maxSize = 2 ^ 60 - 1 := by
  decide

theorem toNat_add_one_of_lt {idx : UInt64} (below : idx.toNat + 1 < 2 ^ 64) :
    (idx + 1).toNat = idx.toNat + 1 := by
  rw [UInt64.toNat_add, UInt64.toNat_one]
  exact Nat.mod_eq_of_lt below

theorem JsonArray.getElementRefCreate_eq (elements : List (Option Json)) (idx : UInt64)
    (bounded : idx.toNat < JsonArray.maxSize) :
    JsonArray.getElementRefCreate elements idx =
      some ((fillPadded elements idx.toNat).set idx.toNat
        (some (((fillPadded elements idx.toNat)[idx.toNat]?.getD none).getD .null)), idx.toNat) := by
  rw [JsonArray.maxSize_eq] at bounded
  have successor : (idx + 1).toNat = idx.toNat + 1 := toNat_add_one_of_lt (by omega)
  have padded : (if elements.length ≤ idx.toNat then
      (CxxVector.resize JsonArray.maxSize elements (idx + 1).toNat none).map
        (List.map fun (element : Option Json) => some (element.getD .null))
    else some elements) = some (fillPadded elements idx.toNat) := by
    unfold fillPadded
    split
    · rename_i short
      rw [successor, CxxVector.resize_of_le (by omega) (by rw [JsonArray.maxSize_eq]; omega)]
      rfl
    · rfl
  obtain ⟨element, found⟩ : ∃ element, (fillPadded elements idx.toNat)[idx.toNat]? = some element :=
    ⟨_, List.getElem?_eq_getElem (length_fillPadded elements idx.toNat)⟩
  unfold JsonArray.getElementRefCreate
  rw [padded, Option.bind_some, found, Option.getD_some]

theorem JsonArray.getElementRefCreate_of_large (elements : List (Option Json)) (idx : UInt64)
    (large : JsonArray.maxSize ≤ idx.toNat) (short : elements.length ≤ idx.toNat) :
    JsonArray.getElementRefCreate elements idx = none := by
  rw [JsonArray.maxSize_eq] at large
  have below := idx.toNat_lt_size
  unfold JsonArray.getElementRefCreate
  rw [if_pos short]
  by_cases wraps : idx.toNat = 2 ^ 64 - 1
  · have zero : (idx + 1).toNat = 0 := by
      rw [UInt64.toNat_add, UInt64.toNat_one, wraps]
      rfl
    rw [zero, CxxVector.resize, if_neg (by omega)]
    simp
  · have successor : (idx + 1).toNat = idx.toNat + 1 :=
      toNat_add_one_of_lt (by simp only [UInt64.size] at below; omega)
    rw [successor, CxxVector.resize_of_gt (by omega) (by rw [JsonArray.maxSize_eq]; omega)]
    rfl

theorem setPathFilling_key (node value : Json) (name : List Char) (steps : List PathStep) :
    setPathFilling node (.key name :: steps) value =
      let created := JsonObject.getRefForKeyCreate (objectMembers (some node)) name
      .object (created.1.modify created.2 fun (key, child) => (key, setPathFilling child steps value)) := by
  simp only [setPathFilling]
  cases found : (objectMembers (some node)).findIdx? (fun member => member.1 == name) with
  | some index => simp [JsonObject.getRefForKeyCreate, found]
  | none => simp [JsonObject.getRefForKeyCreate, found, List.modify_eq_set]

theorem JsonObject.getRefForKeyCreate_lt (members : List (List Char × Json)) (name : List Char) :
    (JsonObject.getRefForKeyCreate members name).2 <
      (JsonObject.getRefForKeyCreate members name).1.length := by
  unfold JsonObject.getRefForKeyCreate
  cases found : members.findIdx? (fun member => member.1 == name) with
  | some index => exact (List.findIdx?_eq_some_iff_getElem.mp found).1
  | none => simp

theorem objectMembers_getD (node : Option Json) :
    objectMembers (some (node.getD .null)) = objectMembers node := by
  rcases node with _ | ⟨_ | _ | _ | _ | _ | _⟩ <;> rfl

theorem arrayElements_getD (node : Option Json) :
    arrayElements (some (node.getD .null)) = arrayElements node := by
  rcases node with _ | ⟨_ | _ | _ | _ | _ | _⟩ <;> rfl

theorem JsonValue.access_setSlot (value : Json) : ∀ (steps : List PathStep) {root : Json}
    {slot : List Nat} {node : Option Json},
    (∀ idx, PathStep.index idx ∈ steps → idx.toNat < JsonArray.maxSize) →
    root.slotAt slot = some node →
    (JsonValue.access root slot steps).bind (fun state => state.1.setSlot state.2 value) =
      root.setSlot slot (setPathFilling (node.getD .null) steps value) := by
  intro steps
  induction steps with
  | nil =>
      intro root slot node _ _
      simp [JsonValue.access, setPathFilling]
  | cons step steps ih =>
      intro root slot node bounded found
      have boundedRest : ∀ idx, PathStep.index idx ∈ steps → idx.toNat < JsonArray.maxSize :=
        fun idx member => bounded idx (List.mem_cons_of_mem _ member)
      cases step with
      | key name =>
          rw [setPathFilling_key]
          simp only [JsonValue.access, JsonValue.indexKey, found, Option.pure_def,
            Option.bind_eq_bind, Option.bind_some, objectMembers_getD]
          have inRange := JsonObject.getRefForKeyCreate_lt (objectMembers node) name
          generalize JsonObject.getRefForKeyCreate (objectMembers node) name = created at inRange ⊢
          obtain ⟨updated, written⟩ := Json.setSlot_of_slotAt found (.object created.1)
          have atChild : updated.slotAt (slot ++ [created.2]) =
              some (some created.1[created.2].2) := by
            rw [Json.slotAt_append (Json.slotAt_setSlot written)]
            simp [Json.slotAt, inRange]
          rw [written, Option.bind_some, JsonValue.make_of_set atChild, Option.bind_some,
            Option.bind_some, ih boundedRest atChild, Option.getD_some,
            Json.setSlot_append (Json.slotAt_setSlot written)]
          have childWritten : (Json.object created.1).setSlot [created.2]
              (setPathFilling created.1[created.2].2 steps value) =
              some (.object (created.1.modify created.2
                fun member => (member.1, setPathFilling member.2 steps value))) := by
            simp [Json.setSlot, inRange, List.modify_eq_set]
          rw [childWritten, Option.bind_some, Json.setSlot_setSlot written]
      | index idx =>
          have idxBound := bounded idx List.mem_cons_self
          simp only [JsonValue.access, JsonValue.indexAt, found, Option.pure_def,
            Option.bind_eq_bind, Option.bind_some, arrayElements_getD, setPathFilling,
            JsonArray.getElementRefCreate_eq _ _ idxBound]
          have inRange := length_fillPadded (arrayElements node) idx.toNat
          generalize fillPadded (arrayElements node) idx.toNat = padded at inRange ⊢
          obtain ⟨element, atIndex⟩ : ∃ element, padded[idx.toNat]? = some element :=
            ⟨_, List.getElem?_eq_getElem inRange⟩
          rw [atIndex, Option.getD_some]
          obtain ⟨updated, written⟩ := Json.setSlot_of_slotAt found
            (.array (padded.set idx.toNat (some (element.getD .null))))
          have atChild : updated.slotAt (slot ++ [idx.toNat]) = some (some (element.getD .null)) := by
            rw [Json.slotAt_append (Json.slotAt_setSlot written)]
            simp [Json.slotAt, inRange]
          rw [written, Option.bind_some, JsonValue.make_of_set atChild, Option.bind_some,
            Option.bind_some, ih boundedRest atChild, Option.getD_some,
            Json.setSlot_append (Json.slotAt_setSlot written)]
          have childWritten : (Json.array (padded.set idx.toNat (some (element.getD .null)))).setSlot
              [idx.toNat] (setPathFilling (element.getD .null) steps value) =
              some (.array (padded.modify idx.toNat
                fun element => some (setPathFilling (element.getD .null) steps value))) := by
            have entry : padded[idx.toNat] = element := (List.getElem?_eq_some_iff.mp atIndex).2
            simp [Json.setSlot, inRange, List.modify_eq_set, entry]
          rw [childWritten, Option.bind_some, Json.setSlot_setSlot written]

/-- The path assignment computes `setPathFilling`, when every index step is below `max_size()`. -/
theorem assignPath_eq_setPathFilling (tree : Json) (steps : List PathStep) (value : Json)
    (bounded : ∀ idx, PathStep.index idx ∈ steps → idx.toNat < JsonArray.maxSize) :
    JsonValue.assignPath tree steps value = some (setPathFilling tree steps value) := by
  have chain := @JsonValue.access_setSlot value steps tree [] (some tree) bounded rfl
  simpa [JsonValue.assignPath, Json.setSlot] using chain

/-- `root["arr"][3] = true` on an empty root, as in `main.cpp`. -/
theorem assignPath_eq_setPathFilling_arr :
    (∀ idx, PathStep.index idx ∈ [.key "arr".toList, .index 3] → idx.toNat < JsonArray.maxSize) ∧
      JsonValue.assignPath (.object []) [.key "arr".toList, .index 3] (.boolean true) =
        some (setPathFilling (.object []) [.key "arr".toList, .index 3] (.boolean true)) := by
  have bounded : ∀ idx, PathStep.index idx ∈ [.key "arr".toList, .index 3] →
      idx.toNat < JsonArray.maxSize := by
    intro idx member
    simp only [List.mem_cons, reduceCtorEq, PathStep.index.injEq, List.not_mem_nil, or_false,
      false_or] at member
    subst member
    decide
  exact ⟨bounded, assignPath_eq_setPathFilling _ _ _ bounded⟩

theorem assignPath_index_too_large (elements : List (Option Json)) (idx : UInt64) (value : Json)
    (large : JsonArray.maxSize ≤ idx.toNat) (short : elements.length ≤ idx.toNat) :
    JsonValue.assignPath (.array elements) [.index idx] value = none := by
  have failed := JsonArray.getElementRefCreate_of_large elements idx large short
  simp [JsonValue.assignPath, JsonValue.access, JsonValue.indexAt, Json.slotAt, arrayElements,
    failed]

/-- Extending an array also fills an unset slot before the index, which `setPath` keeps. -/
theorem assignPath_fills_unset_slot :
    JsonValue.assignPath (.array [none, some (.boolean true)]) [.index 2] .null ≠
      some (setPath (.array [none, some (.boolean true)]) [.index 2] .null) := by
  decide

end HighSpeed
