import HighSpeed.Json.Path

/-!
The rest of `JsonValue`, the proxy of `protocol/Json.hpp`, and what a document built through it
holds.
-/

namespace HighSpeed

inductive JsonType where
  | Object
  | Array
  | String
  | Number
  | Boolean
  | Null
  deriving DecidableEq, Repr

def Json.getType : Json → JsonType
  | .object _ => .Object
  | .array _ => .Array
  | .string _ => .String
  | .number _ => .Number
  | .boolean _ => .Boolean
  | .null => .Null

def Json.convert {α : Type} (read : Json → Option α) (message : String) (node : Json) :
    Except String α :=
  match read node with
  | some value => .ok value
  | none => .error message

def Json.asString (node : Json) : Except String (List Char) :=
  Json.convert (fun | .string value => some value | _ => none) "Not a string" node

def Json.asNumber (node : Json) : Except String ℚ :=
  Json.convert (fun | .number value => some value | _ => none) "Not a number" node

def Json.asBool (node : Json) : Except String Bool :=
  Json.convert (fun | .boolean value => some value | _ => none) "Not a boolean" node

namespace JsonValue

section
/-- `JsonValue::get`: the node in the slot, `none` for a null `unique_ptr`. -/
@[local simp]
def get (root : Json) (slot : List Nat) : Option Json := (root.slotAt slot).join
end

def type (root : Json) (slot : List Nat) : JsonType :=
  match get root slot with
  | some node => node.getType
  | none => .Null

section
@[local simp]
def read {α : Type} (convert : Json → Except String α) (root : Json) (slot : List Nat) :
    Except String α :=
  match get root slot with
  | some node => convert node
  | none => .error "Value is null"
end

def asString (root : Json) (slot : List Nat) : Except String (List Char) :=
  read Json.asString root slot

def asNumber (root : Json) (slot : List Nat) : Except String ℚ :=
  read Json.asNumber root slot

def asBool (root : Json) (slot : List Nat) : Except String Bool :=
  read Json.asBool root slot

end JsonValue

section
/-- The node `ensureExistsAs(t)` writes into a slot that holds no node of kind `t`. -/
@[local simp]
def JsonType.fresh : JsonType → Json
  | .Object => .object []
  | .Array => .array []
  | .String => .string []
  | .Number => .number 0
  | .Boolean => .boolean false
  | .Null => .null
end

namespace JsonValue

def ensureExistsAs (root : Json) (slot : List Nat) (kind : JsonType) : Option Json :=
  match get root slot with
  | some node => if node.getType = kind then some root else root.setSlot slot kind.fresh
  | none => root.setSlot slot kind.fresh

def ensureArray (root : Json) (slot : List Nat) : Option Json := ensureExistsAs root slot .Array

/-- `asObject()` and `asArray()`: the tree after `ensureExistsAs`; the reference they return is
the same slot. -/
def asObject (root : Json) (slot : List Nat) : Option Json := ensureExistsAs root slot .Object

def asArray (root : Json) (slot : List Nat) : Option Json := ensureExistsAs root slot .Array

/-- `push(v)`: `ensureArray()`, then `asArray().push(v)` appends the node at the end. -/
def push (root : Json) (slot : List Nat) (node : Json) : Option Json := do
  let root ← ensureArray root slot
  let root ← asArray root slot
  match root.slotAt slot with
  | some (some (.array elements)) => root.setSlot slot (.array (elements ++ [some node]))
  | _ => none

end JsonValue

/-! ## What a walk finds -/

section
@[local simp]
def Json.valueAt : Json → List PathStep → Option Json
  | node, [] => some node
  | .object members, .key name :: steps =>
      match members.findIdx? (fun member => member.1 == name) with
      | some index => members[index]?.bind fun member => member.2.valueAt steps
      | none => none
  | .array elements, .index idx :: steps =>
      match elements[idx.toNat]? with
      | some (some child) => child.valueAt steps
      | _ => none
  | _, _ :: _ => none
end

def PathStep.branchesOff : List PathStep → List PathStep → Bool
  | .key name :: steps, .key other :: others => name != other || branchesOff steps others
  | .index idx :: steps, .index other :: others => idx != other || branchesOff steps others
  | _, _ => false

theorem Json.valueAt_key_eq_some {node found : Json} {name : List Char} {steps : List PathStep}
    (located : node.valueAt (.key name :: steps) = some found) :
    ∃ members index member, node = .object members ∧
      members.findIdx? (fun member => member.1 == name) = some index ∧
      members[index]? = some member ∧ member.2.valueAt steps = some found := by
  cases node with
  | object members =>
      simp only [Json.valueAt] at located
      split at located
      · rename_i index first
        obtain ⟨member, entry, below⟩ := Option.bind_eq_some_iff.mp located
        exact ⟨members, index, member, rfl, first, entry, below⟩
      · cases located
  | _ => simp [Json.valueAt] at located

theorem Json.valueAt_index_eq_some {node found : Json} {idx : UInt64} {steps : List PathStep}
    (located : node.valueAt (.index idx :: steps) = some found) :
    ∃ elements child, node = .array elements ∧ elements[idx.toNat]? = some (some child) ∧
      child.valueAt steps = some found := by
  cases node with
  | array elements =>
      simp only [Json.valueAt] at located
      split at located
      · rename_i child element
        exact ⟨elements, child, rfl, element, located⟩
      · cases located
  | _ => simp [Json.valueAt] at located

/-! ## Writing a slot its own node -/

theorem Json.setSlot_self {root node : Json} {slot : List Nat}
    (found : root.slotAt slot = some (some node)) : root.setSlot slot node = some root := by
  induction slot generalizing root with
  | nil =>
      simp only [Json.slotAt, Option.some.injEq] at found
      rw [found]
      rfl
  | cons index slot ih =>
      rcases Json.slotAt_cons_eq_some found with
        ⟨members, key, child, rfl, member, childFound⟩ |
          ⟨elements, child, rfl, element, childFound⟩ | ⟨elements, rfl, element, rfl, unset⟩
      · obtain ⟨bound, entry⟩ := List.getElem?_eq_some_iff.mp member
        simp only [Json.setSlot, member, Option.bind_some, ih childFound, Option.map_some]
        rw [← entry, List.set_getElem_self bound]
      · obtain ⟨bound, entry⟩ := List.getElem?_eq_some_iff.mp element
        simp only [Json.setSlot, element, ih childFound, Option.map_some]
        rw [← entry, List.set_getElem_self bound]
      · cases unset

theorem Json.slotAt_child {root : Json} {slot : List Nat} {members : List (List Char × Json)}
    (found : root.slotAt slot = some (some (.object members))) {index : Nat}
    {member : List Char × Json} (entry : members[index]? = some member) :
    root.slotAt (slot ++ [index]) = some (some member.2) := by
  rw [Json.slotAt_append found]
  simp [Json.slotAt, entry]

theorem Json.slotAt_element {root : Json} {slot : List Nat} {elements : List (Option Json)}
    (found : root.slotAt slot = some (some (.array elements))) {index : Nat} {child : Json}
    (entry : elements[index]? = some (some child)) :
    root.slotAt (slot ++ [index]) = some (some child) := by
  rw [Json.slotAt_append found]
  simp [Json.slotAt, entry]

/-! ## A walk of an existing path is read-only -/

theorem JsonObject.getRefForKeyCreate_of_findIdx {members : List (List Char × Json)}
    {name : List Char} {index : Nat}
    (first : members.findIdx? (fun member => member.1 == name) = some index) :
    JsonObject.getRefForKeyCreate members name = (members, index) := by
  simp [JsonObject.getRefForKeyCreate, first]

theorem JsonArray.getElementRefCreate_of_set {elements : List (Option Json)} {idx : UInt64}
    {child : Json} (element : elements[idx.toNat]? = some (some child)) :
    JsonArray.getElementRefCreate elements idx = some (elements, idx.toNat) := by
  obtain ⟨bound, entry⟩ := List.getElem?_eq_some_iff.mp element
  have inside : ¬ elements.length ≤ idx.toNat := by omega
  unfold JsonArray.getElementRefCreate
  simp only [inside, if_false, Option.bind_some, element, Option.getD_some]
  rw [← entry, List.set_getElem_self bound]

theorem JsonValue.access_of_valueAt : ∀ (steps : List PathStep) {root node found : Json}
    {slot : List Nat}, root.slotAt slot = some (some node) → node.valueAt steps = some found →
    ∃ target, JsonValue.access root slot steps = some (root, target) ∧
      root.slotAt target = some (some found) := by
  intro steps
  induction steps with
  | nil =>
      intro root node found slot current located
      simp only [Json.valueAt, Option.some.injEq] at located
      subst located
      exact ⟨slot, rfl, current⟩
  | cons step steps ih =>
      intro root node found slot current located
      cases step with
      | key name =>
          obtain ⟨members, index, member, rfl, first, entry, below⟩ :=
            Json.valueAt_key_eq_some located
          have child := Json.slotAt_child current entry
          obtain ⟨target, walked, atTarget⟩ := ih child below
          refine ⟨target, ?_, atTarget⟩
          simp only [JsonValue.access, JsonValue.indexKey, current, objectMembers,
            JsonObject.getRefForKeyCreate_of_findIdx first, Json.setSlot_self current,
            JsonValue.make_of_set child, Option.bind_eq_bind, Option.pure_def, Option.bind_some]
          exact walked
      | index idx =>
          obtain ⟨elements, child, rfl, element, below⟩ := Json.valueAt_index_eq_some located
          have atChild := Json.slotAt_element current element
          obtain ⟨target, walked, atTarget⟩ := ih atChild below
          refine ⟨target, ?_, atTarget⟩
          simp only [JsonValue.access, JsonValue.indexAt, current, arrayElements,
            JsonArray.getElementRefCreate_of_set element, Json.setSlot_self current,
            JsonValue.make_of_set atChild, Option.bind_eq_bind, Option.pure_def, Option.bind_some]
          exact walked

/-! ## The update on trees, read back -/

theorem findIdx?_modify_fst (members : List (List Char × Json)) (index : Nat)
    (rewrite : List Char × Json → List Char × Json) (keeps : ∀ member, (rewrite member).1 = member.1)
    (name : List Char) :
    (members.modify index rewrite).findIdx? (fun member => member.1 == name) =
      members.findIdx? (fun member => member.1 == name) := by
  induction members generalizing index with
  | nil => simp
  | cons member rest ih =>
      cases index with
      | zero => simp [List.findIdx?_cons, keeps]
      | succ index => simp [List.findIdx?_cons, ih]

theorem findIdx?_fst_inj {members : List (List Char × Json)} {name other : List Char}
    {index : Nat} (first : members.findIdx? (fun member => member.1 == name) = some index)
    (second : members.findIdx? (fun member => member.1 == other) = some index) : name = other := by
  obtain ⟨bound, named, -⟩ := List.findIdx?_eq_some_iff_getElem.mp first
  obtain ⟨otherBound, otherNamed, -⟩ := List.findIdx?_eq_some_iff_getElem.mp second
  simp only [beq_iff_eq] at named otherNamed
  exact named.symm.trans otherNamed

theorem fillPadded_getElem?_of_set {elements : List (Option Json)} (index : Nat) {position : Nat}
    {child : Json} (element : elements[position]? = some (some child)) :
    (fillPadded elements index)[position]? = some (some child) := by
  have bound := (List.getElem?_eq_some_iff.mp element).1
  unfold fillPadded
  split
  · rw [List.getElem?_map, List.getElem?_append_left bound, element]
    rfl
  · exact element

theorem getD_null_of_some {child : Json} : ((some child : Option Json).getD .null) = child := rfl

theorem valueAt_setPathFilling_self (value : Json) :
    ∀ (steps : List PathStep) (node : Json),
      (setPathFilling node steps value).valueAt steps = some value := by
  intro steps
  induction steps with
  | nil => intro node; rfl
  | cons step steps ih =>
      intro node
      cases step with
      | key name =>
          simp only [setPathFilling]
          cases first : (objectMembers (some node)).findIdx? (fun member => member.1 == name) with
          | some index =>
              obtain ⟨bound, -, -⟩ := List.findIdx?_eq_some_iff_getElem.mp first
              simp only [Json.valueAt]
              rw [findIdx?_modify_fst]
              · simp only [first, List.getElem?_modify, List.getElem?_eq_getElem bound,
                  Option.map_eq_map, Option.map_some, if_pos, Option.bind_some, ih]
              · intro member
                rfl
          | none =>
              have appended : (objectMembers (some node) ++
                  [(name, setPathFilling .null steps value)]).findIdx?
                    (fun member => member.1 == name) = some (objectMembers (some node)).length := by
                simp [List.findIdx?_append, first]
              simp only [Json.valueAt, appended, List.getElem?_append_right (Nat.le_refl _),
                Nat.sub_self, List.getElem?_cons_zero, Option.bind_some, ih]
      | index idx =>
          simp only [setPathFilling, Json.valueAt]
          have bound := length_fillPadded (arrayElements (some node)) idx.toNat
          simp only [List.getElem?_modify, List.getElem?_eq_getElem bound, Option.map_eq_map,
            Option.map_some, if_pos, ih]

theorem valueAt_setPathFilling_of_branchesOff (value : Json) :
    ∀ (steps others : List PathStep) (node : Json) {found : Json},
      PathStep.branchesOff steps others = true → node.valueAt others = some found →
      (setPathFilling node steps value).valueAt others = some found := by
  intro steps
  induction steps with
  | nil => intro others node found apart; simp [PathStep.branchesOff] at apart
  | cons step steps ih =>
      intro others node found apart located
      cases step with
      | key name =>
          cases others with
          | nil => simp [PathStep.branchesOff] at apart
          | cons other others =>
              cases other with
              | index _ => simp [PathStep.branchesOff] at apart
              | key otherName =>
                  obtain ⟨members, index, member, rfl, first, entry, below⟩ :=
                    Json.valueAt_key_eq_some located
                  have bound := (List.getElem?_eq_some_iff.mp entry).1
                  simp only [PathStep.branchesOff, Bool.or_eq_true, bne_iff_ne, ne_eq] at apart
                  simp only [setPathFilling, objectMembers]
                  cases written : members.findIdx? (fun member => member.1 == name) with
                  | some writtenIndex =>
                      simp only [Json.valueAt]
                      rw [findIdx?_modify_fst]
                      · simp only [first, List.getElem?_modify, entry, Option.map_eq_map,
                          Option.map_some]
                        by_cases same : writtenIndex = index
                        · -- the walk goes down the member that was written
                          subst same
                          have named := findIdx?_fst_inj written first
                          have deeper : PathStep.branchesOff steps others = true :=
                            apart.resolve_left (not_not.mpr named)
                          rw [if_pos rfl, Option.bind_some]
                          exact ih others member.2 deeper below
                        · rw [if_neg same, Option.bind_some]
                          exact below
                      · intro member
                        rfl
                  | none =>
                      have appended : (members ++ [(name, setPathFilling .null steps value)]).findIdx?
                          (fun member => member.1 == otherName) = some index := by
                        simp [List.findIdx?_append, first]
                      simp only [Json.valueAt, appended, List.getElem?_append_left bound, entry,
                        Option.bind_some]
                      exact below
      | index idx =>
          cases others with
          | nil => simp [PathStep.branchesOff] at apart
          | cons other others =>
              cases other with
              | key _ => simp [PathStep.branchesOff] at apart
              | index otherIdx =>
                  obtain ⟨elements, child, rfl, element, below⟩ :=
                    Json.valueAt_index_eq_some located
                  simp only [PathStep.branchesOff, Bool.or_eq_true, bne_iff_ne, ne_eq] at apart
                  have padded := fillPadded_getElem?_of_set idx.toNat element
                  simp only [setPathFilling, arrayElements, Json.valueAt, List.getElem?_modify,
                    padded, Option.map_eq_map, Option.map_some]
                  by_cases same : idx.toNat = otherIdx.toNat
                  · -- the walk goes down the element that was written
                    have deeper : PathStep.branchesOff steps others = true :=
                      apart.resolve_left (not_not.mpr (UInt64.toNat_inj.mp same))
                    rw [if_pos same, getD_null_of_some]
                    exact ih others child deeper below
                  · rw [if_neg same]
                    exact below

/-! ## The store laws of the proxy chain -/

/-- After `root[a1]...[an] = value`, walking the same path again changes nothing, and the proxy
it hands out holds `value`, which `type()` and the typed getters then read. This holds for every
tree and every path whose index steps are below `max_size()`. -/
theorem JsonValue.assignPath_reads_back (tree : Json) (steps : List PathStep) (value : Json)
    (bounded : ∀ idx, PathStep.index idx ∈ steps → idx.toNat < JsonArray.maxSize) :
    ∃ written slot, JsonValue.assignPath tree steps value = some written ∧
      JsonValue.access written [] steps = some (written, slot) ∧
      JsonValue.get written slot = some value := by
  have chain := @JsonValue.access_setSlot value steps tree [] (some tree) bounded rfl
  have assigned : JsonValue.assignPath tree steps value =
      some (setPathFilling tree steps value) := by
    simpa [JsonValue.assignPath, Json.setSlot] using chain
  obtain ⟨slot, walked, holds⟩ := @JsonValue.access_of_valueAt steps
    (setPathFilling tree steps value) (setPathFilling tree steps value) value [] rfl
    (valueAt_setPathFilling_self value steps tree)
  refine ⟨_, slot, assigned, walked, ?_⟩
  simp [JsonValue.get, holds]

/-- `root["arr"][3] = 999` on the empty root of `main.cpp`, read back through `root["arr"][3]`. -/
theorem JsonValue.assignPath_reads_back_arr :
    (∀ idx, PathStep.index idx ∈ [.key "arr".toList, .index 3] → idx.toNat < JsonArray.maxSize) ∧
      ∃ written slot,
        JsonValue.assignPath (.object []) [.key "arr".toList, .index 3] (.number 999) =
          some written ∧
        JsonValue.access written [] [.key "arr".toList, .index 3] = some (written, slot) ∧
        JsonValue.get written slot = some (.number 999) := by
  have bounded : ∀ idx, PathStep.index idx ∈ [.key "arr".toList, .index 3] →
      idx.toNat < JsonArray.maxSize := by
    intro idx member
    simp only [List.mem_cons, reduceCtorEq, PathStep.index.injEq, List.not_mem_nil, or_false,
      false_or] at member
    subst member
    decide
  exact ⟨bounded, JsonValue.assignPath_reads_back _ _ _ bounded⟩

/-- `root[a1]...[an] = value` keeps what a walk finds along every path that parts from
`a1...an` at two different keys or at two different indices: walking such a path afterwards
changes nothing and hands out a proxy that holds the node it held before. -/
theorem JsonValue.assignPath_keeps_branch (tree : Json) (steps : List PathStep) (value : Json)
    (bounded : ∀ idx, PathStep.index idx ∈ steps → idx.toNat < JsonArray.maxSize)
    (others : List PathStep) (apart : PathStep.branchesOff steps others = true) {kept : Json}
    (found : tree.valueAt others = some kept) :
    ∃ written slot, JsonValue.assignPath tree steps value = some written ∧
      JsonValue.access written [] others = some (written, slot) ∧
      JsonValue.get written slot = some kept := by
  have chain := @JsonValue.access_setSlot value steps tree [] (some tree) bounded rfl
  have assigned : JsonValue.assignPath tree steps value =
      some (setPathFilling tree steps value) := by
    simpa [JsonValue.assignPath, Json.setSlot] using chain
  obtain ⟨slot, walked, holds⟩ := @JsonValue.access_of_valueAt others
    (setPathFilling tree steps value) (setPathFilling tree steps value) kept [] rfl
    (valueAt_setPathFilling_of_branchesOff value steps others tree apart found)
  refine ⟨_, slot, assigned, walked, ?_⟩
  simp [JsonValue.get, holds]

/-- `root["user"]["meta"]["nick"] = "ruijie"`, as in `main.cpp`, keeps `root["user"]["id"]`. -/
theorem JsonValue.assignPath_keeps_branch_user :
    (∀ idx, PathStep.index idx ∈ [.key "user".toList, .key "meta".toList, .key "nick".toList] →
        idx.toNat < JsonArray.maxSize) ∧
      PathStep.branchesOff [.key "user".toList, .key "meta".toList, .key "nick".toList]
        [.key "user".toList, .key "id".toList] = true ∧
      (Json.object [("user".toList, .object [("id".toList, .number 123)])]).valueAt
        [.key "user".toList, .key "id".toList] = some (.number 123) ∧
      ∃ written slot,
        JsonValue.assignPath (.object [("user".toList, .object [("id".toList, .number 123)])])
          [.key "user".toList, .key "meta".toList, .key "nick".toList]
          (.string "ruijie".toList) = some written ∧
        JsonValue.access written [] [.key "user".toList, .key "id".toList] =
          some (written, slot) ∧
        JsonValue.get written slot = some (.number 123) := by
  have bounded : ∀ idx, PathStep.index idx ∈
      [.key "user".toList, .key "meta".toList, .key "nick".toList] → idx.toNat < JsonArray.maxSize := by
    intro idx member
    simp at member
  have apart : PathStep.branchesOff [.key "user".toList, .key "meta".toList, .key "nick".toList]
      [.key "user".toList, .key "id".toList] = true := by decide
  have found : (Json.object [("user".toList, .object [("id".toList, .number 123)])]).valueAt
      [.key "user".toList, .key "id".toList] = some (.number 123) := by decide
  exact ⟨bounded, apart, found,
    JsonValue.assignPath_keeps_branch _ _ _ bounded _ apart found⟩

end HighSpeed
