import HighSpeed.Json.RoundTrip

/-!
The round trip of the indented printer of `protocol/Json.hpp`: `JsonParser::parse` reads back what
`dump(indent, depth)` writes, as it reads back `toString`.
-/

namespace HighSpeed

/-! ## The text of `dump` -/

theorem Json.layout_of_neg {indent : Int} (negative : indent < 0) (depth : Nat) (value : Json) :
    value.layout indent depth = value.toString := by
  cases value with
  | object members => rw [Json.layout, if_pos negative]
  | array elements => rw [Json.layout, if_pos negative]
  | string _ | number _ | boolean _ | null => rfl

section Indented

variable {indent : Int}

theorem Json.layout_object_append (nonneg : ¬ indent < 0) (depth : Nat)
    (members : List (List Char × Json)) (rest : List Char) :
    (Json.object members).layout indent depth ++ rest =
      '{' :: '\n' :: (JsonObject.membersLayout indent depth members ++
        (pad (depth * indent.toNat) ++ '}' :: rest)) := by
  rw [Json.layout, if_neg nonneg]
  simp only [List.cons_append, List.append_assoc, List.nil_append]

theorem Json.layout_array_append (nonneg : ¬ indent < 0) (depth : Nat)
    (elements : List (Option Json)) (rest : List Char) :
    (Json.array elements).layout indent depth ++ rest =
      '[' :: '\n' :: (JsonArray.elementsLayout indent depth elements ++
        (pad (depth * indent.toNat) ++ ']' :: rest)) := by
  rw [Json.layout, if_neg nonneg]
  simp only [List.cons_append, List.append_assoc, List.nil_append]

theorem Json.length_dump_object (nonneg : ¬ indent < 0) (depth : Nat)
    (members : List (List Char × Json)) :
    ((Json.object members).layout indent depth).length =
      (JsonObject.membersLayout indent depth members).length +
        (pad (depth * indent.toNat)).length + 3 := by
  rw [Json.layout, if_neg nonneg]
  simp only [List.length_append, List.length_cons, List.length_nil]
  omega

theorem Json.length_dump_array (nonneg : ¬ indent < 0) (depth : Nat)
    (elements : List (Option Json)) :
    ((Json.array elements).layout indent depth).length =
      (JsonArray.elementsLayout indent depth elements).length +
        (pad (depth * indent.toNat)).length + 3 := by
  rw [Json.layout, if_neg nonneg]
  simp only [List.length_append, List.length_cons, List.length_nil]
  omega

end Indented

theorem JsonObject.membersLayout_nil (indent : Int) (depth : Nat) :
    JsonObject.membersLayout indent depth [] = [] := rfl

theorem JsonArray.elementsLayout_nil (indent : Int) (depth : Nat) :
    JsonArray.elementsLayout indent depth [] = [] := rfl

theorem JsonObject.membersLayout_cons_append (indent : Int) (depth : Nat) (key : List Char)
    (value : Json) (more : List (List Char × Json)) (tail : List Char) :
    JsonObject.membersLayout indent depth ((key, value) :: more) ++ tail =
      pad ((depth + 1) * indent.toNat) ++ '"' :: (key ++ '"' :: ':' :: ' ' ::
        (value.layout indent (depth + 1) ++ ((if more = [] then [] else [',']) ++
          '\n' :: (JsonObject.membersLayout indent depth more ++ tail)))) := by
  rw [JsonObject.membersLayout]
  simp only [List.append_assoc, List.cons_append, List.nil_append]

theorem JsonArray.elementsLayout_some_append (indent : Int) (depth : Nat) (value : Json)
    (more : List (Option Json)) (tail : List Char) :
    JsonArray.elementsLayout indent depth (some value :: more) ++ tail =
      pad ((depth + 1) * indent.toNat) ++ (value.layout indent (depth + 1) ++
        ((if more = [] then [] else [',']) ++
          '\n' :: (JsonArray.elementsLayout indent depth more ++ tail))) := by
  rw [JsonArray.elementsLayout]
  simp only [List.append_assoc, List.cons_append, List.nil_append]

theorem JsonArray.elementsLayout_none_append (indent : Int) (depth : Nat)
    (more : List (Option Json)) (tail : List Char) :
    JsonArray.elementsLayout indent depth (none :: more) ++ tail =
      pad ((depth + 1) * indent.toNat) ++ ("null".toList ++
        ((if more = [] then [] else [',']) ++
          '\n' :: (JsonArray.elementsLayout indent depth more ++ tail))) := by
  rw [JsonArray.elementsLayout]
  simp only [List.append_assoc, List.cons_append, List.nil_append]

theorem JsonObject.membersLayout_length_cons (indent : Int) (depth : Nat) (key : List Char)
    (value : Json) (more : List (List Char × Json)) :
    (value.layout indent (depth + 1)).length + (JsonObject.membersLayout indent depth more).length + 5 ≤
      (JsonObject.membersLayout indent depth ((key, value) :: more)).length := by
  simp only [JsonObject.membersLayout, List.length_append, List.length_cons]
  omega

theorem JsonArray.elementsLayout_length_some (indent : Int) (depth : Nat) (value : Json)
    (more : List (Option Json)) :
    (value.layout indent (depth + 1)).length + (JsonArray.elementsLayout indent depth more).length + 1 ≤
      (JsonArray.elementsLayout indent depth (some value :: more)).length := by
  have text := JsonArray.elementsLayout_some_append indent depth value more []
  rw [List.append_nil, List.append_nil] at text
  rw [text]
  simp only [List.length_append, List.length_cons]
  omega

theorem JsonArray.elementsLayout_length_none (indent : Int) (depth : Nat)
    (more : List (Option Json)) :
    (JsonArray.elementsLayout indent depth more).length + 5 ≤
      (JsonArray.elementsLayout indent depth (none :: more)).length := by
  have text := JsonArray.elementsLayout_none_append indent depth more []
  rw [List.append_nil, List.append_nil] at text
  have four : "null".toList.length = 4 := rfl
  rw [text]
  simp only [List.length_append, List.length_cons]
  omega

/-! ## When `dump` returns -/

mutual
/-- How deep containers nest: `0` for a scalar. -/
def Json.height : Json → Nat
  | .object members => JsonObject.membersHeight members + 1
  | .array elements => JsonArray.elementsHeight elements + 1
  | .string _ | .number _ | .boolean _ | .null => 0
def JsonObject.membersHeight : List (List Char × Json) → Nat
  | [] => 0
  | (_, value) :: rest => max value.height (JsonObject.membersHeight rest)
def JsonArray.elementsHeight : List (Option Json) → Nat
  | [] => 0
  | none :: rest => JsonArray.elementsHeight rest
  | some value :: rest => max value.height (JsonArray.elementsHeight rest)
end

theorem intResult_of_le {value : Int} (low : -2147483648 ≤ value) (high : value ≤ intMax) :
    intResult value = some value := by
  rw [intResult, if_pos ⟨low, high⟩]

theorem padOf_natCast_mul {indent : Int} (nonneg : 0 ≤ indent) (depth : Nat) :
    padOf (depth * indent) = some (pad (depth * indent.toNat)) := by
  have cast : (depth : Int) * indent = ((depth * indent.toNat : Nat) : Int) := by
    rw [Nat.cast_mul, Int.toNat_of_nonneg nonneg]
  rw [padOf, cast, if_neg (Int.not_lt.mpr (Int.natCast_nonneg _)), Int.toNat_natCast]

theorem Json.dump_of_neg {indent : Int} (negative : indent < 0) (depth : Int) (value : Json) :
    value.dump indent depth = some value.toString := by
  cases value with
  | object members => rw [Json.dump, if_pos negative]
  | array elements => rw [Json.dump, if_pos negative]
  | string _ | number _ | boolean _ | null => rfl

/-- Below a depth with `(depth + 1) * indent` negative, a container's `pad` throws. -/
theorem Json.dump_object_of_negative_depth {indent depth : Int} (positive : 0 < indent)
    (negative : depth < 0) (members : List (List Char × Json)) :
    (Json.object members).dump indent depth = none := by
  have product : depth * indent < 0 := Int.mul_neg_of_neg_of_pos negative positive
  rw [Json.dump, if_neg (by omega)]
  unfold intResult
  split
  · simp [padOf, product]
  · rfl

theorem intResult_succ {depth : Nat} (high : (depth : Int) + 1 ≤ intMax) :
    intResult ((depth : Int) + 1) = some ((depth + 1 : Nat) : Int) := by
  rw [intResult_of_le (by omega) high]
  push_cast
  rfl

theorem height_split {bound : Int} (depth head rest : Nat)
    (fits : (depth : Int) + 1 + (max head rest : Nat) ≤ bound) :
    ((depth + 1 : Nat) : Int) + head ≤ bound ∧ (depth : Int) + 1 + rest ≤ bound := by
  rw [Nat.cast_max] at fits
  constructor
  · push_cast
    omega
  · omega

section Bridge

variable {indent bound : Int} (nonneg : 0 ≤ indent) (withinInt : bound ≤ intMax)
  (product : bound * indent ≤ intMax)
include nonneg withinInt product

omit withinInt in
theorem intResult_mul_of_le {depth : Nat} (below : (depth : Int) ≤ bound) :
    intResult (depth * indent) = some (depth * indent) := by
  have scaled : (depth : Int) * indent ≤ bound * indent :=
    Int.mul_le_mul_of_nonneg_right below nonneg
  exact intResult_of_le (by have := Int.mul_nonneg (Int.natCast_nonneg depth) nonneg; omega)
    (by omega)

set_option linter.unusedSectionVars false in
mutual
theorem Json.dump_eq_layout : ∀ (value : Json) (depth : Nat),
    (depth : Int) + value.height ≤ bound → value.dump indent depth = some (value.layout indent depth)
  | .object members, depth, fits => by
      have inside : (depth : Int) + 1 + JsonObject.membersHeight members ≤ bound := by
        simp only [Json.height, Nat.cast_add, Nat.cast_one] at fits
        omega
      have next : ((depth + 1 : Nat) : Int) ≤ bound := by push_cast; omega
      rw [Json.dump, if_neg (by omega), Json.layout, if_neg (by omega)]
      have body := JsonObject.membersDump_eq_layout members depth inside
      simp only [intResult_mul_of_le nonneg product (show (depth : Int) ≤ bound by omega),
        padOf_natCast_mul nonneg, intResult_succ (show (depth : Int) + 1 ≤ intMax by omega), intResult_mul_of_le nonneg product next,
        body, Option.bind_eq_bind, Option.bind_some, Option.pure_def]
  | .array elements, depth, fits => by
      have inside : (depth : Int) + 1 + JsonArray.elementsHeight elements ≤ bound := by
        simp only [Json.height, Nat.cast_add, Nat.cast_one] at fits
        omega
      have next : ((depth + 1 : Nat) : Int) ≤ bound := by push_cast; omega
      rw [Json.dump, if_neg (by omega), Json.layout, if_neg (by omega)]
      have body := JsonArray.elementsDump_eq_layout elements depth inside
      simp only [intResult_mul_of_le nonneg product (show (depth : Int) ≤ bound by omega),
        padOf_natCast_mul nonneg, intResult_succ (show (depth : Int) + 1 ≤ intMax by omega), intResult_mul_of_le nonneg product next,
        body, Option.bind_eq_bind, Option.bind_some, Option.pure_def]
  | .string _, _, _ | .number _, _, _ | .boolean _, _, _ | .null, _, _ => rfl
theorem JsonObject.membersDump_eq_layout : ∀ (members : List (List Char × Json)) (depth : Nat),
    (depth : Int) + 1 + JsonObject.membersHeight members ≤ bound →
    JsonObject.membersDump indent depth (pad ((depth + 1) * indent.toNat)) members =
      some (JsonObject.membersLayout indent depth members)
  | [], _, _ => rfl
  | (key, value) :: rest, depth, fits => by
      obtain ⟨childFits, restFits⟩ := height_split depth value.height (JsonObject.membersHeight rest) fits
      have child := Json.dump_eq_layout value (depth + 1) childFits
      have tail := JsonObject.membersDump_eq_layout rest depth restFits
      push_cast at child
      rw [JsonObject.membersDump, intResult_of_le (by omega) (by omega)]
      simp only [Option.bind_some, child, tail, Option.bind_eq_bind, Option.pure_def,
        JsonObject.membersLayout, List.append_assoc, List.cons_append]
theorem JsonArray.elementsDump_eq_layout : ∀ (elements : List (Option Json)) (depth : Nat),
    (depth : Int) + 1 + JsonArray.elementsHeight elements ≤ bound →
    JsonArray.elementsDump indent depth (pad ((depth + 1) * indent.toNat)) elements =
      some (JsonArray.elementsLayout indent depth elements)
  | [], _, _ => rfl
  | none :: rest, depth, fits => by
      have tail := JsonArray.elementsDump_eq_layout rest depth fits
      rw [JsonArray.elementsDump]
      simp only [Option.bind_some, tail, Option.bind_eq_bind, Option.pure_def,
        JsonArray.elementsLayout, List.append_assoc]
  | some value :: rest, depth, fits => by
      obtain ⟨childFits, restFits⟩ := height_split depth value.height (JsonArray.elementsHeight rest) fits
      have child := Json.dump_eq_layout value (depth + 1) childFits
      have tail := JsonArray.elementsDump_eq_layout rest depth restFits
      push_cast at child
      rw [JsonArray.elementsDump, intResult_of_le (by omega) (by omega)]
      simp only [Option.bind_some, child, tail, Option.bind_eq_bind, Option.pure_def,
        JsonArray.elementsLayout, List.append_assoc]
end

end Bridge

namespace JsonParser

/-! ## What `skipSpaces` passes over -/

theorem skipSpaces_skipSpaces (json : List Char) : skipSpaces (skipSpaces json) = skipSpaces json := by
  induction json with
  | nil => rfl
  | cons c rest ih =>
      rw [skipSpaces]
      split
      · exact ih
      · rename_i kept
        rw [skipSpaces, if_neg kept]

theorem skipSpaces_blank (json : List Char) : skipSpaces (' ' :: json) = skipSpaces json := rfl

theorem skipSpaces_newline (json : List Char) : skipSpaces ('\n' :: json) = skipSpaces json := rfl

theorem skipSpaces_pad (count : Nat) (json : List Char) :
    skipSpaces (pad count ++ json) = skipSpaces json := by
  induction count with
  | zero => rfl
  | succ count ih =>
      unfold pad at ih ⊢
      rw [List.replicate_succ, List.cons_append, skipSpaces_blank, ih]

theorem dump_head (indent : Int) (depth : Nat) (value : Json) :
    ∃ c more, value.layout indent depth = c :: more ∧ isspace c = false ∧ c ≠ ']' := by
  by_cases negative : indent < 0
  · rw [Json.layout_of_neg negative]
    exact toString_head value
  · cases value with
    | object members =>
        rw [Json.layout, if_neg negative]
        exact ⟨'{', _, rfl, by decide, by decide⟩
    | array elements =>
        rw [Json.layout, if_neg negative]
        exact ⟨'[', _, rfl, by decide, by decide⟩
    | string value => exact toString_head (.string value)
    | number value => exact toString_head (.number value)
    | boolean value => exact toString_head (.boolean value)
    | null => exact toString_head .null

theorem skipSpaces_dump (indent : Int) (depth : Nat) (value : Json) (rest : List Char) :
    skipSpaces (value.layout indent depth ++ rest) = value.layout indent depth ++ rest := by
  obtain ⟨c, more, text, notSpace, -⟩ := dump_head indent depth value
  rw [text, List.cons_append, skipSpaces_of_not_space notSpace]

theorem skipSpaces_membersLayout_cons (indent : Int) (depth : Nat) (key : List Char) (value : Json)
    (more : List (List Char × Json)) (tail : List Char) :
    skipSpaces ('\n' :: (JsonObject.membersLayout indent depth ((key, value) :: more) ++ tail)) =
      '"' :: (key ++ '"' :: ':' :: ' ' :: (value.layout indent (depth + 1) ++
        ((if more = [] then [] else [',']) ++
          '\n' :: (JsonObject.membersLayout indent depth more ++ tail)))) := by
  rw [skipSpaces_newline, JsonObject.membersLayout_cons_append, skipSpaces_pad,
    skipSpaces_of_not_space (by decide)]

theorem parseMembers_skipSpaces (size fuel : Nat) (read : List (List Char × Json))
    (json : List Char) :
    parseMembers size fuel read (skipSpaces json) = parseMembers size fuel read json := by
  cases fuel with
  | zero => rfl
  | succ fuel => rw [parseMembers, parseMembers, skipSpaces_skipSpaces]

theorem parseElements_skipSpaces (size fuel : Nat) (read : List (Option Json)) (json : List Char) :
    parseElements size fuel read (skipSpaces json) = parseElements size fuel read json := by
  cases fuel with
  | zero => rfl
  | succ fuel => rw [parseElements, parseElements, skipSpaces_skipSpaces]

theorem parseObject_of_notClose (size g : Nat) {json : List Char}
    (notClose : ∀ more, skipSpaces json ≠ '}' :: more) :
    parseObject size (g + 1) ('{' :: json) = parseMembers size g [] (skipSpaces json) := by
  rw [parseObject, List.tail_cons]
  split
  · rename_i more closes
    exact absurd closes (notClose more)
  · rfl

theorem parseArray_of_notClose (size g : Nat) {json : List Char}
    (notClose : ∀ more, skipSpaces json ≠ ']' :: more) :
    parseArray size (g + 1) ('[' :: json) = parseElements size g [] (skipSpaces json) := by
  rw [parseArray, List.tail_cons]
  split
  · rename_i more closes
    exact absurd closes (notClose more)
  · rfl

theorem parseObject_closed (size g : Nat) {json rest : List Char}
    (closed : skipSpaces json = '}' :: rest) :
    parseObject size (g + 1) ('{' :: json) = .ok (.object [], rest) := by
  rw [parseObject, List.tail_cons, closed]
  rfl

theorem parseArray_closed (size g : Nat) {json rest : List Char}
    (closed : skipSpaces json = ']' :: rest) :
    parseArray size (g + 1) ('[' :: json) = .ok (.array [], rest) := by
  rw [parseArray, List.tail_cons, closed]
  rfl

theorem numberEnds_newline (more : List Char) : NumberEnds ('\n' :: more) := by
  intro c rest same
  rw [List.cons.injEq] at same
  rw [← same.1]
  decide

theorem numberEnds_separator {α : Type} (more : List α) (after : List Char) :
    NumberEnds ((if more = [] then [] else [',']) ++ '\n' :: after) := by
  cases more with
  | nil => exact numberEnds_newline after
  | cons _ _ => exact numberEnds_cons (.inl rfl) _

theorem skipSpaces_separator_last {α : Type} (after : List Char) :
    skipSpaces ((if ([] : List α) = [] then [] else [',']) ++ '\n' :: after) = skipSpaces after := by
  rw [if_pos rfl, List.nil_append, skipSpaces_newline]

theorem skipSpaces_separator_next {α : Type} (next : α) (more : List α) (after : List Char) :
    skipSpaces ((if next :: more = [] then [] else [',']) ++ '\n' :: after) = ',' :: '\n' :: after := by
  rw [if_neg (List.cons_ne_nil _ _), List.singleton_append, skipSpaces_of_not_space (by decide)]

/-! ## The round trip -/

section Descent

variable {indent : Int}

mutual
theorem parseValue_dump_of_nonneg (nonneg : ¬ indent < 0) : ∀ (value : Json), value.readable = true →
    ∀ (depth size fuel : Nat) (rest : List Char), NumberEnds rest →
      3 * (value.layout indent depth).length < fuel →
      parseValue size fuel (value.layout indent depth ++ rest) = .ok (value.fillUnset, rest)
  | _, _, _, _, 0, _, _, bound => absurd bound (Nat.not_lt_zero _)
  | .object [], _, depth, size, fuel + 1, rest, _, bound => by
      rw [Json.length_dump_object nonneg] at bound
      obtain ⟨g, rfl⟩ : ∃ g, fuel = g + 1 := ⟨fuel - 1, by omega⟩
      rw [Json.layout_object_append nonneg, parseValue_brace, JsonObject.membersLayout_nil,
        List.nil_append, parseObject_closed size g (by
          rw [skipSpaces_newline, skipSpaces_pad, skipSpaces_of_not_space (by decide)])]
      rfl
  | .object ((key, value) :: more), readable, depth, size, fuel + 1, rest, _, bound => by
      rw [Json.length_dump_object nonneg] at bound
      obtain ⟨g, rfl⟩ : ∃ g, fuel = g + 1 := ⟨fuel - 1, by omega⟩
      have opens : ∀ later, skipSpaces ('\n' :: (JsonObject.membersLayout indent depth
          ((key, value) :: more) ++ (pad (depth * indent.toNat) ++ '}' :: rest))) ≠
            '}' :: later := by
        intro later same
        rw [skipSpaces_membersLayout_cons] at same
        exact absurd (List.cons.inj same).1 (by decide)
      have closed : skipSpaces (pad (depth * indent.toNat) ++ '}' :: rest) = '}' :: rest := by
        rw [skipSpaces_pad, skipSpaces_of_not_space (by decide)]
      rw [Json.layout_object_append nonneg, parseValue_brace, parseObject_of_notClose size g opens,
        parseMembers_skipSpaces, parseMembers_membersLayout nonneg depth ((key, value) :: more)
          (List.cons_ne_nil _ _) readable size g [] closed (by omega)]
      rfl
  | .array [], _, depth, size, fuel + 1, rest, _, bound => by
      rw [Json.length_dump_array nonneg] at bound
      obtain ⟨g, rfl⟩ : ∃ g, fuel = g + 1 := ⟨fuel - 1, by omega⟩
      rw [Json.layout_array_append nonneg, parseValue_bracket, JsonArray.elementsLayout_nil,
        List.nil_append, parseArray_closed size g (by
          rw [skipSpaces_newline, skipSpaces_pad, skipSpaces_of_not_space (by decide)])]
      rfl
  | .array (element :: more), readable, depth, size, fuel + 1, rest, _, bound => by
      rw [Json.length_dump_array nonneg] at bound
      obtain ⟨g, rfl⟩ : ∃ g, fuel = g + 1 := ⟨fuel - 1, by omega⟩
      have opens : ∀ later, skipSpaces ('\n' :: (JsonArray.elementsLayout indent depth
          (element :: more) ++ (pad (depth * indent.toNat) ++ ']' :: rest))) ≠
            ']' :: later := by
        intro later same
        cases element with
        | none =>
            rw [skipSpaces_newline, JsonArray.elementsLayout_none_append, skipSpaces_pad] at same
            exact absurd (List.cons.inj same).1 (by decide)
        | some value =>
            rw [skipSpaces_newline, JsonArray.elementsLayout_some_append, skipSpaces_pad,
              skipSpaces_dump] at same
            obtain ⟨c, text, starts, -, notClose⟩ := dump_head indent (depth + 1) value
            rw [starts, List.cons_append] at same
            exact notClose (List.cons.inj same).1
      have closed : skipSpaces (pad (depth * indent.toNat) ++ ']' :: rest) = ']' :: rest := by
        rw [skipSpaces_pad, skipSpaces_of_not_space (by decide)]
      rw [Json.layout_array_append nonneg, parseValue_bracket, parseArray_of_notClose size g opens,
        parseElements_skipSpaces, parseElements_elementsLayout nonneg depth (element :: more)
          (List.cons_ne_nil _ _) readable size g [] closed (by omega)]
      rfl
  | .string value, readable, _, size, fuel + 1, rest, ends, bound =>
      parseValue_toString (.string value) readable size (fuel + 1) rest ends bound
  | .number value, readable, _, size, fuel + 1, rest, ends, bound =>
      parseValue_toString (.number value) readable size (fuel + 1) rest ends bound
  | .boolean value, readable, _, size, fuel + 1, rest, ends, bound =>
      parseValue_toString (.boolean value) readable size (fuel + 1) rest ends bound
  | .null, readable, _, size, fuel + 1, rest, ends, bound =>
      parseValue_toString .null readable size (fuel + 1) rest ends bound

theorem parseMembers_membersLayout (nonneg : ¬ indent < 0) (depth : Nat) :
    ∀ (members : List (List Char × Json)), members ≠ [] →
      JsonObject.readableMembers members = true →
      ∀ (size fuel : Nat) (read : List (List Char × Json)) {closing rest : List Char},
        skipSpaces closing = '}' :: rest →
        3 * (JsonObject.membersLayout indent depth members).length + 1 < fuel →
        parseMembers size fuel read ('\n' :: (JsonObject.membersLayout indent depth members ++ closing)) =
          .ok (.object (read ++ JsonObject.fillUnsetMembers members), rest)
  | [], nonempty, _, _, _, _, _, _, _, _ => absurd rfl nonempty
  | _ :: _, _, _, _, 0, _, _, _, _, bound => absurd bound (Nat.not_lt_zero _)
  | (key, value) :: more, _, readable, size, fuel + 1, read, closing, rest, closed, bound => by
      simp only [JsonObject.readableMembers, Bool.and_eq_true] at readable
      obtain ⟨⟨plain, valueReadable⟩, moreReadable⟩ := readable
      have longer := JsonObject.membersLayout_length_cons indent depth key value more
      rw [← parseMembers_skipSpaces, skipSpaces_membersLayout_cons]
      have parsed : parseValue size fuel (skipSpaces (' ' :: (value.layout indent (depth + 1) ++
          ((if more = [] then [] else [',']) ++
            '\n' :: (JsonObject.membersLayout indent depth more ++ closing))))) =
          .ok (value.fillUnset, (if more = [] then [] else [',']) ++
            '\n' :: (JsonObject.membersLayout indent depth more ++ closing)) := by
        rw [skipSpaces_blank, skipSpaces_dump]
        exact parseValue_dump_of_nonneg nonneg value valueReadable (depth + 1) size fuel _
          (numberEnds_separator more _) (by omega)
      cases more with
      | nil =>
          rw [parseMembers_last plain read parsed (by
            rw [skipSpaces_separator_last, JsonObject.membersLayout_nil, List.nil_append, closed])]
          rfl
      | cons next more =>
          rw [parseMembers_next plain read parsed (skipSpaces_separator_next next more _),
            parseMembers_membersLayout nonneg depth (next :: more) (List.cons_ne_nil _ _) moreReadable
              size fuel (read ++ [(key, value.fillUnset)]) closed (by omega)]
          simp [JsonObject.fillUnsetMembers]

theorem parseElements_elementsLayout (nonneg : ¬ indent < 0) (depth : Nat) :
    ∀ (elements : List (Option Json)), elements ≠ [] →
      JsonArray.readableElements elements = true →
      ∀ (size fuel : Nat) (read : List (Option Json)) {closing rest : List Char},
        skipSpaces closing = ']' :: rest →
        3 * (JsonArray.elementsLayout indent depth elements).length + 1 < fuel →
        parseElements size fuel read ('\n' :: (JsonArray.elementsLayout indent depth elements ++ closing)) =
          .ok (.array (read ++ JsonArray.fillUnsetElements elements), rest)
  | [], nonempty, _, _, _, _, _, _, _, _ => absurd rfl nonempty
  | _ :: _, _, _, _, 0, _, _, _, _, bound => absurd bound (Nat.not_lt_zero _)
  | element :: more, _, readable, size, fuel + 1, read, closing, rest, closed, bound => by
      obtain ⟨value, moreReadable, filled, parsed⟩ : ∃ value,
          JsonArray.readableElements more = true ∧
          JsonArray.fillUnsetElements (element :: more) =
            some value :: JsonArray.fillUnsetElements more ∧
          parseValue size fuel (skipSpaces ('\n' :: (JsonArray.elementsLayout indent depth
            (element :: more) ++ closing))) =
            .ok (value, (if more = [] then [] else [',']) ++
              '\n' :: (JsonArray.elementsLayout indent depth more ++ closing)) := by
        cases element with
        | none =>
            have longer := JsonArray.elementsLayout_length_none indent depth more
            obtain ⟨g, rfl⟩ : ∃ g, fuel = g + 1 := ⟨fuel - 1, by omega⟩
            refine ⟨.null, readable, rfl, ?_⟩
            rw [skipSpaces_newline, JsonArray.elementsLayout_none_append, skipSpaces_pad,
              skipSpaces_nullText, parseValue_nullText]
        | some value =>
            simp only [JsonArray.readableElements, Bool.and_eq_true] at readable
            have longer := JsonArray.elementsLayout_length_some indent depth value more
            refine ⟨value.fillUnset, readable.2, rfl, ?_⟩
            rw [skipSpaces_newline, JsonArray.elementsLayout_some_append, skipSpaces_pad,
              skipSpaces_dump]
            exact parseValue_dump_of_nonneg nonneg value readable.1 (depth + 1) size fuel _
              (numberEnds_separator more _) (by omega)
      have shorter : (JsonArray.elementsLayout indent depth more).length + 1 ≤
          (JsonArray.elementsLayout indent depth (element :: more)).length := by
        cases element with
        | none => have := JsonArray.elementsLayout_length_none indent depth more; omega
        | some value => have := JsonArray.elementsLayout_length_some indent depth value more; omega
      rw [filled]
      cases more with
      | nil =>
          rw [parseElements_last read parsed (by
            rw [skipSpaces_separator_last, JsonArray.elementsLayout_nil, List.nil_append, closed])]
          rfl
      | cons next more =>
          rw [parseElements_next read parsed (skipSpaces_separator_next next more _),
            parseElements_elementsLayout nonneg depth (next :: more) (List.cons_ne_nil _ _)
              moreReadable size fuel (read ++ [some value]) closed (by omega)]
          simp
end

end Descent

theorem parseValue_dump (value : Json) (readable : value.readable = true) (indent : Int)
    (depth size fuel : Nat) {rest : List Char} (ends : NumberEnds rest)
    (bound : 3 * (value.layout indent depth).length < fuel) :
    parseValue size fuel (value.layout indent depth ++ rest) = .ok (value.fillUnset, rest) := by
  by_cases negative : indent < 0
  · -- a negative indent prints every container with `toString`
    rw [Json.layout_of_neg negative] at bound ⊢
    exact parseValue_toString value readable size fuel rest ends bound
  · exact parseValue_dump_of_nonneg negative value readable depth size fuel rest ends bound

/-- What `dump` returns, from a nonnegative depth whose counts stay in `int`, or with a negative
`indent`. -/
theorem Json.dump_eq_some (value : Json) {indent depth : Int}
    (fits : indent < 0 ∨ 0 ≤ depth ∧ depth + value.height ≤ intMax ∧
      (depth + value.height) * indent ≤ intMax) :
    value.dump indent depth = some (value.layout indent depth.toNat) := by
  rcases fits with negative | ⟨nonnegDepth, withinInt, product⟩
  · rw [Json.dump_of_neg negative, Json.layout_of_neg negative]
  · by_cases negative : indent < 0
    · rw [Json.dump_of_neg negative, Json.layout_of_neg negative]
    · have cast : ((depth.toNat : Nat) : Int) = depth := Int.toNat_of_nonneg nonnegDepth
      have bridged := Json.dump_eq_layout (Int.not_lt.mp negative) withinInt product value
        depth.toNat (by rw [cast])
      rwa [cast] at bridged

/-- `JsonParser::parse` reads back the text `dump(indent, depth)` prints, as the tree it reads back
from `toString`, for every tree whose keys hold no quote or backslash and whose numbers read back
from their six-digit text, whenever `dump` returns. -/
theorem parse_dump (value : Json) (readable : value.readable = true) (indent depth : Int)
    (fits : indent < 0 ∨ 0 ≤ depth ∧ depth + value.height ≤ intMax ∧
      (depth + value.height) * indent ≤ intMax) :
    ∃ text, value.dump indent depth = some text ∧ parse text = .ok value.fillUnset ∧
      parse text = parse value.toString := by
  refine ⟨value.layout indent depth.toNat, Json.dump_eq_some value fits, ?_⟩
  have read := parseValue_dump value readable indent depth.toNat
    (value.layout indent depth.toNat).length (fuelFor (value.layout indent depth.toNat))
    numberEnds_nil (by unfold fuelFor; omega)
  have kept := skipSpaces_dump indent depth.toNat value []
  rw [List.append_nil] at read kept
  have parsed : parse (value.layout indent depth.toNat) = .ok value.fillUnset := by
    unfold parse
    rw [kept, read]
    rfl
  exact ⟨parsed, parsed.trans (parse_readable readable).symm⟩

/-- A tree as `main.cpp` builds it, printed by `dump(2)`, with an unset slot in its array. -/
theorem parse_dump_nested :
    (Json.object [("name".toList, .string "Jerry".toList),
        ("user".toList, .object [("id".toList, .number 123)]),
        ("arr".toList, .array [some (.string "a".toList), none, some (.number 999)])]).readable =
        true ∧
      ((2 : Int) < 0 ∨ 0 ≤ (0 : Int) ∧ 0 + (Json.object [("name".toList, .string "Jerry".toList),
          ("user".toList, .object [("id".toList, .number 123)]),
          ("arr".toList, .array [some (.string "a".toList), none,
            some (.number 999)])]).height ≤ intMax ∧
        (0 + (Json.object [("name".toList, .string "Jerry".toList),
          ("user".toList, .object [("id".toList, .number 123)]),
          ("arr".toList, .array [some (.string "a".toList), none,
            some (.number 999)])]).height) * 2 ≤ intMax) ∧
      ∃ text, (Json.object [("name".toList, .string "Jerry".toList),
          ("user".toList, .object [("id".toList, .number 123)]),
          ("arr".toList, .array [some (.string "a".toList), none, some (.number 999)])]).dump 2 0 =
          some text ∧
        parse text = .ok (Json.object [("name".toList, .string "Jerry".toList),
            ("user".toList, .object [("id".toList, .number 123)]),
            ("arr".toList, .array [some (.string "a".toList), none,
              some (.number 999)])]).fillUnset ∧
        parse text = parse (Json.object [("name".toList, .string "Jerry".toList),
            ("user".toList, .object [("id".toList, .number 123)]),
            ("arr".toList, .array [some (.string "a".toList), none,
              some (.number 999)])]).toString := by
  have readable : (Json.object [("name".toList, .string "Jerry".toList),
      ("user".toList, .object [("id".toList, .number 123)]),
      ("arr".toList, .array [some (.string "a".toList), none, some (.number 999)])]).readable =
      true := by decide +kernel
  have fits : ((2 : Int) < 0 ∨ 0 ≤ (0 : Int) ∧ 0 + (Json.object [("name".toList, .string "Jerry".toList),
      ("user".toList, .object [("id".toList, .number 123)]),
      ("arr".toList, .array [some (.string "a".toList), none,
        some (.number 999)])]).height ≤ intMax ∧
      (0 + (Json.object [("name".toList, .string "Jerry".toList),
        ("user".toList, .object [("id".toList, .number 123)]),
        ("arr".toList, .array [some (.string "a".toList), none,
          some (.number 999)])]).height) * 2 ≤ intMax) := by decide +kernel
  exact ⟨readable, fits, parse_dump _ readable 2 0 fits⟩

end JsonParser

end HighSpeed
