import HighSpeed.Json.Core

/-!
The round trip of `protocol/Json.hpp`: `JsonParser::parse` reads back the text that the compact
printer `toString` writes. The printer and the parser are two mutually recursive walkers over the
tree, and the proof follows the tree: one lemma per character the descent dispatches on, one per
way a member or an element ends, and one mutual theorem for a value, the member loop and the
element loop.
-/

namespace HighSpeed

/-! ## What the parser reads back -/

section
mutual
@[local simp]
def Json.fillUnset : Json → Json
  | .object members => .object (JsonObject.fillUnsetMembers members)
  | .array elements => .array (JsonArray.fillUnsetElements elements)
  | .string value => .string value
  | .number value => .number value
  | .boolean value => .boolean value
  | .null => .null
@[local simp]
def JsonObject.fillUnsetMembers : List (List Char × Json) → List (List Char × Json)
  | [] => []
  | (key, value) :: rest => (key, value.fillUnset) :: JsonObject.fillUnsetMembers rest
def JsonArray.fillUnsetElements : List (Option Json) → List (Option Json)
  | [] => []
  | none :: rest => some .null :: JsonArray.fillUnsetElements rest
  | some value :: rest => some value.fillUnset :: JsonArray.fillUnsetElements rest
end
end

/-- A key that `JsonObject::toString` can paste raw: the parser's string loop would stop at a
quote and unescape at a backslash. -/
def plainKey (key : List Char) : Bool := key.all fun c => c != '"' && c != '\\'

section
mutual
@[local simp]
def Json.readable : Json → Bool
  | .object members => JsonObject.readableMembers members
  | .array elements => JsonArray.readableElements elements
  | .number value => NumberFormat.stod (JsonNumber.toString value) == some value
  | .string _ | .boolean _ | .null => true
@[local simp]
def JsonObject.readableMembers : List (List Char × Json) → Bool
  | [] => true
  | (key, value) :: rest => plainKey key && value.readable && JsonObject.readableMembers rest
@[local simp]
def JsonArray.readableElements : List (Option Json) → Bool
  | [] => true
  | none :: rest => JsonArray.readableElements rest
  | some value :: rest => value.readable && JsonArray.readableElements rest
end
end

mutual
def Json.plainIntegral : Json → Bool
  | .object members => JsonObject.plainIntegralMembers members
  | .array elements => JsonArray.plainIntegralElements elements
  | .number value => value.den == 1 && decide (value.num.natAbs < 10 ^ 6)
  | .string _ | .boolean _ | .null => true
def JsonObject.plainIntegralMembers : List (List Char × Json) → Bool
  | [] => true
  | (key, value) :: rest =>
      plainKey key && value.plainIntegral && JsonObject.plainIntegralMembers rest
def JsonArray.plainIntegralElements : List (Option Json) → Bool
  | [] => true
  | none :: rest => JsonArray.plainIntegralElements rest
  | some value :: rest => value.plainIntegral && JsonArray.plainIntegralElements rest
end

theorem JsonNumber.readsBack_of_integral {value : ℚ} (whole : value.den = 1)
    (small : value.num.natAbs < 10 ^ 6) :
    NumberFormat.stod (JsonNumber.toString value) = some value := by
  have cast : ((value.num : ℤ) : ℚ) = value := Rat.coe_int_num_of_den_eq_one whole
  rw [JsonNumber.toString, ← cast]
  exact NumberFormat.stod_formatGeneral_intCast small (lt_trans small (by norm_num))

mutual
theorem Json.readable_of_plainIntegral :
    ∀ value : Json, value.plainIntegral = true → value.readable = true
  | .object members, plain => JsonObject.readableMembers_of_plainIntegral members plain
  | .array elements, plain => JsonArray.readableElements_of_plainIntegral elements plain
  | .number value, plain => by
      simp only [Json.plainIntegral, Bool.and_eq_true, beq_iff_eq, decide_eq_true_eq] at plain
      simp only [Json.readable, beq_iff_eq]
      exact JsonNumber.readsBack_of_integral plain.1 plain.2
  | .string _, _ | .boolean _, _ | .null, _ => rfl
theorem JsonObject.readableMembers_of_plainIntegral : ∀ members : List (List Char × Json),
    JsonObject.plainIntegralMembers members = true → JsonObject.readableMembers members = true
  | [], _ => rfl
  | (key, value) :: rest, plain => by
      simp only [JsonObject.plainIntegralMembers, Bool.and_eq_true] at plain
      simp only [JsonObject.readableMembers, Bool.and_eq_true]
      exact ⟨⟨plain.1.1, Json.readable_of_plainIntegral value plain.1.2⟩,
        JsonObject.readableMembers_of_plainIntegral rest plain.2⟩
theorem JsonArray.readableElements_of_plainIntegral : ∀ elements : List (Option Json),
    JsonArray.plainIntegralElements elements = true → JsonArray.readableElements elements = true
  | [], _ => rfl
  | none :: rest, plain => JsonArray.readableElements_of_plainIntegral rest plain
  | some value :: rest, plain => by
      simp only [JsonArray.plainIntegralElements, Bool.and_eq_true] at plain
      simp only [JsonArray.readableElements, Bool.and_eq_true]
      exact ⟨Json.readable_of_plainIntegral value plain.1,
        JsonArray.readableElements_of_plainIntegral rest plain.2⟩
end

/-! ## The printed text -/

theorem JsonObject.membersText_true_cons (key : List Char) (value : Json)
    (more : List (List Char × Json)) :
    JsonObject.membersText true ((key, value) :: more) =
      '"' :: (key ++ '"' :: ':' :: (value.toString ++ JsonObject.membersText false more)) := by
  simp [JsonObject.membersText]

theorem JsonObject.membersText_false_cons (member : List Char × Json)
    (more : List (List Char × Json)) :
    JsonObject.membersText false (member :: more) =
      ',' :: JsonObject.membersText true (member :: more) := by
  simp [JsonObject.membersText]

theorem JsonArray.elementsText_true_some (value : Json) (more : List (Option Json)) :
    JsonArray.elementsText true (some value :: more) =
      value.toString ++ JsonArray.elementsText false more := rfl

theorem JsonArray.elementsText_true_none (more : List (Option Json)) :
    JsonArray.elementsText true (none :: more) =
      "null".toList ++ JsonArray.elementsText false more := rfl

theorem JsonArray.elementsText_false_cons (element : Option Json) (more : List (Option Json)) :
    JsonArray.elementsText false (element :: more) =
      ',' :: JsonArray.elementsText true (element :: more) := rfl

mutual
theorem Json.toString_fillUnset : ∀ value : Json, value.fillUnset.toString = value.toString
  | .object members => by
      rw [Json.fillUnset, Json.toString, Json.toString, JsonObject.membersText_fillUnset]
  | .array elements => by
      rw [Json.fillUnset, Json.toString, Json.toString, JsonArray.elementsText_fillUnset]
  | .string _ | .number _ | .boolean _ | .null => rfl
theorem JsonObject.membersText_fillUnset : ∀ (first : Bool) (members : List (List Char × Json)),
    JsonObject.membersText first (JsonObject.fillUnsetMembers members) =
      JsonObject.membersText first members
  | _, [] => rfl
  | first, (key, value) :: more => by
      rw [JsonObject.fillUnsetMembers, JsonObject.membersText, JsonObject.membersText,
        Json.toString_fillUnset value, JsonObject.membersText_fillUnset false more]
theorem JsonArray.elementsText_fillUnset : ∀ (first : Bool) (elements : List (Option Json)),
    JsonArray.elementsText first (JsonArray.fillUnsetElements elements) =
      JsonArray.elementsText first elements
  | _, [] => rfl
  | first, none :: more => by
      rw [JsonArray.fillUnsetElements, JsonArray.elementsText, JsonArray.elementsText,
        JsonArray.elementsText_fillUnset false more]
      rfl
  | first, some value :: more => by
      rw [JsonArray.fillUnsetElements, JsonArray.elementsText, JsonArray.elementsText,
        JsonArray.elementsText_fillUnset false more, Json.toString_fillUnset value]
end

namespace JsonParser

/-! ## Strings -/

theorem parseStringFrom_escapeChar (c : Char) (out rest : List Char) :
    parseStringFrom out (escapeChar c ++ rest) = parseStringFrom (out ++ [c]) rest := by
  unfold escapeChar
  split
  · rfl
  · rfl
  · rfl
  · rfl
  · rfl
  · rename_i notQuote notEscape _ _ _
    rw [List.singleton_append, parseStringFrom.eq_def]
    dsimp only
    rw [if_neg notQuote, if_neg notEscape]

theorem parseStringFrom_quote (out rest : List Char) :
    parseStringFrom out ('"' :: rest) = .ok (out, rest) := by
  rw [parseStringFrom.eq_def]
  dsimp only
  rw [if_pos rfl]

theorem parseStringFrom_escaped (value : List Char) (out rest : List Char) :
    parseStringFrom out (value.flatMap escapeChar ++ '"' :: rest) = .ok (out ++ value, rest) := by
  induction value generalizing out with
  | nil => rw [List.flatMap_nil, List.nil_append, parseStringFrom_quote, List.append_nil]
  | cons c value ih =>
      rw [List.flatMap_cons, List.append_assoc, parseStringFrom_escapeChar, ih, List.append_assoc,
        List.singleton_append]

theorem parseString_toString (value rest : List Char) :
    parseString (JsonString.toString value ++ rest) = .ok (value, rest) := by
  simp only [JsonString.toString, List.cons_append, List.append_assoc, List.nil_append]
  rw [parseString, List.tail_cons, parseStringFrom_escaped, List.nil_append]

theorem plain_of_plainKey {key : List Char} (plain : plainKey key = true) :
    ∀ c ∈ key, c ≠ '"' ∧ c ≠ '\\' := by
  intro c member
  simpa using List.all_eq_true.mp plain c member

theorem parseString_plainKey {key : List Char} (plain : plainKey key = true) (rest : List Char) :
    parseString ('"' :: (key ++ '"' :: rest)) = .ok (key, rest) := by
  rw [parseString, List.tail_cons,
    parseStringFrom_append_plain [] key _ (plain_of_plainKey plain), List.nil_append,
    parseStringFrom_quote]

/-! ## Numbers -/

def NumberEnds (rest : List Char) : Prop :=
  ∀ c more, rest = c :: more → isdigit c = false ∧ c ≠ '.' ∧ c ≠ 'e' ∧ c ≠ 'E'

theorem numberEnds_nil : NumberEnds [] := fun _ _ empty => nomatch empty

theorem numberEnds_cons {c : Char} (closes : c = ',' ∨ c = '}' ∨ c = ']') (more : List Char) :
    NumberEnds (c :: more) := by
  intro d rest same
  rw [List.cons.injEq] at same
  rw [← same.1]
  rcases closes with rfl | rfl | rfl <;> decide

theorem span_isdigit_append {digits rest : List Char}
    (allDigits : ∀ c ∈ digits, isdigit c = true)
    (stops : ∀ c more, rest = c :: more → isdigit c = false) :
    (digits ++ rest).span isdigit = (digits, rest) :=
  NumberFormat.span_append_of_all allDigits stops

theorem exponentPart_append_ends {exponent rest : List Char}
    (part : NumberFormat.ExponentPart exponent) (ends : NumberEnds rest) :
    ∀ c more, exponent ++ rest = c :: more → isdigit c = false ∧ c ≠ '.' := by
  intro c more starts
  rcases part with rfl | ⟨sign, digits, rfl, _, _⟩
  · exact ⟨(ends c more starts).1, (ends c more starts).2.1⟩
  · rw [List.cons_append, List.cons.injEq] at starts
    rw [← starts.1]
    decide

theorem scanExponent_exponentPart {exponent rest : List Char}
    (part : NumberFormat.ExponentPart exponent) (ends : NumberEnds rest) :
    scanExponent (exponent ++ rest) = (exponent, rest) := by
  rcases part with rfl | ⟨sign, digits, rfl, signed, allDigits⟩
  · cases rest with
    | nil => rfl
    | cons c more =>
        obtain ⟨-, -, notE, notUpperE⟩ := ends c more rfl
        rw [List.nil_append, scanExponent, if_neg (not_or.mpr ⟨notE, notUpperE⟩)]
  · have signScan : scanExponentSign (sign :: (digits ++ rest)) = ([sign], digits ++ rest) := by
      rw [scanExponentSign, if_pos signed]
    rw [List.cons_append, List.cons_append, scanExponent, if_pos (Or.inl rfl)]
    dsimp only
    rw [signScan,
      span_isdigit_append allDigits fun c more starts => (ends c more starts).1]
    rfl

theorem scanFraction_fractionPart {fraction tail : List Char}
    (part : NumberFormat.FractionPart fraction)
    (tailEnds : ∀ c more, tail = c :: more → isdigit c = false ∧ c ≠ '.') :
    scanFraction (fraction ++ tail) = (fraction, tail) := by
  rcases part with rfl | ⟨digits, rfl, allDigits⟩
  · rw [List.nil_append]
    unfold scanFraction
    split
    · rename_i more
      exact absurd rfl (tailEnds '.' more rfl).2
    · rfl
  · rw [List.cons_append, scanFraction,
      span_isdigit_append allDigits fun c more starts => (tailEnds c more starts).1]

theorem scanNumber_decimalParts {sign whole fraction exponent rest : List Char}
    (parts : NumberFormat.DecimalParts sign whole fraction exponent) (ends : NumberEnds rest) :
    scanNumber (sign ++ whole ++ fraction ++ exponent ++ rest) =
      (sign ++ whole ++ fraction ++ exponent, rest) := by
  obtain ⟨signed, nonempty, wholeDigits, fractionPart, exponentPart⟩ := parts
  have exponentEnds := exponentPart_append_ends exponentPart ends
  have fractionEnds :
      ∀ c more, fraction ++ (exponent ++ rest) = c :: more → isdigit c = false := by
    intro c more starts
    rcases fractionPart with rfl | ⟨digits, rfl, _⟩
    · exact (exponentEnds c more starts).1
    · rw [List.cons_append, List.cons.injEq] at starts
      rw [← starts.1]
      decide
  have signScan : scanSign (sign ++ (whole ++ (fraction ++ (exponent ++ rest)))) =
      (sign, whole ++ (fraction ++ (exponent ++ rest))) := by
    rcases signed with rfl | rfl
    · obtain ⟨d, digits, rfl⟩ := List.exists_cons_of_ne_nil nonempty
      have notMinus : d ≠ '-' := by
        intro same
        have digit := wholeDigits d List.mem_cons_self
        rw [same] at digit
        exact absurd digit (by decide)
      rw [List.nil_append, List.cons_append]
      unfold scanSign
      split
      · rename_i more starts
        exact absurd (List.cons.inj starts).1 notMinus
      · rfl
    · rfl
  unfold scanNumber
  simp only [List.append_assoc]
  rw [signScan]
  dsimp only
  rw [span_isdigit_append wholeDigits fractionEnds]
  dsimp only
  rw [scanFraction_fractionPart fractionPart exponentEnds]
  dsimp only
  rw [scanExponent_exponentPart exponentPart ends]

theorem parseNumber_toString {value : ℚ}
    (readsBack : NumberFormat.stod (JsonNumber.toString value) = some value)
    {rest : List Char} (ends : NumberEnds rest) :
    parseNumber (JsonNumber.toString value ++ rest) = .ok (.number value, rest) := by
  obtain ⟨sign, whole, fraction, exponent, parts, text⟩ :=
    NumberFormat.formatGeneral_parts 6 value
  have scanned := scanNumber_decimalParts parts ends
  rw [← text] at scanned
  unfold parseNumber
  rw [JsonNumber.toString] at readsBack ⊢
  rw [scanned]
  dsimp only
  rw [readsBack]

theorem numberText_head (value : ℚ) :
    ∃ c more, JsonNumber.toString value = c :: more ∧ (c = '-' ∨ isdigit c = true) := by
  obtain ⟨sign, whole, fraction, exponent, parts, text⟩ :=
    NumberFormat.formatGeneral_parts 6 value
  rw [JsonNumber.toString, text]
  rcases parts.signed with rfl | rfl
  · obtain ⟨d, digits, rfl⟩ := List.exists_cons_of_ne_nil parts.nonempty
    exact ⟨d, _, rfl, .inr (parts.digits d List.mem_cons_self)⟩
  · exact ⟨'-', _, rfl, .inl rfl⟩

/-! ## One step of the descent -/

theorem skipSpaces_of_not_space {c : Char} (notSpace : isspace c = false) (rest : List Char) :
    skipSpaces (c :: rest) = c :: rest := by
  rw [skipSpaces, notSpace, Bool.and_false, if_neg Bool.false_ne_true]

theorem isspace_of_numberHead {c : Char} (head : c = '-' ∨ isdigit c = true) :
    isspace c = false := by
  rcases head with rfl | digit
  · rfl
  · cases spaced : isspace c
    · rfl
    · simp only [isspace, Bool.or_eq_true, decide_eq_true_eq, or_assoc] at spaced
      rcases spaced with rfl | rfl | rfl | rfl | rfl | rfl <;> exact absurd digit (by decide)

theorem toString_head (value : Json) :
    ∃ c more, value.toString = c :: more ∧ isspace c = false ∧ c ≠ ']' := by
  cases value with
  | object members => exact ⟨'{', _, rfl, by decide, by decide⟩
  | array elements => exact ⟨'[', _, rfl, by decide, by decide⟩
  | string value => exact ⟨'"', _, rfl, by decide, by decide⟩
  | number value =>
      obtain ⟨c, more, text, head⟩ := numberText_head value
      refine ⟨c, more, text, isspace_of_numberHead head, ?_⟩
      rcases head with rfl | digit
      · decide
      · rintro rfl
        exact absurd digit (by decide)
  | boolean value => cases value <;> exact ⟨_, _, rfl, by decide, by decide⟩
  | null => exact ⟨'n', _, rfl, by decide, by decide⟩

theorem parseValue_brace (size g : Nat) (more : List Char) :
    parseValue size (g + 1) ('{' :: more) = parseObject size g ('{' :: more) := rfl

theorem parseValue_bracket (size g : Nat) (more : List Char) :
    parseValue size (g + 1) ('[' :: more) = parseArray size g ('[' :: more) := rfl

theorem parseValue_quote (size g : Nat) (more : List Char) :
    parseValue size (g + 1) ('"' :: more) =
      (parseString ('"' :: more)).map fun (value, after) => (.string value, after) := rfl

theorem parseValue_numberHead {c : Char} (head : c = '-' ∨ isdigit c = true) (size g : Nat)
    (more : List Char) : parseValue size (g + 1) (c :: more) = parseNumber (c :: more) := by
  have notDelimiter :
      c ≠ '{' ∧ c ≠ '[' ∧ c ≠ '"' ∧ ¬(c = 't' ∨ c = 'f') ∧ c ≠ 'n' := by
    rcases head with rfl | digit
    · decide
    · have notDigit : ∀ d, isdigit d = false → c ≠ d := by
        rintro d notDigit rfl
        rw [digit] at notDigit
        contradiction
      exact ⟨notDigit '{' rfl, notDigit '[' rfl, notDigit '"' rfl,
        not_or.mpr ⟨notDigit 't' rfl, notDigit 'f' rfl⟩, notDigit 'n' rfl⟩
  obtain ⟨notBrace, notBracket, notQuote, notLetter, notN⟩ := notDelimiter
  rw [parseValue, skipSpaces_of_not_space (isspace_of_numberHead head)]
  dsimp only
  rw [if_neg notBrace, if_neg notBracket, if_neg notQuote, if_neg notLetter, if_neg notN,
    if_pos head]

theorem parseObject_empty (size g : Nat) (rest : List Char) :
    parseObject size (g + 1) ('{' :: '}' :: rest) = .ok (.object [], rest) := rfl

theorem parseObject_open (size g : Nat) (more : List Char) :
    parseObject size (g + 1) ('{' :: '"' :: more) = parseMembers size g [] ('"' :: more) := rfl

theorem parseArray_empty (size g : Nat) (rest : List Char) :
    parseArray size (g + 1) ('[' :: ']' :: rest) = .ok (.array [], rest) := rfl

theorem parseArray_open (size g : Nat) {json : List Char} (kept : skipSpaces json = json)
    (notClose : ∀ more, json ≠ ']' :: more) :
    parseArray size (g + 1) ('[' :: json) = parseElements size g [] json := by
  rw [parseArray, List.tail_cons, kept]
  split
  · rename_i more
    exact absurd rfl (notClose more)
  · rfl

section Loops

variable {size g : Nat} {key after json afterValue rest : List Char} {value : Json}

theorem parseMembers_last (plain : plainKey key = true) (read : List (List Char × Json))
    (parsed : parseValue size g (skipSpaces after) = .ok (value, afterValue))
    (closes : skipSpaces afterValue = '}' :: rest) :
    parseMembers size (g + 1) read ('"' :: (key ++ '"' :: ':' :: after)) =
      .ok (.object (read ++ [(key, value)]), rest) := by
  have colon : skipSpaces (':' :: after) = ':' :: after :=
    skipSpaces_of_not_space (by decide) after
  rw [parseMembers, skipSpaces_of_not_space (by decide)]
  simp [parseString_plainKey plain, colon, parsed, closes]

theorem parseMembers_next (plain : plainKey key = true) (read : List (List Char × Json))
    (parsed : parseValue size g (skipSpaces after) = .ok (value, afterValue))
    (comma : skipSpaces afterValue = ',' :: rest) :
    parseMembers size (g + 1) read ('"' :: (key ++ '"' :: ':' :: after)) =
      parseMembers size g (read ++ [(key, value)]) rest := by
  have colon : skipSpaces (':' :: after) = ':' :: after :=
    skipSpaces_of_not_space (by decide) after
  rw [parseMembers, skipSpaces_of_not_space (by decide)]
  simp [parseString_plainKey plain, colon, parsed, comma]

theorem parseElements_last (read : List (Option Json))
    (parsed : parseValue size g (skipSpaces json) = .ok (value, afterValue))
    (closes : skipSpaces afterValue = ']' :: rest) :
    parseElements size (g + 1) read json = .ok (.array (read ++ [some value]), rest) := by
  rw [parseElements, parsed]
  simp [closes]

theorem parseElements_next (read : List (Option Json))
    (parsed : parseValue size g (skipSpaces json) = .ok (value, afterValue))
    (comma : skipSpaces afterValue = ',' :: rest) :
    parseElements size (g + 1) read json = parseElements size g (read ++ [some value]) rest := by
  rw [parseElements, parsed]
  simp [comma]

end Loops

theorem skipSpaces_toString (value : Json) (rest : List Char) :
    skipSpaces (value.toString ++ rest) = value.toString ++ rest := by
  obtain ⟨c, more, text, notSpace, -⟩ := toString_head value
  rw [text, List.cons_append, skipSpaces_of_not_space notSpace]

theorem elementsText_head (element : Option Json) (more : List (Option Json)) :
    ∃ c after, JsonArray.elementsText true (element :: more) = c :: after ∧
      isspace c = false ∧ c ≠ ']' := by
  cases element with
  | none => exact ⟨'n', _, rfl, by decide, by decide⟩
  | some value =>
      obtain ⟨c, text, starts, notSpace, notClose⟩ := toString_head value
      rw [JsonArray.elementsText_true_some, starts, List.cons_append]
      exact ⟨c, _, rfl, notSpace, notClose⟩

theorem skipSpaces_nullText (rest : List Char) :
    skipSpaces ("null".toList ++ rest) = "null".toList ++ rest := rfl

theorem elementsText_length_lt (element : Option Json) (more : List (Option Json)) :
    (JsonArray.elementsText false more).length <
      (JsonArray.elementsText true (element :: more)).length := by
  obtain ⟨c, after, starts, -, -⟩ := elementsText_head element more
  cases element with
  | none =>
      rw [JsonArray.elementsText_true_none, List.length_append]
      exact Nat.lt_add_of_pos_left (by decide)
  | some value =>
      obtain ⟨d, text, starts, -, -⟩ := toString_head value
      rw [JsonArray.elementsText_true_some, List.length_append, starts, List.length_cons]
      omega

theorem parseValue_nullText (size g : Nat) (rest : List Char) :
    parseValue size (g + 1) ("null".toList ++ rest) = .ok (.null, rest) := rfl

theorem numberEnds_membersText (more : List (List Char × Json)) (rest : List Char) :
    NumberEnds (JsonObject.membersText false more ++ '}' :: rest) := by
  cases more with
  | nil => exact numberEnds_cons (.inr (.inl rfl)) rest
  | cons member more =>
      rw [JsonObject.membersText_false_cons]
      exact numberEnds_cons (.inl rfl) _

theorem numberEnds_elementsText (more : List (Option Json)) (rest : List Char) :
    NumberEnds (JsonArray.elementsText false more ++ ']' :: rest) := by
  cases more with
  | nil => exact numberEnds_cons (.inr (.inr rfl)) rest
  | cons element more =>
      rw [JsonArray.elementsText_false_cons]
      exact numberEnds_cons (.inl rfl) _

/-! ## The round trip -/

mutual
theorem parseValue_toString : ∀ (value : Json), value.readable = true →
    ∀ (size fuel : Nat) (rest : List Char), NumberEnds rest →
      3 * value.toString.length < fuel →
      parseValue size fuel (value.toString ++ rest) = .ok (value.fillUnset, rest)
  | _, _, _, 0, _, _, bound => absurd bound (Nat.not_lt_zero _)
  | .object [], _, size, fuel + 1, rest, _, bound => by
      obtain ⟨g, rfl⟩ : ∃ g, fuel = g + 1 :=
        ⟨fuel - 1, by simp [Json.toString] at bound; omega⟩
      exact parseObject_empty size g rest
  | .object ((key, value) :: more), readable, size, fuel + 1, rest, _, bound => by
      have text : (Json.object ((key, value) :: more)).toString ++ rest =
          '{' :: (JsonObject.membersText true ((key, value) :: more) ++ '}' :: rest) := by
        simp [Json.toString]
      have length : (Json.object ((key, value) :: more)).toString.length =
          (JsonObject.membersText true ((key, value) :: more)).length + 2 := by
        simp [Json.toString]
      rw [length] at bound
      obtain ⟨g, rfl⟩ : ∃ g, fuel = g + 1 := ⟨fuel - 1, by omega⟩
      have members := parseMembers_membersText ((key, value) :: more) (List.cons_ne_nil _ _)
        readable size g [] rest (by omega)
      rw [JsonObject.membersText_true_cons, List.cons_append] at members
      rw [text, JsonObject.membersText_true_cons, List.cons_append, parseValue_brace,
        parseObject_open, members]
      rfl
  | .array [], _, size, fuel + 1, rest, _, bound => by
      obtain ⟨g, rfl⟩ : ∃ g, fuel = g + 1 :=
        ⟨fuel - 1, by simp [Json.toString] at bound; omega⟩
      exact parseArray_empty size g rest
  | .array (element :: more), readable, size, fuel + 1, rest, _, bound => by
      have text : (Json.array (element :: more)).toString ++ rest =
          '[' :: (JsonArray.elementsText true (element :: more) ++ ']' :: rest) := by
        simp [Json.toString]
      have length : (Json.array (element :: more)).toString.length =
          (JsonArray.elementsText true (element :: more)).length + 2 := by
        simp [Json.toString]
      rw [length] at bound
      obtain ⟨g, rfl⟩ : ∃ g, fuel = g + 1 := ⟨fuel - 1, by omega⟩
      obtain ⟨c, after, starts, notSpace, notClose⟩ := elementsText_head element more
      have kept : skipSpaces (JsonArray.elementsText true (element :: more) ++ ']' :: rest) =
          JsonArray.elementsText true (element :: more) ++ ']' :: rest := by
        rw [starts, List.cons_append, skipSpaces_of_not_space notSpace]
      have opens : ∀ later, JsonArray.elementsText true (element :: more) ++ ']' :: rest ≠
          ']' :: later := by
        intro later same
        rw [starts, List.cons_append, List.cons.injEq] at same
        exact notClose same.1
      rw [text, parseValue_bracket, parseArray_open size g kept opens,
        parseElements_elementsText (element :: more) (List.cons_ne_nil _ _) readable size g [] rest
          (by omega)]
      rfl
  | .string value, _, size, fuel + 1, rest, _, _ => by
      have text : JsonString.toString value ++ rest =
          '"' :: (value.flatMap escapeChar ++ '"' :: rest) := by
        simp [JsonString.toString]
      show parseValue size (fuel + 1) (JsonString.toString value ++ rest) = _
      rw [text, parseValue_quote, ← text, parseString_toString]
      rfl
  | .number value, readable, size, fuel + 1, rest, ends, _ => by
      have readsBack : NumberFormat.stod (JsonNumber.toString value) = some value := by
        simpa [Json.readable] using readable
      obtain ⟨c, more, text, head⟩ := numberText_head value
      rw [show (Json.number value).toString = JsonNumber.toString value from rfl, text,
        List.cons_append, parseValue_numberHead head, ← List.cons_append, ← text,
        parseNumber_toString readsBack ends]
      rfl
  | .boolean true, _, size, fuel + 1, rest, _, _ => rfl
  | .boolean false, _, size, fuel + 1, rest, _, _ => rfl
  | .null, _, size, fuel + 1, rest, _, _ => parseValue_nullText size fuel rest

theorem parseMembers_membersText : ∀ (members : List (List Char × Json)), members ≠ [] →
    JsonObject.readableMembers members = true →
    ∀ (size fuel : Nat) (read : List (List Char × Json)) (rest : List Char),
      3 * (JsonObject.membersText true members).length + 1 < fuel →
      parseMembers size fuel read (JsonObject.membersText true members ++ '}' :: rest) =
        .ok (.object (read ++ JsonObject.fillUnsetMembers members), rest)
  | [], nonempty, _, _, _, _, _, _ => absurd rfl nonempty
  | _ :: _, _, _, _, 0, _, _, bound => absurd bound (Nat.not_lt_zero _)
  | (key, value) :: more, _, readable, size, fuel + 1, read, rest, bound => by
      simp only [JsonObject.readableMembers, Bool.and_eq_true] at readable
      obtain ⟨⟨plain, valueReadable⟩, moreReadable⟩ := readable
      rw [JsonObject.membersText_true_cons] at bound ⊢
      simp only [List.length_cons, List.length_append] at bound
      have parsed := parseValue_toString value valueReadable size fuel
        (JsonObject.membersText false more ++ '}' :: rest) (numberEnds_membersText more rest)
        (by omega)
      rw [← skipSpaces_toString value] at parsed
      have later := fun nonempty => parseMembers_membersText more nonempty moreReadable size fuel
        (read ++ [(key, value.fillUnset)]) rest
      rw [List.cons_append, List.append_assoc, List.cons_append, List.cons_append,
        List.append_assoc]
      cases more with
      | nil =>
          rw [parseMembers_last plain read parsed (skipSpaces_of_not_space (by decide) rest)]
          rfl
      | cons next more =>
          rw [JsonObject.membersText_false_cons] at bound
          rw [JsonObject.membersText_false_cons, List.cons_append] at parsed ⊢
          rw [parseMembers_next plain read parsed (skipSpaces_of_not_space (by decide) _),
            later (List.cons_ne_nil _ _) (by simp only [List.length_cons] at bound; omega)]
          simp [JsonObject.fillUnsetMembers]

theorem parseElements_elementsText : ∀ (elements : List (Option Json)), elements ≠ [] →
    JsonArray.readableElements elements = true →
    ∀ (size fuel : Nat) (read : List (Option Json)) (rest : List Char),
      3 * (JsonArray.elementsText true elements).length + 1 < fuel →
      parseElements size fuel read (JsonArray.elementsText true elements ++ ']' :: rest) =
        .ok (.array (read ++ JsonArray.fillUnsetElements elements), rest)
  | [], nonempty, _, _, _, _, _, _ => absurd rfl nonempty
  | _ :: _, _, _, _, 0, _, _, bound => absurd bound (Nat.not_lt_zero _)
  | element :: more, _, readable, size, fuel + 1, read, rest, bound => by
      obtain ⟨value, moreReadable, filled, parsed⟩ : ∃ value,
          JsonArray.readableElements more = true ∧
          JsonArray.fillUnsetElements (element :: more) =
            some value :: JsonArray.fillUnsetElements more ∧
          parseValue size fuel (skipSpaces (JsonArray.elementsText true (element :: more) ++
            ']' :: rest)) = .ok (value, JsonArray.elementsText false more ++ ']' :: rest) := by
        cases element with
        | none =>
            rw [JsonArray.elementsText_true_none] at bound ⊢
            obtain ⟨g, rfl⟩ : ∃ g, fuel = g + 1 := ⟨fuel - 1, by simp at bound; omega⟩
            refine ⟨.null, readable, rfl, ?_⟩
            rw [List.append_assoc, skipSpaces_nullText, parseValue_nullText]
        | some value =>
            simp only [JsonArray.readableElements, Bool.and_eq_true] at readable
            rw [JsonArray.elementsText_true_some] at bound ⊢
            simp only [List.length_append] at bound
            refine ⟨value.fillUnset, readable.2, rfl, ?_⟩
            rw [List.append_assoc, skipSpaces_toString,
              parseValue_toString value readable.1 size fuel _ (numberEnds_elementsText more rest)
                (by omega)]
      have later := fun nonempty => parseElements_elementsText more nonempty moreReadable size fuel
        (read ++ [some value]) rest
      have shorter := elementsText_length_lt element more
      rw [filled]
      cases more with
      | nil =>
          rw [parseElements_last read parsed (skipSpaces_of_not_space (by decide) rest)]
          rfl
      | cons next more =>
          rw [JsonArray.elementsText_false_cons, List.cons_append] at parsed
          rw [JsonArray.elementsText_false_cons] at shorter
          rw [List.length_cons] at shorter
          rw [parseElements_next read parsed (skipSpaces_of_not_space (by decide) _),
            later (List.cons_ne_nil _ _) (by omega)]
          simp
end

theorem parse_readable {value : Json} (readable : value.readable = true) :
    parse value.toString = .ok value.fillUnset := by
  have read := parseValue_toString value readable value.toString.length (fuelFor value.toString)
    [] numberEnds_nil (by unfold fuelFor; omega)
  have kept := skipSpaces_toString value []
  rw [List.append_nil] at read kept
  unfold parse
  rw [kept, read]
  rfl

/-- `JsonParser::parse` reads the text `toString` prints back as the same tree, with unset array
slots read as `null`, for every tree whose keys hold no quote or backslash and whose numbers'
six-digit text reads back as the same double; the tree it returns prints as the same text. -/
theorem parse_toString_fillUnset (value : Json) (readable : value.readable = true) :
    parse value.toString = .ok value.fillUnset ∧ value.fillUnset.toString = value.toString :=
  ⟨parse_readable readable, value.toString_fillUnset⟩

theorem parse_toString_fillUnset_object :
    (Json.object [("a".toList, .array [some (.number 7), none]),
        ("b".toList, .string "x\"y".toList)]).readable = true ∧
      parse (Json.object [("a".toList, .array [some (.number 7), none]),
          ("b".toList, .string "x\"y".toList)]).toString =
        .ok (Json.object [("a".toList, .array [some (.number 7), none]),
          ("b".toList, .string "x\"y".toList)]).fillUnset ∧
      (Json.object [("a".toList, .array [some (.number 7), none]),
          ("b".toList, .string "x\"y".toList)]).fillUnset.toString =
        (Json.object [("a".toList, .array [some (.number 7), none]),
          ("b".toList, .string "x\"y".toList)]).toString :=
  have readable : (Json.object [("a".toList, .array [some (.number 7), none]),
      ("b".toList, .string "x\"y".toList)]).readable = true := by decide +kernel
  ⟨readable, parse_toString_fillUnset _ readable⟩

/-- On trees whose keys hold no quote or backslash and whose numbers are whole and below `10 ^ 6`,
`JsonParser::parse` reads back what `toString` prints, unset array slots as `null`. -/
theorem parse_toString_plainIntegral (value : Json) (plain : value.plainIntegral = true) :
    parse value.toString = .ok value.fillUnset :=
  parse_readable (value.readable_of_plainIntegral plain)

theorem parse_toString_plainIntegral_object :
    (Json.object [("k".toList,
        .array [some (.number 999999), some (.number (-56)), none])]).plainIntegral = true ∧
      parse (Json.object [("k".toList,
          .array [some (.number 999999), some (.number (-56)), none])]).toString =
        .ok (Json.object [("k".toList,
          .array [some (.number 999999), some (.number (-56)), none])]).fillUnset :=
  have plain : (Json.object [("k".toList,
      .array [some (.number 999999), some (.number (-56)), none])]).plainIntegral = true := by
    decide +kernel
  ⟨plain, parse_toString_plainIntegral _ plain⟩

end JsonParser

end HighSpeed
