import HighSpeed.Json.Grammar
import HighSpeed.Json.DumpRoundTrip

/-!
`JsonParser::parse` reads every JSON document: whatever text the grammar of `Json.Grammar`
derives, `parse` returns the tree the grammar gives it (`parse_jsonText`). The round trips of
`Json.RoundTrip` and `Json.DumpRoundTrip` read back the two printers; this reads back any
document, with any blanks between tokens, any escapes but `\u`, and any number with a `double`.
-/

namespace HighSpeed

namespace JsonParser

open JsonGrammar

/-! ## Blanks and the first character of a value -/

theorem skipSpaces_jsonSpace {c : Char} (space : jsonSpace c = true) (rest : List Char) :
    skipSpaces (c :: rest) = skipSpaces rest := by
  simp only [jsonSpace, Bool.or_eq_true, decide_eq_true_eq] at space
  rcases space with ((rfl | rfl) | rfl) | rfl <;> rfl

theorem skipSpaces_blank_append : ∀ {ws : List Char}, Blank ws → ∀ rest : List Char,
    skipSpaces (ws ++ rest) = skipSpaces rest
  | [], _, _ => rfl
  | c :: ws, blank, rest => by
      obtain ⟨space, more⟩ := blank.head_tail
      rw [List.cons_append, skipSpaces_jsonSpace space, skipSpaces_blank_append more]

theorem numberEnds_blank_append {ws rest : List Char} (blank : Blank ws) (ends : NumberEnds rest) :
    NumberEnds (ws ++ rest) := by
  cases ws with
  | nil => exact ends
  | cons d ws =>
      intro c more starts
      rw [List.cons_append, List.cons.injEq] at starts
      rw [← starts.1]
      have space := blank.head_tail.1
      simp only [jsonSpace, Bool.or_eq_true, decide_eq_true_eq] at space
      rcases space with ((rfl | rfl) | rfl) | rfl <;> decide

theorem isspace_of_valueHead {c : Char} (head : ValueHead c) : isspace c = false := by
  rcases head with rfl | rfl | rfl | minus | digit | rfl | rfl | rfl
  · rfl
  · rfl
  · rfl
  · exact isspace_of_numberHead (.inl minus)
  · exact isspace_of_numberHead (.inr digit)
  · rfl
  · rfl
  · rfl

theorem skipSpaces_valueText {text : List Char} {value : Json} (derived : ValueText text value)
    (rest : List Char) : skipSpaces (text ++ rest) = text ++ rest := by
  obtain ⟨c, more, starts, head⟩ := derived.head
  rw [starts, List.cons_append, skipSpaces_of_not_space (isspace_of_valueHead head)]

theorem skipSpaces_element {before text rest : List Char} {value : Json} (blank : Blank before)
    (derived : ValueText text value) :
    skipSpaces (before ++ (text ++ rest)) = text ++ rest := by
  rw [skipSpaces_blank_append blank, skipSpaces_valueText derived]

/-! ## Strings -/

theorem unescape_of_shortEscape {e c : Char} (escape : shortEscape e = some c) :
    unescape e = c := by
  unfold shortEscape at escape
  split at escape <;> cases escape <;> rfl

theorem parseStringFrom_stringBody {body value : List Char} (derived : StringBody body value) :
    ∀ (out rest : List Char),
      parseStringFrom out (body ++ '"' :: rest) = .ok (out ++ value, rest) := by
  induction derived with
  | nil =>
      intro out rest
      rw [List.nil_append, List.append_nil, parseStringFrom.eq_def]
      dsimp only
      rw [if_pos rfl]
  | @cons piece body c value char _ ih =>
      intro out rest
      cases char with
      | unescaped c notQuote notEscape _ =>
          rw [List.append_assoc, List.singleton_append, parseStringFrom.eq_def]
          dsimp only
          rw [if_neg notQuote, if_neg notEscape, ih, List.append_assoc, List.singleton_append]
      | escaped escape =>
          rw [List.append_assoc, List.cons_append, List.cons_append, List.nil_append,
            parseStringFrom.eq_def]
          dsimp only
          rw [if_neg (by decide), if_pos rfl, ih, unescape_of_shortEscape escape, List.append_assoc,
            List.singleton_append]

theorem parseString_stringBody {body value : List Char} (derived : StringBody body value)
    (rest : List Char) : parseString ('"' :: (body ++ '"' :: rest)) = .ok (value, rest) := by
  rw [parseString, List.tail_cons, parseStringFrom_stringBody derived, List.nil_append]

/-! ## Numbers -/

theorem exponentText_append_ends {exponent rest : List Char} (part : ExponentText exponent)
    (ends : NumberEnds rest) :
    ∀ c more, exponent ++ rest = c :: more → isdigit c = false ∧ c ≠ '.' := by
  intro c more starts
  rcases part with rfl | ⟨e, sign, digits, rfl, letter, -, -, -⟩
  · exact ⟨(ends c more starts).1, (ends c more starts).2.1⟩
  · rw [List.cons_append, List.cons.injEq] at starts
    rw [← starts.1]
    rcases letter with rfl | rfl <;> decide

theorem scanExponentSign_of_signed {sign after : List Char}
    (signed : sign = [] ∨ sign = ['+'] ∨ sign = ['-'])
    (digitFirst : ∀ c more, after = c :: more → isdigit c = true) (nonempty : after ≠ []) :
    scanExponentSign (sign ++ after) = (sign, after) := by
  rcases signed with rfl | rfl | rfl
  · obtain ⟨d, more, rfl⟩ := List.exists_cons_of_ne_nil nonempty
    have digit := digitFirst d more rfl
    have notSign : ¬(d = '+' ∨ d = '-') := by
      rintro (rfl | rfl) <;> exact absurd digit (by decide)
    rw [List.nil_append, scanExponentSign, if_neg notSign]
  · rfl
  · rfl

theorem scanExponent_exponentText {exponent rest : List Char} (part : ExponentText exponent)
    (ends : NumberEnds rest) : scanExponent (exponent ++ rest) = (exponent, rest) := by
  rcases part with rfl | ⟨e, sign, digits, rfl, letter, signed, nonempty, allDigits⟩
  · cases rest with
    | nil => rfl
    | cons c more =>
        obtain ⟨-, -, notE, notUpperE⟩ := ends c more rfl
        rw [List.nil_append, scanExponent, if_neg (not_or.mpr ⟨notE, notUpperE⟩)]
  · have digitFirst : ∀ c more, digits ++ rest = c :: more → isdigit c = true := by
      intro c more starts
      obtain ⟨d, ds, rfl⟩ := List.exists_cons_of_ne_nil nonempty
      rw [List.cons_append, List.cons.injEq] at starts
      rw [← starts.1]
      exact allDigits d List.mem_cons_self
    rw [List.cons_append, List.append_assoc, scanExponent, if_pos letter]
    dsimp only
    have notEmpty : digits ++ rest ≠ [] := fun empty =>
      nonempty (List.append_eq_nil_iff.mp empty).1
    rw [scanExponentSign_of_signed signed digitFirst notEmpty,
      span_isdigit_append allDigits fun c more starts => (ends c more starts).1]
    rfl

theorem scanNumber_numberText {sign int fraction exponent rest : List Char}
    (number : NumberText sign int fraction exponent) (ends : NumberEnds rest) :
    scanNumber (sign ++ int ++ fraction ++ exponent ++ rest) =
      (sign ++ int ++ fraction ++ exponent, rest) := by
  obtain ⟨d, digits, intText, digit, allDigits⟩ : ∃ d digits, int = d :: digits ∧
      isdigit d = true ∧ ∀ c ∈ int, isdigit c = true := by
    rcases number.int with rfl | ⟨d, digits, rfl, digit, -, allDigits⟩
    · exact ⟨'0', [], rfl, rfl, NumberFormat.digits_zero⟩
    · refine ⟨d, digits, rfl, digit, fun c member => ?_⟩
      rcases List.mem_cons.mp member with rfl | later
      · exact digit
      · exact allDigits c later
  have fractionPart : NumberFormat.FractionPart fraction := by
    rcases number.fraction with rfl | ⟨digits, rfl, -, allDigits⟩
    · exact .inl rfl
    · exact .inr ⟨digits, rfl, allDigits⟩
  have exponentEnds := exponentText_append_ends number.exponent ends
  have fractionEnds :
      ∀ c more, fraction ++ (exponent ++ rest) = c :: more → isdigit c = false := by
    intro c more starts
    rcases fractionPart with rfl | ⟨digits, rfl, _⟩
    · exact (exponentEnds c more starts).1
    · rw [List.cons_append, List.cons.injEq] at starts
      rw [← starts.1]
      decide
  have signScan : scanSign (sign ++ (int ++ (fraction ++ (exponent ++ rest)))) =
      (sign, int ++ (fraction ++ (exponent ++ rest))) := by
    rcases number.signed with rfl | rfl
    · have notMinus : d ≠ '-' := by
        rintro rfl
        exact absurd digit (by decide)
      rw [List.nil_append, intText, List.cons_append]
      unfold scanSign
      split
      · rename_i more starts
        exact absurd (List.cons.inj starts).1 notMinus
      · rfl
    · rfl
  unfold scanNumber
  simp only [List.append_assoc]
  rw [signScan]
  dsimp only
  rw [span_isdigit_append allDigits fractionEnds]
  dsimp only
  rw [scanFraction_fractionPart fractionPart exponentEnds]
  dsimp only
  rw [scanExponent_exponentText number.exponent ends]

theorem parseNumber_numberText {sign int fraction exponent rest : List Char} {value : ℚ}
    (number : NumberText sign int fraction exponent)
    (rounded : NumberFormat.stod (sign ++ int ++ fraction ++ exponent) = some value)
    (ends : NumberEnds rest) :
    parseNumber (sign ++ int ++ fraction ++ exponent ++ rest) = .ok (.number value, rest) := by
  unfold parseNumber
  rw [scanNumber_numberText number ends]
  dsimp only
  rw [rounded]

/-! ## The loops, one member or element at a time -/

section Loops

variable {size g : Nat} {keyRest key afterKey afterColon afterValue rest : List Char}
  {value : Json}

theorem parseMembers_close (read : List (List Char × Json))
    (keyRead : parseString ('"' :: keyRest) = .ok (key, afterKey))
    (colon : skipSpaces afterKey = ':' :: afterColon)
    (parsed : parseValue size g (skipSpaces afterColon) = .ok (value, afterValue))
    (closes : skipSpaces afterValue = '}' :: rest) :
    parseMembers size (g + 1) read ('"' :: keyRest) =
      .ok (.object (read ++ [(key, value)]), rest) := by
  rw [parseMembers, skipSpaces_of_not_space (by decide)]
  simp [keyRead, colon, parsed, closes]

theorem parseMembers_comma (read : List (List Char × Json))
    (keyRead : parseString ('"' :: keyRest) = .ok (key, afterKey))
    (colon : skipSpaces afterKey = ':' :: afterColon)
    (parsed : parseValue size g (skipSpaces afterColon) = .ok (value, afterValue))
    (comma : skipSpaces afterValue = ',' :: rest) :
    parseMembers size (g + 1) read ('"' :: keyRest) =
      parseMembers size g (read ++ [(key, value)]) rest := by
  rw [parseMembers, skipSpaces_of_not_space (by decide)]
  simp [keyRead, colon, parsed, comma]

end Loops

theorem skipSpaces_colon {afterKey : List Char} (blank : Blank afterKey) (more : List Char) :
    skipSpaces (afterKey ++ ':' :: more) = ':' :: more := by
  rw [skipSpaces_blank_append blank, skipSpaces_of_not_space (by decide)]

theorem skipSpaces_separator {after : List Char} (blank : Blank after) {c : Char}
    (closes : c = ',' ∨ c = '}' ∨ c = ']') (more : List Char) :
    skipSpaces (after ++ c :: more) = c :: more := by
  rw [skipSpaces_blank_append blank]
  rcases closes with rfl | rfl | rfl <;> rfl

theorem skipSpaces_membersText_head {body : List Char} {members : List (List Char × Json)}
    (derived : MembersText body members) (tail : List Char) :
    ∃ more, skipSpaces (body ++ tail) = '"' :: more := by
  have first : ∀ {text : List Char} {member : List Char × Json}, MemberText text member →
      ∀ tail, ∃ more, skipSpaces (text ++ tail) = '"' :: more := by
    intro text member derived tail
    cases derived with
    | mk blank =>
        rw [List.append_assoc, skipSpaces_blank_append blank, List.cons_append,
          skipSpaces_of_not_space (by decide)]
        exact ⟨_, rfl⟩
  cases derived with
  | last member => exact first member tail
  | cons member _ =>
      rw [List.append_assoc]
      exact first member _

theorem skipSpaces_elementsText_head {body : List Char} {values : List Json}
    (derived : ElementsText body values) (tail : List Char) :
    ∃ c more, skipSpaces (body ++ tail) = c :: more ∧ ValueHead c := by
  have first : ∀ {text : List Char} {value : Json}, ElementText text value →
      ∀ tail, ∃ c more, skipSpaces (text ++ tail) = c :: more ∧ ValueHead c := by
    intro text value derived tail
    cases derived with
    | mk blank derived _ =>
        obtain ⟨c, more, starts, head⟩ := derived.head
        rw [List.append_assoc, List.append_assoc, skipSpaces_element blank derived, starts,
          List.cons_append]
        exact ⟨c, _, rfl, head⟩
  cases derived with
  | last element => exact first element tail
  | cons element _ =>
      rw [List.append_assoc]
      exact first element _

/-! ## Every document is read -/

mutual
theorem parseValue_of_valueText : ∀ {text : List Char} {value : Json}, ValueText text value →
    ∀ (size fuel : Nat) (rest : List Char), NumberEnds rest → 3 * text.length < fuel →
      parseValue size fuel (text ++ rest) = .ok (value, rest)
  | _, _, _, _, 0, _, _, bound => absurd bound (Nat.not_lt_zero _)
  | _, _, @ValueText.object body _ members, size, fuel + 1, rest, _, bound => by
      simp only [List.length_cons, List.length_append] at bound
      obtain ⟨g, rfl⟩ : ∃ g, fuel = g + 1 := ⟨fuel - 1, by omega⟩
      have notClose : ∀ more, skipSpaces (body ++ '}' :: rest) ≠ '}' :: more := by
        intro more closed
        obtain ⟨after, opens⟩ := skipSpaces_membersText_head members ('}' :: rest)
        rw [opens, List.cons.injEq] at closed
        exact absurd closed.1 (by decide)
      rw [List.cons_append, List.append_assoc, List.singleton_append, parseValue_brace,
        parseObject_of_notClose size g notClose, parseMembers_skipSpaces,
        parseMembers_of_membersText members size g [] rest (by omega), List.nil_append]
  | _, _, .emptyObject blank, size, fuel + 1, rest, _, bound => by
      simp only [List.length_cons, List.length_append] at bound
      obtain ⟨g, rfl⟩ : ∃ g, fuel = g + 1 := ⟨fuel - 1, by omega⟩
      rw [List.cons_append, List.append_assoc, List.singleton_append, parseValue_brace,
        parseObject_closed size g (skipSpaces_separator blank (.inr (.inl rfl)) rest)]
  | _, _, @ValueText.array body _ elements, size, fuel + 1, rest, _, bound => by
      simp only [List.length_cons, List.length_append] at bound
      obtain ⟨g, rfl⟩ : ∃ g, fuel = g + 1 := ⟨fuel - 1, by omega⟩
      have notClose : ∀ more, skipSpaces (body ++ ']' :: rest) ≠ ']' :: more := by
        intro more closed
        obtain ⟨c, after, opens, head⟩ := skipSpaces_elementsText_head elements (']' :: rest)
        rw [opens, List.cons.injEq] at closed
        exact head.ne_close closed.1
      rw [List.cons_append, List.append_assoc, List.singleton_append, parseValue_bracket,
        parseArray_of_notClose size g notClose, parseElements_skipSpaces,
        parseElements_of_elementsText elements size g [] rest (by omega), List.nil_append]
  | _, _, .emptyArray blank, size, fuel + 1, rest, _, bound => by
      simp only [List.length_cons, List.length_append] at bound
      obtain ⟨g, rfl⟩ : ∃ g, fuel = g + 1 := ⟨fuel - 1, by omega⟩
      rw [List.cons_append, List.append_assoc, List.singleton_append, parseValue_bracket,
        parseArray_closed size g (skipSpaces_separator blank (.inr (.inr rfl)) rest)]
  | _, _, .string body, size, fuel + 1, rest, _, _ => by
      rw [List.cons_append, List.append_assoc, List.singleton_append, parseValue_quote,
        parseString_stringBody body]
      rfl
  | _, _, .number number rounded, size, fuel + 1, rest, ends, _ => by
      obtain ⟨c, more, starts, head⟩ := number.head
      rw [starts, List.cons_append, parseValue_numberHead head, ← List.cons_append, ← starts,
        parseNumber_numberText number rounded ends]
  | _, _, .true, size, fuel + 1, rest, _, _ => rfl
  | _, _, .false, size, fuel + 1, rest, _, _ => rfl
  | _, _, .null, size, fuel + 1, rest, _, _ => parseValue_nullText size fuel rest

theorem parseMembers_of_membersText : ∀ {body : List Char} {members : List (List Char × Json)},
    MembersText body members →
    ∀ (size fuel : Nat) (read : List (List Char × Json)) (rest : List Char),
      3 * body.length + 1 < fuel →
      parseMembers size fuel read (body ++ '}' :: rest) = .ok (.object (read ++ members), rest)
  | _, _, _, _, 0, _, _, bound => absurd bound (Nat.not_lt_zero _)
  | _, _, .last (@MemberText.mk _ _ _ _ _ _ after _ blankBefore key blankKey blankColon derived
        blankAfter), size, fuel + 1, read, rest, bound => by
      simp only [List.length_append, List.length_cons] at bound
      have parsed := parseValue_of_valueText derived size fuel (after ++ '}' :: rest)
        (numberEnds_blank_append blankAfter (numberEnds_cons (.inr (.inl rfl)) rest))
        (by omega)
      rw [← skipSpaces_element blankColon derived] at parsed
      simp only [List.append_assoc, List.cons_append]
      rw [← parseMembers_skipSpaces, skipSpaces_blank_append blankBefore, parseMembers_skipSpaces,
        parseMembers_close read (parseString_stringBody key _) (skipSpaces_colon blankKey _)
          parsed (skipSpaces_separator blankAfter (.inr (.inl rfl)) rest)]
  | _, _, @MembersText.cons _ later _ _ (@MemberText.mk _ _ _ _ _ _ after _ blankBefore key
        blankKey blankColon derived blankAfter) more, size, fuel + 1, read, rest, bound => by
      simp only [List.length_append, List.length_cons] at bound
      have parsed := parseValue_of_valueText derived size fuel
        (after ++ ',' :: (later ++ '}' :: rest))
        (numberEnds_blank_append blankAfter (numberEnds_cons (.inl rfl) _)) (by omega)
      rw [← skipSpaces_element blankColon derived] at parsed
      simp only [List.append_assoc, List.cons_append]
      rw [← parseMembers_skipSpaces, skipSpaces_blank_append blankBefore, parseMembers_skipSpaces,
        parseMembers_comma read (parseString_stringBody key _) (skipSpaces_colon blankKey _)
          parsed (skipSpaces_separator blankAfter (.inl rfl) _),
        parseMembers_of_membersText more size fuel _ rest (by omega), List.append_assoc,
        List.singleton_append]

theorem parseElements_of_elementsText : ∀ {body : List Char} {values : List Json},
    ElementsText body values →
    ∀ (size fuel : Nat) (read : List (Option Json)) (rest : List Char),
      3 * body.length + 1 < fuel →
      parseElements size fuel read (body ++ ']' :: rest) =
        .ok (.array (read ++ values.map some), rest)
  | _, _, _, _, 0, _, _, bound => absurd bound (Nat.not_lt_zero _)
  | _, _, .last (@ElementText.mk _ _ after _ blankBefore derived blankAfter), size, fuel + 1,
      read, rest, bound => by
      simp only [List.length_append] at bound
      have parsed := parseValue_of_valueText derived size fuel (after ++ ']' :: rest)
        (numberEnds_blank_append blankAfter (numberEnds_cons (.inr (.inr rfl)) rest))
        (by omega)
      rw [← skipSpaces_element blankBefore derived] at parsed
      simp only [List.append_assoc]
      rw [parseElements_last read parsed (skipSpaces_separator blankAfter (.inr (.inr rfl)) rest)]
      rfl
  | _, _, @ElementsText.cons _ later _ _ (@ElementText.mk _ _ after _ blankBefore derived
        blankAfter) more, size, fuel + 1, read, rest, bound => by
      simp only [List.length_append, List.length_cons] at bound
      have parsed := parseValue_of_valueText derived size fuel
        (after ++ ',' :: (later ++ ']' :: rest))
        (numberEnds_blank_append blankAfter (numberEnds_cons (.inl rfl) _)) (by omega)
      rw [← skipSpaces_element blankBefore derived] at parsed
      simp only [List.append_assoc, List.cons_append]
      rw [parseElements_next read parsed (skipSpaces_separator blankAfter (.inl rfl) _),
        parseElements_of_elementsText more size fuel _ rest (by omega)]
      simp
end

/-- `JsonParser::parse` reads every JSON document as the tree it stands for: any blanks between
tokens, string literals with any escape but `\u`, numbers with an integer part, fraction and
exponent as the grammar has them and a `double` to round to, and objects and arrays of any depth,
duplicate keys kept in order. -/
theorem parse_jsonText {text : List Char} {value : Json} (document : JsonText text value) :
    parse text = .ok value := by
  have element : ElementText text value := document
  cases element with
  | @mk before body after _ blankBefore derived blankAfter =>
      have ends : NumberEnds after := by
        simpa only [List.append_nil] using numberEnds_blank_append blankAfter numberEnds_nil
      have finished : skipSpaces after = [] := by
        simpa only [List.append_nil, skipSpaces] using skipSpaces_blank_append blankAfter []
      have read := parseValue_of_valueText derived (before ++ body ++ after).length
        (fuelFor (before ++ body ++ after)) after ends
        (by simp only [fuelFor, List.length_append]; omega)
      unfold parse
      rw [List.append_assoc, skipSpaces_element blankBefore derived, ← List.append_assoc, read]
      simp only [finished, if_true]

/-- The document `main.cpp` parses, `{"x":1,"y":[true, false, "hi"]}`, with a blank before two of
its elements. -/
theorem parse_jsonText_main :
    JsonText "\x7b\"x\":1,\"y\":[true, false, \"hi\"]\x7d".toList
        (.object [("x".toList, .number 1), ("y".toList, .array [some (.boolean true),
          some (.boolean false), some (.string "hi".toList)])]) ∧
      parse "\x7b\"x\":1,\"y\":[true, false, \"hi\"]\x7d".toList =
        .ok (.object [("x".toList, .number 1), ("y".toList, .array [some (.boolean true),
          some (.boolean false), some (.string "hi".toList)])]) := by
  have plain : ∀ c, c ≠ '"' → c ≠ '\\' → 32 ≤ c.toNat → StringChar [c] c :=
    fun c notQuote notEscape printable => .unescaped c notQuote notEscape printable
  have space : Blank [' '] := by decide
  have one : ValueText ['1'] (.number 1) :=
    @ValueText.number [] ['1'] [] [] 1
      ⟨.inl rfl,
        .inr ⟨'1', [], rfl, rfl, by decide, fun _ absent => absurd absent List.not_mem_nil⟩,
        .inl rfl, .inl rfl⟩ (by decide +kernel)
  have array : ValueText "[true, false, \"hi\"]".toList
      (.array [some (.boolean true), some (.boolean false), some (.string "hi".toList)]) :=
    .array (.cons (.mk blank_nil .true blank_nil) (.cons (.mk space .false blank_nil)
      (.last (.mk space (.string (.cons (plain 'h' (by decide) (by decide) (by decide))
        (.cons (plain 'i' (by decide) (by decide) (by decide)) .nil))) blank_nil))))
  have document : JsonText "\x7b\"x\":1,\"y\":[true, false, \"hi\"]\x7d".toList
      (.object [("x".toList, .number 1), ("y".toList, .array [some (.boolean true),
        some (.boolean false), some (.string "hi".toList)])]) :=
    .mk blank_nil (.object (.cons
      (.mk blank_nil (.cons (plain 'x' (by decide) (by decide) (by decide)) .nil) blank_nil
        blank_nil one blank_nil)
      (.last (.mk blank_nil (.cons (plain 'y' (by decide) (by decide) (by decide)) .nil) blank_nil
        blank_nil array blank_nil)))) blank_nil
  exact ⟨document, parse_jsonText document⟩

/-! ## What the grammar leaves out -/

/-- A number for which `std::stod` sets `ERANGE` (an overflow, or an inexact result that is still
tiny after rounding) is rejected, wherever it stands between blanks. -/
theorem parse_number_out_of_range {before sign int fraction exponent after : List Char}
    (blankBefore : Blank before) (number : NumberText sign int fraction exponent)
    (noDouble : NumberFormat.stod (sign ++ int ++ fraction ++ exponent) = none)
    (blankAfter : Blank after) :
    parse (before ++ (sign ++ int ++ fraction ++ exponent) ++ after) = .error "Invalid number" := by
  obtain ⟨c, more, starts, head⟩ := number.head
  have ends : NumberEnds after := by
    simpa only [List.append_nil] using numberEnds_blank_append blankAfter numberEnds_nil
  have rejected : parseNumber (sign ++ int ++ fraction ++ exponent ++ after) =
      .error "Invalid number" := by
    unfold parseNumber
    rw [scanNumber_numberText number ends]
    dsimp only
    rw [noDouble]
  have fuel : ∃ g, fuelFor (before ++ (sign ++ int ++ fraction ++ exponent) ++ after) = g + 1 :=
    ⟨_, rfl⟩
  obtain ⟨g, fuelIs⟩ := fuel
  unfold parse
  rw [fuelIs, List.append_assoc, skipSpaces_blank_append blankBefore, starts, List.cons_append,
    skipSpaces_of_not_space (isspace_of_numberHead head), parseValue_numberHead head,
    ← List.cons_append, ← starts, rejected]

example : parse "1e400".toList = .error "Invalid number" := by decide +kernel

example : parse "4.9e-324".toList = .error "Invalid number" := by decide +kernel

theorem parse_unicode_escape (hex : List Char) (plain : ∀ c ∈ hex, c ≠ '"' ∧ c ≠ '\\') :
    parse ('"' :: '\\' :: 'u' :: (hex ++ ['"'])) = .ok (.string ('u' :: hex)) := by
  have read : parseStringFrom [] ('\\' :: 'u' :: (hex ++ ['"'])) = .ok ('u' :: hex, []) := by
    rw [parseStringFrom.eq_def]
    dsimp only
    rw [if_neg (by decide), if_pos rfl, parseStringFrom_append_plain _ hex ['"'] plain,
      parseStringFrom.eq_def]
    rfl
  have fuel : ∃ g, fuelFor ('"' :: '\\' :: 'u' :: (hex ++ ['"'])) = g + 1 := ⟨_, rfl⟩
  obtain ⟨g, fuelIs⟩ := fuel
  unfold parse
  rw [skipSpaces_of_not_space (by decide), fuelIs, parseValue_quote, parseString,
    List.tail_cons, read]
  rfl

example : parse "\"\\u0041\"".toList = .ok (.string "u0041".toList) := by decide +kernel

end JsonParser

end HighSpeed
