import HighSpeed.Json.Core

/-!
Progress of `JsonParser`: every helper that returns has moved `pos` past at least the character
that selected it, and the fuel `parse` gives the descent is never used up, so the fuel-bounded
model computes what the unbounded recursion of the source computes.
-/

namespace HighSpeed

namespace JsonParser

theorem suffix_tail_of_suffix {left right : List Char} (suffix : left <:+ right) :
    left.tail <:+ right.tail := by
  obtain ⟨front, rfl⟩ := suffix
  cases front with
  | nil => exact List.suffix_refl _
  | cons c front =>
      exact (List.tail_suffix left).trans (List.suffix_append front left)

theorem rest_eq_of_ok {α : Type} {a b : α} {kept rest : List Char}
    (parsed : (Except.ok (a, kept) : Except String (α × List Char)) = .ok (b, rest)) :
    rest = kept :=
  (congrArg Prod.snd (Except.ok.inj parsed)).symm

theorem skipSpaces_suffix (json : List Char) : skipSpaces json <:+ json := by
  induction json with
  | nil => exact List.suffix_refl _
  | cons c rest ih =>
      unfold skipSpaces
      split
      · exact ih.trans (List.suffix_cons c rest)
      · exact List.suffix_refl _

theorem skipSpaces_tail_suffix (json : List Char) : (skipSpaces json).tail <:+ json.tail :=
  suffix_tail_of_suffix (skipSpaces_suffix json)

theorem parseStringFrom_suffix {out json value rest : List Char}
    (parsed : parseStringFrom out json = .ok (value, rest)) : rest <:+ json := by
  fun_induction parseStringFrom out json with
  | case1 =>
      obtain rfl := rest_eq_of_ok parsed
      exact List.suffix_refl _
  | case2 out more =>
      rw [rest_eq_of_ok parsed]
      exact List.suffix_cons _ more
  | case3 => cases parsed
  | case4 out esc after _ ih =>
      exact ((ih parsed).trans (List.suffix_cons esc after)).trans (List.suffix_cons _ _)
  | case5 out c more _ _ ih => exact (ih parsed).trans (List.suffix_cons c more)

theorem parseString_advances {json value rest : List Char}
    (parsed : parseString json = .ok (value, rest)) : rest <:+ json.tail :=
  parseStringFrom_suffix parsed

/-! ## The scanners of `parseNumber` -/

theorem span_append (json : List Char) :
    (json.span isdigit).1 ++ (json.span isdigit).2 = json := by
  rw [List.span_eq_takeWhile_dropWhile, List.takeWhile_append_dropWhile]

theorem scanSign_append (json : List Char) : (scanSign json).1 ++ (scanSign json).2 = json := by
  unfold scanSign
  split <;> rfl

theorem scanFraction_append (json : List Char) :
    (scanFraction json).1 ++ (scanFraction json).2 = json := by
  unfold scanFraction
  split
  · rw [List.cons_append, span_append]
  · rfl

theorem scanExponent_append (json : List Char) :
    (scanExponent json).1 ++ (scanExponent json).2 = json := by
  have signed : ∀ rest : List Char,
      (scanExponentSign rest).1 ++ (scanExponentSign rest).2 = rest := by
    intro rest
    unfold scanExponentSign
    split
    · split <;> rfl
    · rfl
  unfold scanExponent
  split
  · split
    · rename_i e rest _
      simp only [List.cons_append, List.append_assoc, span_append, signed]
    · rfl
  · rfl

theorem scanNumber_append (json : List Char) :
    (scanNumber json).1 ++ (scanNumber json).2 = json := by
  simp only [scanNumber, List.append_assoc, scanExponent_append, scanFraction_append, span_append,
    scanSign_append]

theorem scanNumber_advances {c : Char} {t : List Char} (selects : c = '-' ∨ isdigit c = true) :
    (scanNumber (c :: t)).2 <:+ t := by
  have taken : (scanNumber (c :: t)).1 ≠ [] := by
    by_cases minus : c = '-'
    · subst minus
      simp [scanNumber, scanSign]
    · have digit : isdigit c = true := selects.resolve_left minus
      have unsigned : scanSign (c :: t) = ([], c :: t) := by
        unfold scanSign
        split
        · rename_i sameHead
          simp only [List.cons.injEq] at sameHead
          exact absurd sameHead.1 minus
        · rfl
      simp [scanNumber, unsigned, List.span_eq_takeWhile_dropWhile, digit]
  obtain ⟨first, text, scanned⟩ := List.exists_cons_of_ne_nil taken
  have whole := scanNumber_append (c :: t)
  rw [scanned] at whole
  generalize (scanNumber (c :: t)).2 = rest at whole ⊢
  rw [List.cons_append, List.cons.injEq] at whole
  rw [← whole.2]
  exact List.suffix_append text rest

theorem parseNumber_advances {c : Char} {t : List Char} {value : Json} {rest : List Char}
    (selects : c = '-' ∨ isdigit c = true) (parsed : parseNumber (c :: t) = .ok (value, rest)) :
    rest <:+ t := by
  unfold parseNumber at parsed
  split at parsed
  rename_i text after scanned
  have advanced : (scanNumber (c :: t)).2 <:+ t := scanNumber_advances selects
  rw [scanned] at advanced
  split at parsed
  · rw [rest_eq_of_ok parsed]
    exact advanced
  · cases parsed

theorem rest_suffix_of_skipSpaces {json rest : List Char} {c : Char}
    (skipped : skipSpaces json = c :: rest) : rest <:+ json :=
  (List.suffix_cons c rest).trans (skipped ▸ skipSpaces_suffix json)

theorem skipSpaces_tail_suffix_self (json : List Char) : (skipSpaces json).tail <:+ json :=
  (List.tail_suffix _).trans (skipSpaces_suffix json)

/-! ## The literals -/

theorem drop_succ_suffix_tail (json : List Char) (count : Nat) :
    json.drop (count + 1) <:+ json.tail := by
  cases json with
  | nil => exact List.suffix_refl _
  | cons c rest => exact List.drop_suffix count rest

theorem parseBoolean_advances {json : List Char} {value : Json} {rest : List Char}
    (parsed : parseBoolean json = .ok (value, rest)) : rest <:+ json.tail := by
  unfold parseBoolean at parsed
  split at parsed
  · rw [rest_eq_of_ok parsed]
    exact drop_succ_suffix_tail json 3
  · split at parsed
    · rw [rest_eq_of_ok parsed]
      exact drop_succ_suffix_tail json 4
    · cases parsed

theorem parseNull_advances {json : List Char} {value : Json} {rest : List Char}
    (parsed : parseNull json = .ok (value, rest)) : rest <:+ json.tail := by
  unfold parseNull at parsed
  split at parsed
  · rw [rest_eq_of_ok parsed]
    exact drop_succ_suffix_tail json 3
  · cases parsed

/-! ## The descent -/

theorem descent_advances (size fuel : Nat) :
    (∀ json value rest, parseValue size fuel json = .ok (value, rest) →
      rest <:+ (skipSpaces json).tail) ∧
    (∀ json value rest, parseObject size fuel json = .ok (value, rest) → rest <:+ json.tail) ∧
    (∀ members json value rest, parseMembers size fuel members json = .ok (value, rest) →
      rest <:+ (skipSpaces json).tail) ∧
    (∀ json value rest, parseArray size fuel json = .ok (value, rest) → rest <:+ json.tail) ∧
    (∀ elements json value rest, parseElements size fuel elements json = .ok (value, rest) →
      rest <:+ (skipSpaces json).tail) := by
  induction fuel with
  | zero =>
      refine ⟨?_, ?_, ?_, ?_, ?_⟩ <;> intros <;> simp_all [parseValue, parseObject, parseMembers,
        parseArray, parseElements]
  | succ fuel ih =>
      obtain ⟨valueAdvances, objectAdvances, membersAdvances, arrayAdvances, elementsAdvances⟩ := ih
      refine ⟨?value, ?object, ?members, ?array, ?elements⟩
      case value =>
        intro json value rest parsed
        rw [parseValue] at parsed
        split at parsed
        · cases parsed
        · rename_i c more skipped
          rw [skipped]
          split at parsed
          · exact objectAdvances _ _ _ parsed
          · split at parsed
            · exact arrayAdvances _ _ _ parsed
            · split at parsed
              · cases string : parseString (c :: more) with
                | error message => simp [string, Except.map] at parsed
                | ok read =>
                    simp only [string, Except.map] at parsed
                    rw [rest_eq_of_ok parsed]
                    exact parseString_advances string
              · split at parsed
                · exact parseBoolean_advances parsed
                · split at parsed
                  · exact parseNull_advances parsed
                  · split at parsed
                    · rename_i selects
                      exact parseNumber_advances selects parsed
                    · cases parsed
      case object =>
        intro json value rest parsed
        rw [parseObject] at parsed
        split at parsed
        · rename_i after closed
          rw [rest_eq_of_ok parsed]
          exact rest_suffix_of_skipSpaces closed
        · exact (membersAdvances [] _ value rest parsed).trans
            ((skipSpaces_tail_suffix_self _).trans (skipSpaces_suffix _))
      case members =>
        intro members json value rest parsed
        rw [parseMembers] at parsed
        split at parsed
        · rename_i keyRest skipped
          rw [skipped, List.tail_cons]
          split at parsed
          · cases parsed
          · rename_i key afterKey keyRead
            have keyAdvances : afterKey <:+ keyRest := parseString_advances keyRead
            split at parsed
            · rename_i afterColon colon
              have colonAdvances := rest_suffix_of_skipSpaces colon
              split at parsed
              · cases parsed
              · rename_i member afterValue valueRead
                have valueInside : afterValue <:+ keyRest :=
                  (((valueAdvances _ _ _ valueRead).trans (skipSpaces_tail_suffix_self _)).trans
                    (skipSpaces_suffix _)).trans (colonAdvances.trans keyAdvances)
                split at parsed
                · cases parsed
                · rename_i after closed
                  rw [rest_eq_of_ok parsed]
                  exact (rest_suffix_of_skipSpaces closed).trans valueInside
                · rename_i after comma
                  exact ((membersAdvances _ _ _ _ parsed).trans (skipSpaces_tail_suffix_self _)).trans
                    ((rest_suffix_of_skipSpaces comma).trans valueInside)
                · cases parsed
            · cases parsed
        · cases parsed
      case array =>
        intro json value rest parsed
        rw [parseArray] at parsed
        split at parsed
        · rename_i after closed
          rw [rest_eq_of_ok parsed]
          exact rest_suffix_of_skipSpaces closed
        · exact (elementsAdvances [] _ value rest parsed).trans
            ((skipSpaces_tail_suffix_self _).trans (skipSpaces_suffix _))
      case elements =>
        intro elements json value rest parsed
        rw [parseElements] at parsed
        split at parsed
        · cases parsed
        · rename_i element afterValue valueRead
          have valueInside : afterValue <:+ (skipSpaces json).tail :=
            (valueAdvances _ _ _ valueRead).trans
              (suffix_tail_of_suffix (skipSpaces_suffix (skipSpaces json)))
          split at parsed
          · cases parsed
          · rename_i after closed
            rw [rest_eq_of_ok parsed]
            exact (rest_suffix_of_skipSpaces closed).trans valueInside
          · rename_i after comma
            exact ((elementsAdvances _ _ _ _ parsed).trans (skipSpaces_tail_suffix_self _)).trans
              ((rest_suffix_of_skipSpaces comma).trans valueInside)
          · cases parsed

/-! ## The fuel of `parse` is never used up -/

theorem error_ne_outOfFuel {α : Type} {message : String} (different : message ≠ outOfFuel) :
    (Except.error message : Except String α) ≠ .error outOfFuel :=
  fun same => different (Except.error.inj same)

theorem parseStringFrom_fueled (out json : List Char) :
    parseStringFrom out json ≠ .error outOfFuel := by
  fun_induction parseStringFrom out json with
  | case1 => exact fun same => by cases same
  | case2 => exact fun same => by cases same
  | case3 => exact error_ne_outOfFuel (by decide)
  | case4 _ _ _ _ ih => exact ih
  | case5 _ _ _ _ _ ih => exact ih

theorem parseString_fueled (json : List Char) : parseString json ≠ .error outOfFuel :=
  parseStringFrom_fueled [] json.tail

theorem error_ne_of_fueled {α β : Type} {result : Except String α} {message : String}
    (fueled : result ≠ .error outOfFuel) (failed : result = .error message) :
    (Except.error message : Except String β) ≠ .error outOfFuel :=
  error_ne_outOfFuel fun same => fueled (by rw [failed, same])

theorem parseNumber_fueled (json : List Char) : parseNumber json ≠ .error outOfFuel := by
  unfold parseNumber
  split
  split
  · exact fun same => by cases same
  · exact error_ne_outOfFuel (by decide)

theorem parseBoolean_fueled (json : List Char) : parseBoolean json ≠ .error outOfFuel := by
  unfold parseBoolean
  split
  · exact fun same => by cases same
  · split
    · exact fun same => by cases same
    · exact error_ne_outOfFuel (by decide)

theorem parseNull_fueled (json : List Char) : parseNull json ≠ .error outOfFuel := by
  unfold parseNull
  split
  · exact fun same => by cases same
  · exact error_ne_outOfFuel (by decide)

theorem invalidValue_ne_outOfFuel (position : String) :
    "Invalid JSON value at pos " ++ position ≠ outOfFuel := by
  intro same
  have firstCharacter := congrArg (fun text : String => text.toList.head?) same
  simp [outOfFuel] at firstCharacter

theorem length_lt_of_skipSpaces {json rest : List Char} {c : Char}
    (skipped : skipSpaces json = c :: rest) : rest.length < json.length := by
  have := (skipSpaces_suffix json).length_le
  rw [skipped, List.length_cons] at this
  omega

theorem descent_has_fuel (size fuel : Nat) :
    (∀ json, 3 * json.length + 1 ≤ fuel → parseValue size fuel json ≠ .error outOfFuel) ∧
    (∀ c t, 3 * (t.length + 1) ≤ fuel → parseObject size fuel (c :: t) ≠ .error outOfFuel) ∧
    (∀ members json, 3 * json.length + 2 ≤ fuel →
      parseMembers size fuel members json ≠ .error outOfFuel) ∧
    (∀ c t, 3 * (t.length + 1) ≤ fuel → parseArray size fuel (c :: t) ≠ .error outOfFuel) ∧
    (∀ elements json, 3 * json.length + 2 ≤ fuel →
      parseElements size fuel elements json ≠ .error outOfFuel) := by
  induction fuel with
  | zero => refine ⟨?_, ?_, ?_, ?_, ?_⟩ <;> intros <;> omega
  | succ fuel ih =>
      obtain ⟨valueFueled, objectFueled, membersFueled, arrayFueled, elementsFueled⟩ := ih
      refine ⟨?value, ?object, ?members, ?array, ?elements⟩
      case value =>
        intro json bound
        rw [parseValue]
        split
        · exact error_ne_outOfFuel (by decide)
        · rename_i c more skipped
          have shorter := length_lt_of_skipSpaces skipped
          have containerBound : 3 * (more.length + 1) ≤ fuel := by omega
          split
          · exact objectFueled c more containerBound
          · split
            · exact arrayFueled c more containerBound
            · split
              · cases string : parseString (c :: more) with
                | error message =>
                    simpa only [Except.map] using
                      error_ne_of_fueled (parseString_fueled _) string
                | ok read => exact fun same => by cases same
              · split
                · exact parseBoolean_fueled _
                · split
                  · exact parseNull_fueled _
                  · split
                    · exact parseNumber_fueled _
                    · exact error_ne_outOfFuel (invalidValue_ne_outOfFuel _)
      case object =>
        intro c t bound
        rw [parseObject]
        split
        · exact fun same => by cases same
        · have skipped := (skipSpaces_suffix t).length_le
          exact membersFueled [] _ (by simp only [List.tail_cons]; omega)
      case members =>
        intro members json bound
        rw [parseMembers]
        split
        · rename_i keyRest skipped
          have keyShorter := length_lt_of_skipSpaces skipped
          split
          · rename_i message keyFailed
            exact error_ne_of_fueled (parseString_fueled _) keyFailed
          · rename_i key afterKey keyRead
            have keyAdvances := (parseString_advances keyRead).length_le
            split
            · rename_i afterColon colon
              have colonShorter := length_lt_of_skipSpaces colon
              have valueStart := (skipSpaces_suffix afterColon).length_le
              have valueFuel := valueFueled (skipSpaces afterColon) (by simp at keyAdvances; omega)
              split
              · rename_i message valueFailed
                exact error_ne_of_fueled valueFuel valueFailed
              · rename_i member afterValue valueRead
                have valueAdvances := (((descent_advances size fuel).1 _ _ _ valueRead).trans
                  (skipSpaces_tail_suffix_self _)).length_le
                split
                · exact error_ne_outOfFuel (by decide)
                · exact fun same => by cases same
                · rename_i rest comma
                  have restShorter := length_lt_of_skipSpaces comma
                  exact membersFueled _ rest (by simp at keyAdvances; omega)
                · exact error_ne_outOfFuel (by decide)
            · exact error_ne_outOfFuel (by decide)
        · exact error_ne_outOfFuel (by decide)
      case array =>
        intro c t bound
        rw [parseArray]
        split
        · exact fun same => by cases same
        · have skipped := (skipSpaces_suffix t).length_le
          exact elementsFueled [] _ (by simp only [List.tail_cons]; omega)
      case elements =>
        intro elements json bound
        rw [parseElements]
        have valueStart := (skipSpaces_suffix json).length_le
        have valueFuel := valueFueled (skipSpaces json) (by omega)
        split
        · rename_i message valueFailed
          exact error_ne_of_fueled valueFuel valueFailed
        · rename_i element afterValue valueRead
          have valueAdvances := (((descent_advances size fuel).1 _ _ _ valueRead).trans
            (skipSpaces_tail_suffix_self _)).length_le
          split
          · exact error_ne_outOfFuel (by decide)
          · exact fun same => by cases same
          · rename_i rest comma
            have restShorter := length_lt_of_skipSpaces comma
            exact elementsFueled _ rest (by omega)
          · exact error_ne_outOfFuel (by decide)

theorem parse_fueled (json : List Char) : parse json ≠ .error outOfFuel := by
  have start := (skipSpaces_suffix json).length_le
  have rootFuel := (descent_has_fuel json.length (fuelFor json)).1 (skipSpaces json)
    (by unfold fuelFor; omega)
  unfold parse
  split
  · rename_i message rootFailed
    exact error_ne_of_fueled rootFuel rootFailed
  · split
    · exact fun same => by cases same
    · exact error_ne_outOfFuel (by decide)

/-- Each helper, entered at a character `c` that selects it with `t` after it, either throws or
returns with what is left a suffix of `t`: the position moved past `c` and stayed within the
text. The fuel of `parse` is never used up, so `parse` ends on every input with the result of the
unbounded descent. -/
theorem parse_helpers_advance :
    (∀ (size fuel : Nat) (c : Char) (t : List Char) (value : Json) (rest : List Char),
      (parseValue size fuel (c :: t) = .ok (value, rest) → rest <:+ t) ∧
      (parseObject size fuel (c :: t) = .ok (value, rest) → rest <:+ t) ∧
      (parseArray size fuel (c :: t) = .ok (value, rest) → rest <:+ t) ∧
      (parseBoolean (c :: t) = .ok (value, rest) → rest <:+ t) ∧
      (parseNull (c :: t) = .ok (value, rest) → rest <:+ t) ∧
      (c = '-' ∨ isdigit c = true → parseNumber (c :: t) = .ok (value, rest) → rest <:+ t)) ∧
    (∀ (c : Char) (t text rest : List Char), parseString (c :: t) = .ok (text, rest) → rest <:+ t) ∧
    ∀ json, parse json ≠ .error outOfFuel := by
  refine ⟨fun size fuel c t value rest => ⟨?value, ?object, ?array, ?boolean, ?null, ?number⟩,
    fun c t text rest parsed => parseString_advances parsed, parse_fueled⟩
  case value =>
    intro parsed
    exact ((descent_advances size fuel).1 _ _ _ parsed).trans (skipSpaces_tail_suffix (c :: t))
  case object => exact (descent_advances size fuel).2.1 _ _ _
  case array => exact (descent_advances size fuel).2.2.2.1 _ _ _
  case boolean => exact parseBoolean_advances
  case null => exact parseNull_advances
  case number => exact fun selects => parseNumber_advances selects

end JsonParser

end HighSpeed
