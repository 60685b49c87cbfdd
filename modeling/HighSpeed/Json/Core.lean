import HighSpeed.Lib.NumberFormat

/-!
The JSON tree of `protocol/Json.hpp`, the compact printer `toString`, and `JsonParser`.
-/

namespace HighSpeed

/-- A node behind a `std::unique_ptr<JsonBase>`, one constructor per subclass. An array slot is
`none` where its `unique_ptr` is unset; a `JsonNumber` holds the exact value of a finite
`double`. -/
inductive Json where
  | object (members : List (List Char × Json))
  | array (elements : List (Option Json))
  | string (value : List Char)
  | number (value : ℚ)
  | boolean (value : Bool)
  | null
  deriving Repr, Inhabited

mutual
def Json.decEq : (left right : Json) → Decidable (left = right)
  | .object xs, .object ys =>
      match Json.decEqMembers xs ys with
      | isTrue same => isTrue (same ▸ rfl)
      | isFalse different => isFalse fun equal => different (Json.object.inj equal)
  | .array xs, .array ys =>
      match Json.decEqElements xs ys with
      | isTrue same => isTrue (same ▸ rfl)
      | isFalse different => isFalse fun equal => different (Json.array.inj equal)
  | .string x, .string y =>
      if same : x = y then isTrue (same ▸ rfl) else isFalse fun equal => same (Json.string.inj equal)
  | .number x, .number y =>
      if same : x = y then isTrue (same ▸ rfl) else isFalse fun equal => same (Json.number.inj equal)
  | .boolean x, .boolean y =>
      if same : x = y then isTrue (same ▸ rfl)
      else isFalse fun equal => same (Json.boolean.inj equal)
  | .null, .null => isTrue rfl
  | .object _, .array _ | .object _, .string _ | .object _, .number _ | .object _, .boolean _
  | .object _, .null | .array _, .object _ | .array _, .string _ | .array _, .number _
  | .array _, .boolean _ | .array _, .null | .string _, .object _ | .string _, .array _
  | .string _, .number _ | .string _, .boolean _ | .string _, .null | .number _, .object _
  | .number _, .array _ | .number _, .string _ | .number _, .boolean _ | .number _, .null
  | .boolean _, .object _ | .boolean _, .array _ | .boolean _, .string _ | .boolean _, .number _
  | .boolean _, .null | .null, .object _ | .null, .array _ | .null, .string _ | .null, .number _
  | .null, .boolean _ => isFalse fun equal => nomatch equal
def Json.decEqMembers : (xs ys : List (List Char × Json)) → Decidable (xs = ys)
  | [], [] => isTrue rfl
  | [], _ :: _ => isFalse fun equal => nomatch equal
  | _ :: _, [] => isFalse fun equal => nomatch equal
  | (key, value) :: xs, (key', value') :: ys =>
      if sameKey : key = key' then
        match Json.decEq value value', Json.decEqMembers xs ys with
        | isTrue sameValue, isTrue sameRest => isTrue (by rw [sameKey, sameValue, sameRest])
        | isFalse different, _ =>
            isFalse fun equal => different (by injection equal with head; injection head)
        | _, isFalse different => isFalse fun equal => different (by injection equal)
      else isFalse fun equal => sameKey (by injection equal with head; injection head)
def Json.decEqElements : (xs ys : List (Option Json)) → Decidable (xs = ys)
  | [], [] => isTrue rfl
  | [], _ :: _ => isFalse fun equal => nomatch equal
  | _ :: _, [] => isFalse fun equal => nomatch equal
  | none :: xs, none :: ys =>
      match Json.decEqElements xs ys with
      | isTrue same => isTrue (same ▸ rfl)
      | isFalse different => isFalse fun equal => different (by injection equal)
  | none :: _, some _ :: _ => isFalse fun equal => nomatch equal
  | some _ :: _, none :: _ => isFalse fun equal => nomatch equal
  | some x :: xs, some y :: ys =>
      match Json.decEq x y, Json.decEqElements xs ys with
      | isTrue sameHead, isTrue sameRest => isTrue (by rw [sameHead, sameRest])
      | isFalse different, _ =>
          isFalse fun equal => different (by injection equal with head; injection head)
      | _, isFalse different => isFalse fun equal => different (by injection equal)
end

instance : DecidableEq Json := Json.decEq

/-! ## The compact printer -/

/-- The escape `JsonString::toString` writes for one character. -/
def escapeChar : Char → List Char
  | '"' => ['\\', '"']
  | '\\' => ['\\', '\\']
  | '\n' => ['\\', 'n']
  | '\r' => ['\\', 'r']
  | '\t' => ['\\', 't']
  | c => [c]

section
@[local simp]
def JsonString.toString (value : List Char) : List Char :=
  '"' :: value.flatMap escapeChar ++ ['"']

@[local simp]
def JsonNumber.toString (value : ℚ) : List Char :=
  NumberFormat.formatGeneral 6 value

@[local simp]
def JsonBoolean.toString (value : Bool) : List Char :=
  if value then "true".toList else "false".toList

mutual
@[local simp]
def Json.toString : Json → List Char
  | .object members => '{' :: JsonObject.membersText true members ++ ['}']
  | .array elements => '[' :: JsonArray.elementsText true elements ++ [']']
  | .string value => JsonString.toString value
  | .number value => JsonNumber.toString value
  | .boolean value => JsonBoolean.toString value
  | .null => "null".toList
/-- The loop of `JsonObject::toString` from a member on; `first` is its flag. The key is pasted
between quotes as it is. -/
@[local simp]
def JsonObject.membersText : Bool → List (List Char × Json) → List Char
  | _, [] => []
  | first, (key, value) :: rest =>
      (if first then [] else [',']) ++ ('"' :: key ++ '"' :: ':' :: value.toString) ++
        JsonObject.membersText false rest
/-- The loop of `JsonArray::toString`; an unset slot prints as `null`. -/
def JsonArray.elementsText : Bool → List (Option Json) → List Char
  | _, [] => []
  | first, element :: rest =>
      (if first then [] else [',']) ++
        (match element with
          | some value => value.toString
          | none => "null".toList) ++
        JsonArray.elementsText false rest
end
end

/-! ## The indented printer -/

def pad (count : Nat) : List Char := List.replicate count ' '

section
mutual
/-- The text `dump(indent, depth)` prints from a depth `depth ≥ 0` when none of its `int` counts
overflows: scalars print as `toString`, and so does a container when `indent` is negative;
otherwise each member or element is on its own line, indented `(depth + 1) * indent` spaces. -/
@[local simp]
def Json.layout (indent : Int) (depth : Nat) : Json → List Char
  | .object members =>
      if indent < 0 then (Json.object members).toString
      else '{' :: '\n' :: JsonObject.membersLayout indent depth members ++
        pad (depth * indent.toNat) ++ ['}']
  | .array elements =>
      if indent < 0 then (Json.array elements).toString
      else '[' :: '\n' :: JsonArray.elementsLayout indent depth elements ++
        pad (depth * indent.toNat) ++ [']']
  | .string value => JsonString.toString value
  | .number value => JsonNumber.toString value
  | .boolean value => JsonBoolean.toString value
  | .null => "null".toList
@[local simp]
def JsonObject.membersLayout (indent : Int) (depth : Nat) :
    List (List Char × Json) → List Char
  | [] => []
  | (key, value) :: rest =>
      pad ((depth + 1) * indent.toNat) ++ '"' :: key ++ '"' :: ':' :: ' ' ::
        value.layout indent (depth + 1) ++ (if rest = [] then [] else [',']) ++ ['\n'] ++
        JsonObject.membersLayout indent depth rest
@[local simp]
def JsonArray.elementsLayout (indent : Int) (depth : Nat) : List (Option Json) → List Char
  | [] => []
  | element :: rest =>
      pad ((depth + 1) * indent.toNat) ++
        (match element with
          | some value => value.layout indent (depth + 1)
          | none => "null".toList) ++
        (if rest = [] then [] else [',']) ++ ['\n'] ++ JsonArray.elementsLayout indent depth rest
end
end

/-- `INT_MAX`: `dump` computes its counts in `int`. -/
def intMax : Int := 2147483647

/-- An `int` result; `none` where the operation overflows, which is undefined behaviour. -/
def intResult (value : Int) : Option Int :=
  if -2147483648 ≤ value ∧ value ≤ intMax then some value else none

/-- `std::string(count, ' ')` for an `int` count: a negative one converts to a `size_t` above
`max_size()`, and the constructor throws `std::length_error`. -/
def padOf (count : Int) : Option (List Char) :=
  if count < 0 then none else some (pad count.toNat)

section
mutual
/-- `dump(int indent, int depth)`: `none` where it throws or overflows. Each container computes
`depth * indent` and `(depth + 1) * indent`, and its children are dumped at `depth + 1`. -/
@[local simp]
def Json.dump (indent depth : Int) : Json → Option (List Char)
  | .object members =>
      if indent < 0 then some (Json.object members).toString
      else do
        let outer ← padOf (← intResult (depth * indent))
        let inner ← padOf (← intResult ((← intResult (depth + 1)) * indent))
        let body ← JsonObject.membersDump indent depth inner members
        pure ('{' :: '\n' :: body ++ outer ++ ['}'])
  | .array elements =>
      if indent < 0 then some (Json.array elements).toString
      else do
        let outer ← padOf (← intResult (depth * indent))
        let inner ← padOf (← intResult ((← intResult (depth + 1)) * indent))
        let body ← JsonArray.elementsDump indent depth inner elements
        pure ('[' :: '\n' :: body ++ outer ++ [']'])
  | .string value => some (JsonString.toString value)
  | .number value => some (JsonNumber.toString value)
  | .boolean value => some (JsonBoolean.toString value)
  | .null => some "null".toList
@[local simp]
def JsonObject.membersDump (indent depth : Int) (inner : List Char) :
    List (List Char × Json) → Option (List Char)
  | [] => some []
  | (key, value) :: rest => do
      let child ← (intResult (depth + 1)).bind fun next => value.dump indent next
      let tail ← JsonObject.membersDump indent depth inner rest
      pure (inner ++ '"' :: key ++ '"' :: ':' :: ' ' :: child ++
        (if rest = [] then [] else [',']) ++ ['\n'] ++ tail)
@[local simp]
def JsonArray.elementsDump (indent depth : Int) (inner : List Char) :
    List (Option Json) → Option (List Char)
  | [] => some []
  | element :: rest => do
      let child ← match element with
        | some value => (intResult (depth + 1)).bind fun next => value.dump indent next
        | none => some "null".toList
      let tail ← JsonArray.elementsDump indent depth inner rest
      pure (inner ++ child ++ (if rest = [] then [] else [',']) ++ ['\n'] ++ tail)
end
end

/-! ## The parser -/

namespace JsonParser

section
@[local simp]
def isspace (c : Char) : Bool :=
  c = ' ' || c = '\t' || c = '\n' || c = '\x0b' || c = '\x0c' || c = '\r'
end

def isdigit (c : Char) : Bool := NumberFormat.isDigit c

section
@[local simp]
def skipSpaces : List Char → List Char
  | c :: rest => if c.toNat != 0 && isspace c then skipSpaces rest else c :: rest
  | [] => []
end

def outOfFuel : String := "parser fuel exhausted"

def unescape : Char → Char
  | '"' => '"'
  | '\\' => '\\'
  | '/' => '/'
  | 'b' => '\x08'
  | 'f' => '\x0c'
  | 'n' => '\n'
  | 'r' => '\r'
  | 't' => '\t'
  | esc => esc

def parseStringFrom (out : List Char) : List Char → Except String (List Char × List Char)
  | [] => .ok (out, [])
  | c :: rest =>
      if c = '"' then .ok (out, rest)
      else if c = '\\' then
        match rest with
        | [] => .error "Bad escape in string"
        | esc :: rest => parseStringFrom (out ++ [unescape esc]) rest
      else parseStringFrom (out ++ [c]) rest

section
/-- `parseString` at the opening quote: the string value (the node's `asString()`) and the rest. -/
@[local simp]
def parseString (json : List Char) : Except String (List Char × List Char) :=
  parseStringFrom [] json.tail

@[local simp]
def scanSign : List Char → List Char × List Char
  | '-' :: rest => (['-'], rest)
  | json => ([], json)

@[local simp]
def scanFraction : List Char → List Char × List Char
  | '.' :: rest => ('.' :: (rest.span isdigit).1, (rest.span isdigit).2)
  | json => ([], json)

@[local simp]
def scanExponentSign : List Char → List Char × List Char
  | s :: rest => if s = '+' ∨ s = '-' then ([s], rest) else ([], s :: rest)
  | [] => ([], [])

@[local simp]
def scanExponent : List Char → List Char × List Char
  | e :: rest =>
      if e = 'e' ∨ e = 'E' then
        let sign := scanExponentSign rest
        (e :: sign.1 ++ (sign.2.span isdigit).1, (sign.2.span isdigit).2)
      else ([], e :: rest)
  | [] => ([], [])

@[local simp]
def scanNumber (json : List Char) : List Char × List Char :=
  let sign := scanSign json
  let whole := sign.2.span isdigit
  let fraction := scanFraction whole.2
  let exponent := scanExponent fraction.2
  (sign.1 ++ whole.1 ++ fraction.1 ++ exponent.1, exponent.2)

@[local simp]
def parseNumber (json : List Char) : Except String (Json × List Char) :=
  let (text, rest) := scanNumber json
  match NumberFormat.stod text with
  | some value => .ok (.number value, rest)
  | none => .error "Invalid number"

@[local simp]
def parseBoolean (json : List Char) : Except String (Json × List Char) :=
  if json.take 4 = "true".toList then .ok (.boolean true, json.drop 4)
  else if json.take 5 = "false".toList then .ok (.boolean false, json.drop 5)
  else .error "Invalid boolean"

@[local simp]
def parseNull (json : List Char) : Except String (Json × List Char) :=
  if json.take 4 = "null".toList then .ok (.null, json.drop 4)
  else .error "Invalid null"

mutual
@[local simp]
def parseValue (size : Nat) : Nat → List Char → Except String (Json × List Char)
  | 0, _ => .error outOfFuel
  | fuel + 1, json =>
      match skipSpaces json with
      | [] => .error "Unexpected end of JSON"
      | c :: rest =>
          if c = '{' then parseObject size fuel (c :: rest)
          else if c = '[' then parseArray size fuel (c :: rest)
          else if c = '"' then
            (parseString (c :: rest)).map fun (value, after) => (.string value, after)
          else if c = 't' ∨ c = 'f' then parseBoolean (c :: rest)
          else if c = 'n' then parseNull (c :: rest)
          else if c = '-' ∨ isdigit c then parseNumber (c :: rest)
          else .error ("Invalid JSON value at pos " ++ toString (size - (rest.length + 1)))
@[local simp]
def parseObject (size : Nat) : Nat → List Char → Except String (Json × List Char)
  | 0, _ => .error outOfFuel
  | fuel + 1, json =>
      match skipSpaces json.tail with
      | '}' :: rest => .ok (.object [], rest)
      | afterBrace => parseMembers size fuel [] afterBrace
@[local simp]
def parseMembers (size : Nat) :
    Nat → List (List Char × Json) → List Char → Except String (Json × List Char)
  | 0, _, _ => .error outOfFuel
  | fuel + 1, members, json =>
      match skipSpaces json with
      | '"' :: keyRest =>
          match parseString ('"' :: keyRest) with
          | .error message => .error message
          | .ok (key, afterKey) =>
              match skipSpaces afterKey with
              | ':' :: afterColon =>
                  match parseValue size fuel (skipSpaces afterColon) with
                  | .error message => .error message
                  | .ok (value, afterValue) =>
                      match skipSpaces afterValue with
                      | [] => .error "Unexpected end in object"
                      | '}' :: rest => .ok (.object (members ++ [(key, value)]), rest)
                      | ',' :: rest => parseMembers size fuel (members ++ [(key, value)]) rest
                      | _ => .error "Expected ',' or '\x7d' in object"
              | _ => .error "Expected ':' after key"
      | _ => .error "Expected string key in object"
@[local simp]
def parseArray (size : Nat) : Nat → List Char → Except String (Json × List Char)
  | 0, _ => .error outOfFuel
  | fuel + 1, json =>
      match skipSpaces json.tail with
      | ']' :: rest => .ok (.array [], rest)
      | afterBracket => parseElements size fuel [] afterBracket
@[local simp]
def parseElements (size : Nat) :
    Nat → List (Option Json) → List Char → Except String (Json × List Char)
  | 0, _, _ => .error outOfFuel
  | fuel + 1, elements, json =>
      match parseValue size fuel (skipSpaces json) with
      | .error message => .error message
      | .ok (value, afterValue) =>
          match skipSpaces afterValue with
          | [] => .error "Unexpected end in array"
          | ']' :: rest => .ok (.array (elements ++ [some value]), rest)
          | ',' :: rest => parseElements size fuel (elements ++ [some value]) rest
          | _ => .error "Expected ',' or ']' in array"
end

@[local simp]
def fuelFor (json : List Char) : Nat := 3 * json.length + 1

@[local simp]
def parse (json : List Char) : Except String Json :=
  match parseValue json.length (fuelFor json) (skipSpaces json) with
  | .error message => .error message
  | .ok (root, rest) =>
      if skipSpaces rest = [] then .ok root else .error "Extra characters after JSON end"
end

/-- `JsonObject::toString` pastes a key in raw: the key `"` prints as `{""":null}`, whose key the
parser reads as the empty string, and then it finds no colon. -/
theorem parse_toString_quoteKey :
    parse (Json.object [(['"'], .null)]).toString = .error "Expected ':' after key" := by
  decide

theorem parseStringFrom_append_plain (out content rest : List Char)
    (plain : ∀ c ∈ content, c ≠ '"' ∧ c ≠ '\\') :
    parseStringFrom out (content ++ rest) = parseStringFrom (out ++ content) rest := by
  induction content generalizing out with
  | nil => rw [List.nil_append, List.append_nil]
  | cons c content ih =>
      obtain ⟨notQuote, notEscape⟩ := plain c List.mem_cons_self
      rw [List.cons_append, parseStringFrom.eq_def]
      dsimp only
      rw [if_neg notQuote, if_neg notEscape,
        ih _ fun d member => plain d (List.mem_cons_of_mem c member), List.append_assoc,
        List.singleton_append]

theorem parseStringFrom_plain (out content : List Char)
    (plain : ∀ c ∈ content, c ≠ '"' ∧ c ≠ '\\') :
    parseStringFrom out content = .ok (out ++ content, []) := by
  have read := parseStringFrom_append_plain out content [] plain
  rw [List.append_nil] at read
  rw [read, parseStringFrom]

/-- A string literal that the text ends before closing is accepted: `parseString` leaves its
loop at the end of the input without reporting the missing quote. -/
theorem parse_unclosed_string (content : List Char)
    (plain : ∀ c ∈ content, c ≠ '"' ∧ c ≠ '\\') :
    parse ('"' :: content) = .ok (.string content) := by
  have spaces : skipSpaces ('"' :: content) = '"' :: content := by
    simp [skipSpaces, isspace]
  have fuel : fuelFor ('"' :: content) = (3 * content.length + 3) + 1 := by
    simp only [fuelFor, List.length_cons]
    omega
  simp only [parse, spaces, fuel, parseValue, parseString, List.tail_cons,
    parseStringFrom_plain [] content plain, List.nil_append]
  rfl

theorem parse_unclosed_string_abc :
    (∀ c ∈ "abc".toList, c ≠ '"' ∧ c ≠ '\\') ∧
      parse ('"' :: "abc".toList) = .ok (.string "abc".toList) :=
  ⟨by simp, parse_unclosed_string "abc".toList (by simp)⟩

/-- `oss << value_` keeps six significant digits, so the integer 1234567, a double exactly, prints
as `1.23457e+06` and reads back as 1234570. -/
theorem parse_toString_integer_rounded :
    parse (Json.number 1234567).toString = .ok (.number 1234570) := by
  decide +kernel

/-- A key that ends in `":` makes the quote `JsonObject` prints after it open a string, which
closes at the quote before the next key. The indented printer puts a space after that colon and a
line break and indent before the next member, all inside the string, so the two texts parse to
different trees. -/
theorem parse_dump_ne_parse_toString :
    ((Json.object [("a\":".toList, .null), (",\"c".toList, .null)]).dump 2 0).map parse =
        some (.ok (.object [("a".toList, .string ": null,\n  ".toList), ("c".toList, .null)])) ∧
      parse (Json.object [("a\":".toList, .null), (",\"c".toList, .null)]).toString =
        .ok (.object [("a".toList, .string ":null,".toList), ("c".toList, .null)]) := by
  decide +kernel

end JsonParser

end HighSpeed
