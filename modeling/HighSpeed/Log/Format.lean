import Mathlib
import HighSpeed.Lib.CxxString

/-!
`hspd::format` of `log/format.hpp`: the argument wrappers of `format_context`, their
`format_impl` overloads, and the scan loop of `detail::vformat`.
-/

namespace HighSpeed

namespace Format

inductive BaseField where
  | dec
  | hex
  | oct
  deriving DecidableEq, Repr

inductive FloatField where
  | general
  | fixed
  | scientific
  deriving DecidableEq, Repr

structure StreamFlags where
  basefield : BaseField
  floatfield : FloatField
  precision : Int
  uppercase : Bool
  boolalpha : Bool
  deriving DecidableEq, Repr

section
@[local simp]
def StreamFlags.fresh : StreamFlags := ⟨.dec, .general, 6, false, false⟩
end

inductive FormatArg where
  | integral (value : Int) (width : Nat)
  | floating (value : ℚ)
  | string (value : List Char)
  | pointer (address : Nat)
  | boolean (value : Bool)
  deriving DecidableEq

/-! ## What `os << value` writes -/

def insertIntegral (flags : StreamFlags) (value : Int) (width : Nat) : List Char :=
  match flags.basefield with
  | .dec => (if value < 0 then ['-'] else []) ++ Nat.toDigits 10 value.natAbs
  | .hex =>
      let digits := Nat.toDigits 16 (value % 2 ^ width).toNat
      if flags.uppercase then digits.map Char.toUpper else digits
  | .oct => Nat.toDigits 8 (value % 2 ^ width).toNat

def insertFloating (flags : StreamFlags) (value : ℚ) : List Char :=
  let precision := if flags.precision < 0 then 6 else flags.precision.toNat
  let text := match flags.floatfield with
    | .general => NumberFormat.formatGeneral precision value
    | .fixed => NumberFormat.formatFixed precision value
    | .scientific => NumberFormat.formatScientific precision value
  if flags.uppercase then text.map Char.toUpper else text

def insertPointer (address : Nat) : List Char :=
  if address = 0 then ['0'] else '0' :: 'x' :: Nat.toDigits 16 address

def insertBool (flags : StreamFlags) (value : Bool) : List Char :=
  if flags.boolalpha then (if value then "true" else "false").toList
  else if value then ['1'] else ['0']

/-! ## `format_impl` -/

section
@[local simp]
def formatIntegral (flags : StreamFlags) (spec : List Char) (value : Int) (width : Nat) :
    List Char × StreamFlags :=
  match spec with
  | [] => (insertIntegral flags value width, flags)
  | c :: _ =>
      if c = 'x' ∨ c = 'X' then
        let shown := { flags with basefield := .hex, uppercase := c == 'X' || flags.uppercase }
        (insertIntegral shown value width, { shown with basefield := .dec, uppercase := false })
      else if c = 'o' then
        (insertIntegral { flags with basefield := .oct } value width, { flags with basefield := .dec })
      else if c = 'b' then
        ("0b".toList ++ (List.range width).reverse.flatMap fun i =>
          insertIntegral flags ((value >>> i) % 2) 32, flags)
      else (insertIntegral flags value width, flags)
end

def formatFloating (flags : StreamFlags) (spec : List Char) (value : ℚ) :
    List Char × StreamFlags :=
  if spec = [] then (insertFloating flags value, flags)
  else if spec = ['f'] ∨ spec = ['F'] then
    let flags := { flags with floatfield := .fixed }
    (insertFloating flags value, flags)
  else if spec = ['e'] ∨ spec = ['E'] then
    let shown := { flags with floatfield := .scientific, uppercase := spec == ['E'] || flags.uppercase }
    (insertFloating shown value, { shown with uppercase := false })
  else if spec = ['g'] ∨ spec = ['G'] then
    let shown := { flags with floatfield := .general, uppercase := spec == ['G'] || flags.uppercase }
    (insertFloating shown value, { shown with uppercase := false })
  else
    match spec with
    | '.' :: digits =>
        match CxxString.stoi digits with
        | some precision =>
            let flags := { flags with floatfield := .fixed, precision := precision }
            (insertFloating flags value, flags)
        | none => (insertFloating flags value, flags)
    | _ => (insertFloating flags value, flags)

section
@[local simp]
def formatBool (flags : StreamFlags) (spec : List Char) (value : Bool) : List Char × StreamFlags :=
  if spec = ['d'] then (insertIntegral flags (if value then 1 else 0) 32, flags)
  else if spec = ['s'] then ((if value then "true" else "false").toList, flags)
  else
    let flags := { flags with boolalpha := true }
    (insertBool flags value, flags)

/-- `format_arg<T>::format(os, spec)`: the text written and the stream's state after. -/
@[local simp]
def FormatArg.format (arg : FormatArg) (flags : StreamFlags) (spec : List Char) :
    List Char × StreamFlags :=
  match arg with
  | .integral value width => formatIntegral flags spec value width
  | .floating value => formatFloating flags spec value
  | .string value => (value, flags)
  | .pointer address => (insertPointer address, flags)
  | .boolean value => formatBool flags spec value
end

/-! ## `vformat` -/

def outOfFuel : String := "format fuel exhausted"

section
@[local simp]
def vformatFrom (args : List FormatArg) :
    Nat → List Char → Nat → List Char → StreamFlags → Except String (List Char × Nat)
  | 0, _, _, _, _ => .error outOfFuel
  | fuel + 1, rest, argIndex, out, flags =>
      if rest = [] then .ok (out, argIndex)
      else
        match CxxString.findFirstOf rest ['{', '}'] with
        | none => .ok (out ++ rest, argIndex)
        | some brace =>
            let out := out ++ rest.take brace
            match rest.drop brace with
            | '}' :: after =>
                match after with
                | '}' :: more => vformatFrom args fuel more argIndex (out ++ ['}']) flags
                | _ => .error "Unmatched '\x7d' in format string"
            | _ :: after =>
                match after with
                | '{' :: more => vformatFrom args fuel more argIndex (out ++ ['{']) flags
                | _ =>
                    match CxxString.find after ['}'] with
                    | none => .error "Unmatched '\x7b' in format string"
                    | some close =>
                        let formatSpec := after.take close
                        let more := after.drop (close + 1)
                        if formatSpec = [] then
                          match args[argIndex]? with
                          | none => .error "Too few arguments provided"
                          | some arg =>
                              let written := arg.format flags []
                              vformatFrom args fuel more (argIndex + 1) (out ++ written.1)
                                written.2
                        else
                          let colon := CxxString.find formatSpec [':']
                          let indexText := match colon with
                            | some position => formatSpec.take position
                            | none => formatSpec
                          let specText := match colon with
                            | some position => formatSpec.drop (position + 1)
                            | none => []
                          match CxxString.stoul indexText with
                          | none => .error ("Invalid argument index: " ++ String.ofList indexText)
                          | some index =>
                              match args[index]? with
                              | none => .error ("Argument index out of range: " ++ toString index)
                              | some arg =>
                                  let written := arg.format flags specText
                                  vformatFrom args fuel more argIndex (out ++ written.1)
                                    written.2
            | [] => .ok (out, argIndex)

/-- `detail::vformat(fmt, ctx)` on a new `ostringstream`, with its last check. -/
@[local simp]
def vformat (fmt : List Char) (args : List FormatArg) : Except String (List Char) :=
  match vformatFrom args (fmt.length + 1) fmt 0 [] StreamFlags.fresh with
  | .error message => .error message
  | .ok (out, argIndex) =>
      if argIndex < args.length then .error "Too many arguments provided" else .ok out
end

/-! ## What the fields leave behind -/

def Plain (flags : StreamFlags) : Prop := flags.basefield = .dec ∧ flags.uppercase = false

theorem format_keeps_plain (arg : FormatArg) {flags : StreamFlags} (plain : Plain flags)
    (spec : List Char) : Plain (arg.format flags spec).2 := by
  obtain ⟨decimal, lower⟩ := plain
  cases arg with
  | integral value width =>
      simp only [FormatArg.format, formatIntegral]
      split
      · exact ⟨decimal, lower⟩
      · split
        · exact ⟨rfl, rfl⟩
        · split
          · exact ⟨rfl, lower⟩
          · split <;> exact ⟨decimal, lower⟩
  | floating value =>
      simp only [FormatArg.format, formatFloating]
      split
      · exact ⟨decimal, lower⟩
      · split
        · exact ⟨decimal, lower⟩
        · split
          · exact ⟨decimal, rfl⟩
          · split
            · exact ⟨decimal, rfl⟩
            · split
              · split <;> exact ⟨decimal, lower⟩
              · exact ⟨decimal, lower⟩
  | string value => exact ⟨decimal, lower⟩
  | pointer address => exact ⟨decimal, lower⟩
  | boolean value =>
      simp only [FormatArg.format, formatBool]
      split
      · exact ⟨decimal, lower⟩
      · split <;> exact ⟨decimal, lower⟩

theorem format_text_fresh (arg : FormatArg) {flags : StreamFlags} (plain : Plain flags)
    (notFloating : ∀ value, arg ≠ .floating value) (spec : List Char) :
    (arg.format flags spec).1 = (arg.format StreamFlags.fresh spec).1 := by
  obtain ⟨decimal, lower⟩ := plain
  have freshIntegral : ∀ (value : Int) (width : Nat),
      insertIntegral flags value width = insertIntegral StreamFlags.fresh value width := by
    intro value width
    simp only [insertIntegral, decimal, StreamFlags.fresh]
  cases arg with
  | integral value width =>
      simp only [FormatArg.format, formatIntegral]
      split
      · exact freshIntegral value width
      · split
        · simp only [insertIntegral, lower, StreamFlags.fresh, Bool.or_false]
        · split
          · rfl
          · split
            · simp only [freshIntegral]
            · exact freshIntegral value width
  | floating value => exact absurd rfl (notFloating value)
  | string value => rfl
  | pointer address => rfl
  | boolean value =>
      simp only [FormatArg.format, formatBool]
      split
      · exact freshIntegral _ 32
      · split
        · rfl
        · rfl

/-- The scan loop over arguments that are not doubles writes the same text from every plain
stream state: whatever a field's spec sets and leaves set reaches only doubles. -/
theorem vformatFrom_plain_eq (args : List FormatArg)
    (noDouble : ∀ arg ∈ args, ∀ value, arg ≠ .floating value) :
    ∀ fuel rest argIndex out (first second : StreamFlags), Plain first → Plain second →
      vformatFrom args fuel rest argIndex out first =
        vformatFrom args fuel rest argIndex out second := by
  intro fuel
  induction fuel with
  | zero => intros; rfl
  | succ fuel ih =>
      intro rest argIndex out first second plainFirst plainSecond
      have field : ∀ arg ∈ args, ∀ spec more nextIndex (written : List Char),
          vformatFrom args fuel more nextIndex (written ++ (arg.format first spec).1)
              (arg.format first spec).2 =
            vformatFrom args fuel more nextIndex (written ++ (arg.format second spec).1)
              (arg.format second spec).2 := by
        intro arg member spec more nextIndex written
        rw [format_text_fresh arg plainFirst (noDouble arg member) spec,
          format_text_fresh arg plainSecond (noDouble arg member) spec]
        exact ih _ _ _ _ _ (format_keeps_plain arg plainFirst spec)
          (format_keeps_plain arg plainSecond spec)
      simp only [vformatFrom]
      split
      · rfl
      · split
        · rfl
        · split
          · split
            · exact ih _ _ _ _ _ plainFirst plainSecond
            · rfl
          · split
            · exact ih _ _ _ _ _ plainFirst plainSecond
            · split
              · rfl
              · split
                · split
                  · rfl
                  · rename_i arg found
                    exact field arg (List.mem_of_getElem? found) _ _ _ _
                · split
                  · rfl
                  · split
                    · rfl
                    · rename_i arg found
                      exact field arg (List.mem_of_getElem? found) _ _ _ _
          · rfl

theorem vformatFrom_plain_eq_hex :
    (∀ arg ∈ [FormatArg.integral 255 32, .boolean true], ∀ value, arg ≠ .floating value) ∧
      Plain StreamFlags.fresh ∧ Plain ⟨.dec, .fixed, 2, false, true⟩ ∧
      vformatFrom [.integral 255 32, .boolean true] 9 "{0:x}{}".toList 0 [] StreamFlags.fresh =
        .ok ("ff255".toList, 1) ∧
      vformatFrom [.integral 255 32, .boolean true] 9 "{0:x}{}".toList 0 [] StreamFlags.fresh =
        vformatFrom [.integral 255 32, .boolean true] 9 "{0:x}{}".toList 0 []
          ⟨.dec, .fixed, 2, false, true⟩ := by
  have noDouble : ∀ arg ∈ [FormatArg.integral 255 32, .boolean true], ∀ value,
      arg ≠ .floating value := by
    intro arg member value
    simp only [List.mem_cons, List.not_mem_nil, or_false] at member
    rcases member with rfl | rfl <;> exact fun same => nomatch same
  have freshPlain : Plain StreamFlags.fresh := ⟨rfl, rfl⟩
  have otherPlain : Plain ⟨.dec, .fixed, 2, false, true⟩ := ⟨rfl, rfl⟩
  have printed : vformatFrom [.integral 255 32, .boolean true] 9 "{0:x}{}".toList 0 []
      StreamFlags.fresh = .ok ("ff255".toList, 1) := by
    decide +kernel
  exact ⟨noDouble, freshPlain, otherPlain, printed,
    vformatFrom_plain_eq _ noDouble 9 "{0:x}{}".toList 0 [] _ _ freshPlain otherPlain⟩

/-- A double printed with the spec `f` leaves the stream in `fixed`: the same argument printed
again by an automatic field comes out as `1.500000`, where a new stream writes `1.5`. -/
theorem vformat_fixed_leaks :
    vformat "{0:f}{}".toList [.floating (3 / 2)] = .ok "1.5000001.500000".toList ∧
      ((FormatArg.floating (3 / 2)).format StreamFlags.fresh []).1 = "1.5".toList := by
  decide +kernel

/-- A format string that numbers its one field by hand, with one argument, throws: the last
check compares the count of automatic fields, here none, with the number of arguments. -/
theorem vformat_manual_index_throws (arg : FormatArg) :
    vformat "{0}".toList [arg] = .error "Too many arguments provided" := by
  have opening : CxxString.findFirstOf ['{', '0', '}'] ['{', '}'] = some 0 := by decide
  have scanned : vformatFrom [arg] 4 ['{', '0', '}'] 0 [] StreamFlags.fresh =
      .ok ([] ++ (arg.format StreamFlags.fresh []).1, 0) := by
    rw [show (4 : Nat) = 3 + 1 from rfl, vformatFrom]
    simp only [opening]
    rfl
  unfold vformat
  rw [show "{0}".toList = ['{', '0', '}'] from rfl, show ['{', '0', '}'].length + 1 = 4 from rfl,
    scanned]
  rfl

/-! ## Automatic fields -/

section
@[local simp]
def automaticTemplate (first : List Char) (texts : List (List Char)) : List Char :=
  first ++ texts.flatMap fun text => '{' :: '}' :: text
end

def fieldsText : List FormatArg → List (List Char) → StreamFlags → List Char
  | arg :: args, text :: texts, flags =>
      (arg.format flags []).1 ++ text ++ fieldsText args texts (arg.format flags []).2
  | _, _, _ => []

@[simp] theorem fieldsText_nil (args : List FormatArg) (flags : StreamFlags) :
    fieldsText args [] flags = [] := by
  cases args <;> rfl

theorem automaticTemplate_cons (first text : List Char) (texts : List (List Char)) :
    automaticTemplate first (text :: texts) =
      first ++ '{' :: '}' :: automaticTemplate text texts := by
  simp only [automaticTemplate, List.flatMap_cons, List.cons_append]

theorem findFirstOf_literal_append {first : List Char}
    (literal : CxxString.findFirstOf first ['{', '}'] = none) (rest : List Char) :
    CxxString.findFirstOf (first ++ '{' :: rest) ['{', '}'] = some first.length := by
  have opening : ['{', '}'].contains '{' = true := by decide
  unfold CxxString.findFirstOf at literal ⊢
  rw [List.findIdx?_append, literal, List.findIdx?_cons, if_pos opening]
  simp only [Option.map_some, Option.none_or, Nat.zero_add]

theorem vformatFrom_field (args : List FormatArg) {first : List Char}
    (literal : CxxString.findFirstOf first ['{', '}'] = none) (rest : List Char)
    {argIndex : Nat} {arg : FormatArg} (found : args[argIndex]? = some arg) (fuel : Nat)
    (out : List Char) (flags : StreamFlags) :
    vformatFrom args (fuel + 1) (first ++ '{' :: '}' :: rest) argIndex out flags =
      vformatFrom args fuel rest (argIndex + 1) (out ++ first ++ (arg.format flags []).1)
        (arg.format flags []).2 := by
  have nonempty : first ++ '{' :: '}' :: rest ≠ [] := by simp
  have taken : (first ++ '{' :: '}' :: rest).take first.length = first := List.take_left
  have dropped : (first ++ '{' :: '}' :: rest).drop first.length = '{' :: '}' :: rest :=
    List.drop_left
  have closing : CxxString.find ('}' :: rest) ['}'] = some 0 := by
    simp [CxxString.find]
  rw [vformatFrom]
  simp only [nonempty, if_false, findFirstOf_literal_append literal, taken, dropped]
  simp [closing, found, List.append_assoc]

theorem vformatFrom_automatic (args : List FormatArg) :
    ∀ (texts : List (List Char)) (first out : List Char) (argIndex fuel : Nat)
      (flags : StreamFlags),
      (∀ text ∈ first :: texts, CxxString.findFirstOf text ['{', '}'] = none) →
      argIndex + texts.length ≤ args.length → (automaticTemplate first texts).length < fuel →
      vformatFrom args fuel (automaticTemplate first texts) argIndex out flags =
        .ok (out ++ first ++ fieldsText (args.drop argIndex) texts flags,
          argIndex + texts.length)
  | [], first, out, argIndex, fuel, flags, literal, _, enough => by
      obtain ⟨fuel, rfl⟩ : ∃ smaller, fuel = smaller + 1 := ⟨fuel - 1, by omega⟩
      have noBrace := literal first List.mem_cons_self
      have last : automaticTemplate first [] = first := by
        simp only [automaticTemplate, List.flatMap_nil, List.append_nil]
      rw [last, vformatFrom]
      by_cases empty : first = []
      · simp only [empty, if_true, fieldsText_nil, List.append_nil, List.length_nil,
          Nat.add_zero]
      · simp only [empty, if_false, noBrace, fieldsText_nil, List.append_nil, List.length_nil,
          Nat.add_zero]
  | text :: texts, first, out, argIndex, fuel, flags, literal, fits, enough => by
      obtain ⟨fuel, rfl⟩ : ∃ smaller, fuel = smaller + 1 := ⟨fuel - 1, by omega⟩
      have below : argIndex < args.length := by
        simp only [List.length_cons] at fits
        omega
      have shorter : (automaticTemplate text texts).length < fuel := by
        rw [automaticTemplate_cons] at enough
        simp only [List.length_append, List.length_cons] at enough
        omega
      have later := vformatFrom_automatic args texts text
        (out ++ first ++ (args[argIndex].format flags []).1) (argIndex + 1) fuel
        (args[argIndex].format flags []).2 (fun other member => literal other
          (List.mem_cons_of_mem _ member)) (by simp only [List.length_cons] at fits; omega) shorter
      rw [automaticTemplate_cons, vformatFrom_field args (literal first List.mem_cons_self) _
        (List.getElem?_eq_getElem below), later, List.drop_eq_getElem_cons below, fieldsText]
      simp only [List.append_assoc, List.length_cons, Nat.add_assoc, Nat.add_comm 1]

/-- `vformat` on literal texts and as many automatic fields as arguments writes the texts with
each argument's text in its field, in order, each on the stream the fields before it left. -/
theorem vformat_automatic (first : List Char) (texts : List (List Char)) (args : List FormatArg)
    (literal : ∀ text ∈ first :: texts, CxxString.findFirstOf text ['{', '}'] = none)
    (counted : args.length = texts.length) :
    vformat (automaticTemplate first texts) args =
      .ok (first ++ fieldsText args texts StreamFlags.fresh) := by
  have scanned := vformatFrom_automatic args texts first [] 0 _ StreamFlags.fresh literal
    (by omega) (Nat.lt_succ_self _)
  unfold vformat
  rw [scanned, List.drop_zero, List.nil_append, Nat.zero_add, counted]
  simp only [Nat.lt_irrefl, if_false]

/-- Two fields, an integer and a `bool`, between literal texts. -/
theorem vformat_automatic_two :
    (∀ text ∈ "id=".toList :: [", ok=".toList, "".toList],
      CxxString.findFirstOf text ['{', '}'] = none) ∧
    [FormatArg.integral 42 32, .boolean true].length = [", ok=".toList, "".toList].length ∧
    vformat (automaticTemplate "id=".toList [", ok=".toList, "".toList])
        [.integral 42 32, .boolean true] =
      .ok ("id=".toList ++ fieldsText [.integral 42 32, .boolean true] [", ok=".toList, "".toList]
        StreamFlags.fresh) :=
  ⟨by decide, rfl, vformat_automatic _ _ _ (by decide) rfl⟩

end Format

end HighSpeed
