import HighSpeed.Json.Core

/-!
The JSON grammar, as a relation between a text and the tree it stands for: what a JSON document
is, apart from how `JsonParser` reads one.
-/

namespace HighSpeed

namespace JsonGrammar

section
@[local simp]
def jsonSpace (c : Char) : Bool := c = ' ' || c = '\t' || c = '\n' || c = '\r'
end

def Blank (ws : List Char) : Prop := ws.all jsonSpace = true

instance (ws : List Char) : Decidable (Blank ws) := inferInstanceAs (Decidable (_ = true))

theorem blank_nil : Blank [] := rfl

theorem Blank.head_tail {c : Char} {ws : List Char} (blank : Blank (c :: ws)) :
    jsonSpace c = true ∧ Blank ws := by
  simpa only [Blank, List.all_cons, Bool.and_eq_true] using blank

def shortEscape : Char → Option Char
  | '"' => some '"'
  | '\\' => some '\\'
  | '/' => some '/'
  | 'b' => some '\x08'
  | 'f' => some '\x0c'
  | 'n' => some '\n'
  | 'r' => some '\r'
  | 't' => some '\t'
  | _ => none

inductive StringChar : List Char → Char → Prop
  | unescaped (c : Char) : c ≠ '"' → c ≠ '\\' → 32 ≤ c.toNat → StringChar [c] c
  | escaped {e c : Char} : shortEscape e = some c → StringChar ['\\', e] c

inductive StringBody : List Char → List Char → Prop
  | nil : StringBody [] []
  | cons {piece body : List Char} {c : Char} {value : List Char} :
      StringChar piece c → StringBody body value → StringBody (piece ++ body) (c :: value)

def ExponentText (exponent : List Char) : Prop :=
  exponent = [] ∨ ∃ e sign digits, exponent = e :: (sign ++ digits) ∧
    (e = 'e' ∨ e = 'E') ∧ (sign = [] ∨ sign = ['+'] ∨ sign = ['-']) ∧ digits ≠ [] ∧
    ∀ c ∈ digits, NumberFormat.isDigit c = true

structure NumberText (sign int fraction exponent : List Char) : Prop where
  signed : sign = [] ∨ sign = ['-']
  int : int = ['0'] ∨ ∃ d digits, int = d :: digits ∧ NumberFormat.isDigit d = true ∧
    d ≠ '0' ∧ ∀ c ∈ digits, NumberFormat.isDigit c = true
  fraction : fraction = [] ∨ ∃ digits, fraction = '.' :: digits ∧ digits ≠ [] ∧
    ∀ c ∈ digits, NumberFormat.isDigit c = true
  exponent : ExponentText exponent

mutual
inductive ValueText : List Char → Json → Prop
  | object {body : List Char} {members : List (List Char × Json)} :
      MembersText body members → ValueText ('{' :: (body ++ ['}'])) (.object members)
  | emptyObject {ws : List Char} : Blank ws → ValueText ('{' :: (ws ++ ['}'])) (.object [])
  | array {body : List Char} {values : List Json} :
      ElementsText body values → ValueText ('[' :: (body ++ [']'])) (.array (values.map some))
  | emptyArray {ws : List Char} : Blank ws → ValueText ('[' :: (ws ++ [']'])) (.array [])
  | string {body value : List Char} :
      StringBody body value → ValueText ('"' :: (body ++ ['"'])) (.string value)
  | number {sign int fraction exponent : List Char} {value : ℚ} :
      NumberText sign int fraction exponent →
      NumberFormat.stod (sign ++ int ++ fraction ++ exponent) = some value →
      ValueText (sign ++ int ++ fraction ++ exponent) (.number value)
  | true : ValueText "true".toList (.boolean true)
  | false : ValueText "false".toList (.boolean false)
  | null : ValueText "null".toList .null
inductive MemberText : List Char → List Char × Json → Prop
  | mk {before keyBody key afterKey afterColon text after : List Char} {value : Json} :
      Blank before → StringBody keyBody key → Blank afterKey → Blank afterColon →
      ValueText text value → Blank after →
      MemberText (before ++ '"' :: (keyBody ++ '"' :: (afterKey ++ ':' ::
        (afterColon ++ text ++ after)))) (key, value)
inductive MembersText : List Char → List (List Char × Json) → Prop
  | last {text : List Char} {member : List Char × Json} :
      MemberText text member → MembersText text [member]
  | cons {text rest : List Char} {member : List Char × Json} {members : List (List Char × Json)} :
      MemberText text member → MembersText rest members →
      MembersText (text ++ ',' :: rest) (member :: members)
inductive ElementText : List Char → Json → Prop
  | mk {before text after : List Char} {value : Json} :
      Blank before → ValueText text value → Blank after →
      ElementText (before ++ text ++ after) value
inductive ElementsText : List Char → List Json → Prop
  | last {text : List Char} {value : Json} : ElementText text value → ElementsText text [value]
  | cons {text rest : List Char} {value : Json} {values : List Json} :
      ElementText text value → ElementsText rest values →
      ElementsText (text ++ ',' :: rest) (value :: values)
end

def JsonText (text : List Char) (value : Json) : Prop := ElementText text value

def ValueHead (c : Char) : Prop :=
  c = '{' ∨ c = '[' ∨ c = '"' ∨ c = '-' ∨ NumberFormat.isDigit c = true ∨ c = 't' ∨
    c = 'f' ∨ c = 'n'

theorem NumberText.head {sign int fraction exponent : List Char}
    (number : NumberText sign int fraction exponent) :
    ∃ c more, sign ++ int ++ fraction ++ exponent = c :: more ∧
      (c = '-' ∨ NumberFormat.isDigit c = true) := by
  rcases number.signed with rfl | rfl
  · rcases number.int with rfl | ⟨d, digits, rfl, digit, -, -⟩
    · exact ⟨'0', _, rfl, .inr rfl⟩
    · exact ⟨d, _, rfl, .inr digit⟩
  · exact ⟨'-', _, rfl, .inl rfl⟩

theorem ValueText.head {text : List Char} {value : Json} (derived : ValueText text value) :
    ∃ c more, text = c :: more ∧ ValueHead c := by
  cases derived with
  | object => exact ⟨'{', _, rfl, .inl rfl⟩
  | emptyObject => exact ⟨'{', _, rfl, .inl rfl⟩
  | array => exact ⟨'[', _, rfl, .inr (.inl rfl)⟩
  | emptyArray => exact ⟨'[', _, rfl, .inr (.inl rfl)⟩
  | string => exact ⟨'"', _, rfl, .inr (.inr (.inl rfl))⟩
  | number number =>
      obtain ⟨c, more, starts, head⟩ := number.head
      refine ⟨c, more, starts, ?_⟩
      rcases head with minus | digit
      · exact .inr (.inr (.inr (.inl minus)))
      · exact .inr (.inr (.inr (.inr (.inl digit))))
  | true => exact ⟨'t', _, rfl, .inr (.inr (.inr (.inr (.inr (.inl rfl)))))⟩
  | false => exact ⟨'f', _, rfl, .inr (.inr (.inr (.inr (.inr (.inr (.inl rfl))))))⟩
  | null => exact ⟨'n', _, rfl, .inr (.inr (.inr (.inr (.inr (.inr (.inr rfl))))))⟩

theorem ValueHead.ne_close {c : Char} (head : ValueHead c) : c ≠ ']' := by
  rcases head with rfl | rfl | rfl | rfl | digit | rfl | rfl | rfl
  · decide
  · decide
  · decide
  · decide
  · rintro rfl
    exact absurd digit (by decide)
  · decide
  · decide
  · decide

end JsonGrammar

end HighSpeed
