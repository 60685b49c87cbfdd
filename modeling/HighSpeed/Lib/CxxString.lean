import Mathlib.Data.List.AList
import HighSpeed.Lib.NumberFormat

/-!
The `std::string` and stream operations that text protocols are parsed with, on a string as a
list of characters: `find`, `find_first_of`, `substr`, the words that `istream >> std::string`
extracts, the lines that `std::getline` reads, and the conversions `std::stoul` and `std::stoi`.
-/

namespace CxxString

def find (text pattern : List Char) : Option Nat :=
  if pattern.isPrefixOf text then some 0
  else match text with
    | [] => none
    | _ :: rest => (find rest pattern).map (· + 1)

section
@[local simp]
def substr (text : List Char) (pos count : Nat) : List Char :=
  (text.drop pos).take count

@[local simp]
def isspace (c : Char) : Bool :=
  c = ' ' || c = '\t' || c = '\n' || c = '\x0b' || c = '\x0c' || c = '\r'

@[local simp]
def wordsFrom (current : List Char) : List Char → List (List Char)
  | [] => if current = [] then [] else [current]
  | c :: rest =>
      if isspace c then
        if current = [] then wordsFrom [] rest else current :: wordsFrom [] rest
      else wordsFrom (current ++ [c]) rest
end

def words (text : List Char) : List (List Char) := wordsFrom [] text

section
/-- The lines `while (std::getline(stream, line))` reads, with `current` read of the line so
far: up to each `'\n'`, and a last line only when it is not empty. -/
@[local simp]
def getlinesFrom (current : List Char) : List Char → List (List Char)
  | [] => if current = [] then [] else [current]
  | '\n' :: rest => current :: getlinesFrom [] rest
  | c :: rest => getlinesFrom (current ++ [c]) rest
end

def getlines (text : List Char) : List (List Char) := getlinesFrom [] text

def findFirstOf (text set : List Char) : Option Nat := text.findIdx? fun c => set.contains c

def readDecimal (text : List Char) : Option (Bool × Nat) :=
  let afterSpaces := text.dropWhile isspace
  let signed : Bool × List Char := match afterSpaces with
    | '-' :: rest => (true, rest)
    | '+' :: rest => (false, rest)
    | rest => (false, rest)
  let digits := signed.2.takeWhile NumberFormat.isDigit
  if digits = [] then none else some (signed.1, NumberFormat.digitsValue digits)

/-- `std::stoul(text)`: a minus sign negates modulo `2^64`, as `strtoul` does; `none` where it
throws, for want of a digit or past `ULONG_MAX`. -/
def stoul (text : List Char) : Option Nat :=
  (readDecimal text).bind fun (negative, magnitude) =>
    if 2 ^ 64 ≤ magnitude then none
    else some (if negative then (2 ^ 64 - magnitude) % 2 ^ 64 else magnitude)

/-- `std::stoi(text)`: `none` where it throws, for want of a digit or outside the range of
`int`. -/
def stoi (text : List Char) : Option Int :=
  (readDecimal text).bind fun (negative, magnitude) =>
    let value : Int := if negative then -(magnitude : Int) else magnitude
    if value < -2 ^ 31 ∨ 2 ^ 31 ≤ value then none else some value

/-! ## Finding a delimiter, splitting words and lines -/

theorem find_cons_of_not_prefix {c : Char} {text pattern : List Char}
    (notPrefix : pattern.isPrefixOf (c :: text) = false) :
    find (c :: text) pattern = (find text pattern).map (· + 1) := by
  rw [find.eq_def, notPrefix]
  rfl

theorem find_append_of_not_mem {pre rest tail : List Char} {head : Char}
    (absent : head ∉ pre) (starts : head :: tail <+: rest) :
    find (pre ++ rest) (head :: tail) = some pre.length := by
  induction pre with
  | nil =>
      rw [List.nil_append, find.eq_def, List.isPrefixOf_iff_prefix.mpr starts]
      rfl
  | cons c pre ih =>
      have different : head ≠ c := fun same => absent (same ▸ List.mem_cons_self)
      have notPrefix : (head :: tail).isPrefixOf (c :: (pre ++ rest)) = false := by
        simp [List.isPrefixOf, different]
      rw [List.cons_append, find_cons_of_not_prefix notPrefix,
        ih (fun member => absent (List.mem_cons_of_mem c member))]
      rfl

theorem find_isSome_iff (pattern : List Char) :
    ∀ text : List Char, (find text pattern).isSome ↔ pattern <:+: text
  | [] => by
      rw [find.eq_def]
      by_cases starts : pattern.isPrefixOf [] = true
      · simp only [starts, if_true, Option.isSome_some, true_iff]
        exact (List.isPrefixOf_iff_prefix.mp starts).isInfix
      · simp only [starts, Bool.false_eq_true, if_false, Option.isSome_none, false_iff]
        intro occurs
        rw [List.infix_nil] at occurs
        subst occurs
        exact starts rfl
  | c :: rest => by
      rw [find.eq_def, List.infix_cons_iff, ← List.isPrefixOf_iff_prefix]
      by_cases starts : pattern.isPrefixOf (c :: rest) = true
      · simp only [starts, if_true, Option.isSome_some, true_or]
      · simp only [starts, Bool.false_eq_true, if_false, false_or, Option.isSome_map]
        exact find_isSome_iff pattern rest

theorem find_blankLine_skip {line rest : List Char} (noReturn : '\r' ∉ line)
    (nextLine : ∀ more, rest ≠ '\r' :: more) :
    find (line ++ '\r' :: '\n' :: rest) ['\r', '\n', '\r', '\n'] =
      (find rest ['\r', '\n', '\r', '\n']).map (· + (line.length + 2)) := by
  induction line with
  | nil =>
      have notBlank : ['\r', '\n', '\r', '\n'].isPrefixOf ('\r' :: '\n' :: rest) = false := by
        cases rest with
        | nil => rfl
        | cons d more =>
            have different : '\r' ≠ d := fun same => nextLine more (by rw [same])
            simp [List.isPrefixOf, different]
      rw [List.nil_append, find_cons_of_not_prefix notBlank,
        find_cons_of_not_prefix (by simp [List.isPrefixOf]), Option.map_map]
      rfl
  | cons c line ih =>
      have different : '\r' ≠ c := fun same => noReturn (same ▸ List.mem_cons_self)
      have notBlank : ['\r', '\n', '\r', '\n'].isPrefixOf
          (c :: (line ++ '\r' :: '\n' :: rest)) = false := by
        simp [List.isPrefixOf, different]
      rw [List.cons_append, find_cons_of_not_prefix notBlank,
        ih (fun member => noReturn (List.mem_cons_of_mem c member)), Option.map_map]
      rfl

theorem wordsFrom_append {word : List Char} (inWord : ∀ c ∈ word, isspace c = false) :
    ∀ current rest, wordsFrom current (word ++ rest) = wordsFrom (current ++ word) rest := by
  induction word with
  | nil => intro current rest; rw [List.nil_append, List.append_nil]
  | cons c word ih =>
      intro current rest
      have letter := inWord c List.mem_cons_self
      rw [List.cons_append, wordsFrom, if_neg (by simp [letter]),
        ih (fun d member => inWord d (List.mem_cons_of_mem c member)), List.append_assoc,
        List.singleton_append]

theorem wordsFrom_space {c : Char} (space : isspace c = true) {current : List Char}
    (started : current ≠ []) (rest : List Char) :
    wordsFrom current (c :: rest) = current :: wordsFrom [] rest := by
  rw [wordsFrom, if_pos space, if_neg started]

theorem wordsFrom_nil_of_ne {current : List Char} (started : current ≠ []) :
    wordsFrom current [] = [current] := by
  rw [wordsFrom, if_neg started]

theorem getlinesFrom_cons_of_ne {c : Char} (different : c ≠ '\n') (current rest : List Char) :
    getlinesFrom current (c :: rest) = getlinesFrom (current ++ [c]) rest := by
  rw [getlinesFrom.eq_def]
  split
  · rename_i same
    cases same
  · rename_i same
    exact absurd (List.cons.inj same).1 different
  · rename_i d more _ same
    obtain ⟨rfl, rfl⟩ := List.cons.inj same
    rfl

theorem getlinesFrom_append {line : List Char} (noNewline : '\n' ∉ line) :
    ∀ current rest, getlinesFrom current (line ++ rest) = getlinesFrom (current ++ line) rest := by
  induction line with
  | nil => intro current rest; rw [List.nil_append, List.append_nil]
  | cons c line ih =>
      intro current rest
      have different : c ≠ '\n' := fun same => noNewline (same ▸ List.mem_cons_self)
      rw [List.cons_append, getlinesFrom_cons_of_ne different,
        ih (fun member => noNewline (List.mem_cons_of_mem c member)), List.append_assoc,
        List.singleton_append]

theorem getlinesFrom_newline (current rest : List Char) :
    getlinesFrom current ('\n' :: rest) = current :: getlinesFrom [] rest := by
  rw [getlinesFrom]

theorem getlinesFrom_nil_of_ne {current : List Char} (started : current ≠ []) :
    getlinesFrom current [] = [current] := by
  rw [getlinesFrom, if_neg started]

end CxxString
