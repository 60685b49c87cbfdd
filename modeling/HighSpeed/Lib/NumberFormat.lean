import Mathlib.Data.Rat.Floor
import Mathlib.Data.Int.Log

/-!
Decimal text of binary floating-point numbers, as the C library writes and reads it.
-/

namespace NumberFormat

def roundHalfEven (q : ℚ) : ℤ :=
  let floor := ⌊q⌋
  if q - floor < 1 / 2 then floor
  else if 1 / 2 < q - floor then floor + 1
  else if floor % 2 = 0 then floor else floor + 1

def isDigit (c : Char) : Bool := '0' ≤ c && c ≤ '9'

def digitsValue (digits : List Char) : ℕ :=
  digits.foldl (fun value c => value * 10 + (c.toNat - '0'.toNat)) 0

section
@[local simp]
def stripTrailingZeros (digits : List Char) : List Char :=
  (digits.reverse.dropWhile (· = '0')).reverse

@[local simp]
def fractionText (digits : List Char) : List Char :=
  match stripTrailingZeros digits with
  | [] => []
  | kept => '.' :: kept
end

def exponentText (exponent : ℤ) : List Char :=
  let digits := Nat.toDigits 10 exponent.natAbs
  'e' :: (if exponent < 0 then '-' else '+') ::
    (if digits.length < 2 then '0' :: digits else digits)

def significand (precision : ℕ) (magnitude : ℚ) : ℕ × ℤ :=
  let exponent := Int.log 10 magnitude
  let digits := roundHalfEven (magnitude / 10 ^ (exponent - (precision - 1 : ℕ)))
  if digits = 10 ^ precision then (10 ^ (precision - 1), exponent + 1)
  else (digits.toNat, exponent)

section
/-- `printf("%.*g", precision, value)`: style `f` when the exponent `x` of style `e` satisfies
`-4 ≤ x < precision`, style `e` otherwise, with trailing zeros removed in both. -/
@[local simp]
def formatGeneral (precision : ℕ) (value : ℚ) : List Char :=
  let precision := max precision 1
  let sign := if value < 0 then ['-'] else []
  if value = 0 then ['0'] else
  let (digits, exponent) := significand precision |value|
  let text := Nat.toDigits 10 digits
  if -4 ≤ exponent ∧ exponent < precision then
    if 0 ≤ exponent then
      sign ++ text.take (exponent.toNat + 1) ++ fractionText (text.drop (exponent.toNat + 1))
    else
      sign ++ '0' :: fractionText (List.replicate ((-exponent).toNat - 1) '0' ++ text)
  else
    sign ++ text.take 1 ++ fractionText (text.drop 1) ++ exponentText exponent
end

/-- `printf("%.*f", precision, value)`: rounded to `precision` decimals, ties to even. -/
def formatFixed (precision : ℕ) (value : ℚ) : List Char :=
  let sign := if value < 0 then ['-'] else []
  let scaled := Nat.toDigits 10 (roundHalfEven (|value| * 10 ^ precision)).toNat
  let digits := List.replicate (precision + 1 - scaled.length) '0' ++ scaled
  let whole := digits.take (digits.length - precision)
  sign ++ whole ++ (if precision = 0 then [] else '.' :: digits.drop (digits.length - precision))

/-- `printf("%.*e", precision, value)`: one digit before the point, `precision` after it. -/
def formatScientific (precision : ℕ) (value : ℚ) : List Char :=
  let sign := if value < 0 then ['-'] else []
  let (digits, exponent) := if value = 0 then (0, 0) else significand (precision + 1) |value|
  let shown := Nat.toDigits 10 digits
  let text := List.replicate (precision + 1 - shown.length) '0' ++ shown
  sign ++ text.take 1 ++ (if precision = 0 then [] else '.' :: text.drop 1) ++
    exponentText exponent

def readSign : List Char → Bool × List Char
  | '-' :: rest => (true, rest)
  | '+' :: rest => (false, rest)
  | text => (false, text)

def readExponent : List Char → Option (ℤ × List Char)
  | e :: rest =>
      if e = 'e' ∨ e = 'E' then
        let (negative, afterSign) := readSign rest
        let (digits, after) := afterSign.span isDigit
        if digits = [] then none
        else some ((if negative then -1 else 1) * (digitsValue digits : ℤ), after)
      else none
  | [] => none

def strtodPrefix (text : List Char) : Option (ℚ × List Char) :=
  let (negative, afterSign) := readSign text
  let (whole, afterWhole) := afterSign.span isDigit
  let (fraction, afterFraction) :=
    match afterWhole with
    | '.' :: rest => rest.span isDigit
    | _ => ([], afterWhole)
  let afterPoint := match afterWhole with
    | '.' :: _ => if whole = [] ∧ fraction = [] then afterWhole else afterFraction
    | _ => afterWhole
  if whole = [] ∧ fraction = [] then none else
  let (exponent, rest) := (readExponent afterPoint).getD (0, afterPoint)
  let magnitude : ℚ := digitsValue (whole ++ fraction) * 10 ^ (exponent - fraction.length)
  some (if negative then -magnitude else magnitude, rest)

def roundAt (exponent : ℤ) (magnitude : ℚ) : ℚ :=
  (roundHalfEven (magnitude / 2 ^ exponent) : ℚ) * 2 ^ exponent

/-- `strtod`'s rounding to a `double`; `none` where it sets `ERANGE`: on overflow, and on an
inexact result that is still below `2 ^ -1022` once rounded to 53 bits with an unbounded
exponent (glibc detects tininess after rounding). -/
def roundBinary64 (q : ℚ) : Option ℚ :=
  if q = 0 then some 0 else
  let magnitude := |q|
  let rounded := roundAt (max (Int.log 2 magnitude) (-1022) - 52) magnitude
  if 2 ^ 1024 ≤ rounded then none
  else if roundAt (Int.log 2 magnitude - 52) magnitude < 2 ^ (-1022 : ℤ) ∧ rounded ≠ magnitude
  then none
  else some (if q < 0 then -rounded else rounded)

/-- `std::stod`: the longest decimal prefix, rounded to a `double`; `none` where `stod` throws
`invalid_argument` (no conversion) or `out_of_range`. -/
def stod (text : List Char) : Option ℚ :=
  (strtodPrefix text).bind fun (value, _) => roundBinary64 value

example : stod "2.2250738585072013e-308".toList = some (2 ^ (-1022 : ℤ)) := by decide +kernel

example : stod "4.9e-324".toList = none := by decide +kernel

/-! ## The shape of `%g` text -/

theorem isDigit_of_mem_toDigits {n : ℕ} {c : Char} (member : c ∈ Nat.toDigits 10 n) :
    isDigit c = true :=
  Nat.isDigit_of_mem_toDigits (by decide) (by decide) member

theorem digits_zero : ∀ c ∈ ['0'], isDigit c = true := by
  intro c member
  rw [List.mem_singleton.mp member]
  rfl

def FractionPart (fraction : List Char) : Prop :=
  fraction = [] ∨ ∃ digits, fraction = '.' :: digits ∧ ∀ c ∈ digits, isDigit c = true

def ExponentPart (exponent : List Char) : Prop :=
  exponent = [] ∨ ∃ sign digits, exponent = 'e' :: sign :: digits ∧
    (sign = '+' ∨ sign = '-') ∧ ∀ c ∈ digits, isDigit c = true

structure DecimalParts (sign whole fraction exponent : List Char) : Prop where
  signed : sign = [] ∨ sign = ['-']
  nonempty : whole ≠ []
  digits : ∀ c ∈ whole, isDigit c = true
  fractionPart : FractionPart fraction
  exponentPart : ExponentPart exponent

theorem fractionPart_fractionText {digits : List Char}
    (allDigits : ∀ c ∈ digits, isDigit c = true) :
    FractionPart (fractionText digits) := by
  unfold fractionText
  split
  · exact .inl rfl
  · refine .inr ⟨_, rfl, fun c member => allDigits c ?_⟩
    rw [stripTrailingZeros, List.mem_reverse] at member
    exact List.mem_reverse.mp ((List.dropWhile_suffix _).subset member)

theorem exponentPart_exponentText (exponent : ℤ) : ExponentPart (exponentText exponent) := by
  refine .inr ⟨_, _, rfl, by split <;> simp, fun c member => ?_⟩
  split at member
  · rcases List.mem_cons.mp member with zero | member
    · rw [zero]; rfl
    · exact isDigit_of_mem_toDigits member
  · exact isDigit_of_mem_toDigits member

theorem formatGeneral_parts (precision : ℕ) (value : ℚ) :
    ∃ sign whole fraction exponent, DecimalParts sign whole fraction exponent ∧
      formatGeneral precision value = sign ++ whole ++ fraction ++ exponent := by
  have sign :
      (if value < 0 then ['-'] else []) = [] ∨ (if value < 0 then ['-'] else []) = ['-'] := by
    split <;> simp
  simp only [formatGeneral]
  by_cases zero : value = 0
  · rw [if_pos zero]
    exact ⟨[], ['0'], [], [], ⟨.inl rfl, by simp, digits_zero, .inl rfl, .inl rfl⟩, rfl⟩
  · rw [if_neg zero]
    generalize significand (max precision 1) |value| = pair
    obtain ⟨digits, exponent⟩ := pair
    have textDigits : ∀ c ∈ Nat.toDigits 10 digits, isDigit c = true :=
      fun c member => isDigit_of_mem_toDigits member
    have textNonempty : Nat.toDigits 10 digits ≠ [] :=
      List.ne_nil_of_length_pos Nat.length_toDigits_pos
    dsimp only
    split
    · split
      · exact ⟨_, (Nat.toDigits 10 digits).take (exponent.toNat + 1),
          fractionText ((Nat.toDigits 10 digits).drop (exponent.toNat + 1)), [],
          ⟨sign, by simp [List.take_eq_nil_iff, textNonempty],
            fun c member => textDigits c (List.mem_of_mem_take member),
            fractionPart_fractionText fun c member => textDigits c (List.mem_of_mem_drop member),
            .inl rfl⟩, by simp⟩
      · -- a leading `0.` and zeros before the digits
        have padded :
            ∀ c ∈ List.replicate ((-exponent).toNat - 1) '0' ++ Nat.toDigits 10 digits,
              isDigit c = true := by
          intro c member
          rcases List.mem_append.mp member with zero | member
          · rw [List.eq_of_mem_replicate zero]
            rfl
          · exact textDigits c member
        exact ⟨_, ['0'], _, [], ⟨sign, by simp, digits_zero, fractionPart_fractionText padded,
          .inl rfl⟩, by simp⟩
    · exact ⟨_, (Nat.toDigits 10 digits).take 1, fractionText ((Nat.toDigits 10 digits).drop 1),
        exponentText exponent, ⟨sign, by simp [List.take_eq_nil_iff, textNonempty],
          fun c member => textDigits c (List.mem_of_mem_take member),
          fractionPart_fractionText fun c member => textDigits c (List.mem_of_mem_drop member),
          exponentPart_exponentText exponent⟩, rfl⟩

/-! ## Integers -/

theorem roundHalfEven_intCast (z : ℤ) : roundHalfEven z = z := by
  rw [roundHalfEven, Int.floor_intCast, sub_self, if_pos (by norm_num)]

theorem digitsValue_append_digit (digits : List Char) (c : Char) :
    digitsValue (digits ++ [c]) = digitsValue digits * 10 + (c.toNat - '0'.toNat) := by
  rw [digitsValue, List.foldl_append]
  rfl

theorem digitsValue_toDigits (n : ℕ) : digitsValue (Nat.toDigits 10 n) = n := by
  induction n using Nat.strongRecOn with
  | ind n ih =>
      by_cases small : n < 10
      · rw [Nat.toDigits_of_lt_base small]
        show 0 * 10 + ((Nat.digitChar n).toNat - 48) = n
        rw [Nat.toNat_digitChar_sub_48_of_lt_ten small]
        omega
      · rw [Nat.toDigits_of_base_le (by decide) (by omega), digitsValue_append_digit,
          ih (n / 10) (by omega)]
        show n / 10 * 10 + ((Nat.digitChar (n % 10)).toNat - 48) = n
        rw [Nat.toNat_digitChar_sub_48_of_lt_ten (Nat.mod_lt n (by decide))]
        omega

theorem toDigits_mul_pow {a : ℕ} (positive : 0 < a) (zeros : ℕ) :
    Nat.toDigits 10 (a * 10 ^ zeros) = Nat.toDigits 10 a ++ List.replicate zeros '0' := by
  induction zeros with
  | zero => rw [pow_zero, Nat.mul_one, List.replicate_zero, List.append_nil]
  | succ zeros ih =>
      have shifted : a * 10 ^ (zeros + 1) = 10 * (a * 10 ^ zeros) + 0 := by ring
      rw [shifted, ← Nat.toDigits_append_toDigits (by decide) (by positivity) (by decide), ih,
        Nat.toDigits_zero, List.replicate_succ', List.append_assoc]

theorem length_toDigits {n k : ℕ} (lower : 10 ^ k ≤ n) (upper : n < 10 ^ (k + 1)) :
    (Nat.toDigits 10 n).length = k + 1 := by
  induction k generalizing n with
  | zero => rw [Nat.toDigits_of_lt_base (by simpa using upper)]; rfl
  | succ k ih =>
      have big : 10 ≤ n := le_trans (Nat.le_self_pow (by omega) 10) lower
      have lowerTen : 10 ^ k ≤ n / 10 :=
        (Nat.le_div_iff_mul_le (by decide)).mpr (by rw [← pow_succ]; exact lower)
      have upperTen : n / 10 < 10 ^ (k + 1) :=
        Nat.div_lt_of_lt_mul (by rw [← pow_succ']; exact upper)
      rw [Nat.toDigits_of_base_le (by decide) big, List.length_append, List.length_singleton,
        ih lowerTen upperTen]

theorem fractionText_zeros (zeros : ℕ) : fractionText (List.replicate zeros '0') = [] := by
  have stripped : stripTrailingZeros (List.replicate zeros '0') = [] := by
    rw [stripTrailingZeros, List.reverse_replicate, List.dropWhile_replicate, if_pos (by decide),
      List.reverse_nil]
  rw [fractionText, stripped]

theorem roundHalfEven_natCast (m : ℕ) : roundHalfEven m = m := by
  have exact := roundHalfEven_intCast m
  rwa [Int.cast_natCast] at exact

theorem significand_natCast {precision n : ℕ} (positive : 0 < n) (small : n < 10 ^ precision) :
    significand precision (n : ℚ) =
      (n * 10 ^ (precision - 1 - Nat.log 10 n), (Nat.log 10 n : ℤ)) := by
  have below : Nat.log 10 n < precision := Nat.log_lt_of_lt_pow (by omega) small
  have upper : n < 10 ^ (Nat.log 10 n + 1) := Nat.lt_pow_succ_log_self (by decide) n
  have scaled : (n : ℚ) / 10 ^ ((Nat.log 10 n : ℤ) - ((precision - 1 : ℕ) : ℤ)) =
      ((n * 10 ^ (precision - 1 - Nat.log 10 n) : ℕ) : ℚ) := by
    have exponent : (Nat.log 10 n : ℤ) - ((precision - 1 : ℕ) : ℤ) =
        -((precision - 1 - Nat.log 10 n : ℕ) : ℤ) := by omega
    rw [exponent, zpow_neg, zpow_natCast, div_inv_eq_mul]
    push_cast
    ring
  have padded : n * 10 ^ (precision - 1 - Nat.log 10 n) < 10 ^ precision :=
    calc n * 10 ^ (precision - 1 - Nat.log 10 n)
        < 10 ^ (Nat.log 10 n + 1) * 10 ^ (precision - 1 - Nat.log 10 n) :=
          Nat.mul_lt_mul_of_pos_right upper (by positivity)
      _ = 10 ^ precision := by rw [← pow_add]; congr 1; omega
  have noCarry : ((n * 10 ^ (precision - 1 - Nat.log 10 n) : ℕ) : ℤ) ≠ 10 ^ precision := by
    intro same
    have : n * 10 ^ (precision - 1 - Nat.log 10 n) = 10 ^ precision := by exact_mod_cast same
    omega
  rw [significand, Int.log_natCast, scaled, roundHalfEven_natCast, if_neg noCarry,
    Int.toNat_natCast]

theorem formatGeneral_intCast {precision : ℕ} {z : ℤ} (nonzero : z ≠ 0)
    (small : z.natAbs < 10 ^ precision) :
    formatGeneral precision z = (if z < 0 then ['-'] else []) ++ Nat.toDigits 10 z.natAbs := by
  have positive : 0 < z.natAbs := Int.natAbs_pos.mpr nonzero
  have precisionPos : 1 ≤ precision := by
    by_contra zero
    rw [show precision = 0 by omega, pow_zero] at small
    omega
  have below : Nat.log 10 z.natAbs < precision := Nat.log_lt_of_lt_pow (by omega) small
  have length : (Nat.toDigits 10 z.natAbs).length = Nat.log 10 z.natAbs + 1 :=
    length_toDigits (Nat.pow_log_le_self 10 (by omega)) (Nat.lt_pow_succ_log_self (by decide) _)
  have magnitude : |(z : ℚ)| = (z.natAbs : ℚ) := by
    rw [Nat.cast_natAbs, Int.cast_abs]
  simp only [formatGeneral]
  rw [max_eq_left precisionPos, if_neg (Int.cast_ne_zero.mpr nonzero), magnitude,
    significand_natCast positive small]
  dsimp only
  rw [if_pos ⟨by omega, by omega⟩, if_pos (by omega), Int.toNat_natCast,
    toDigits_mul_pow positive, List.take_left' length, List.drop_left' length, fractionText_zeros, List.append_nil]
  simp only [Int.cast_lt_zero]

theorem span_append_of_all {α : Type} {p : α → Bool} {front rest : List α}
    (all : ∀ x ∈ front, p x = true) (stops : ∀ x more, rest = x :: more → p x = false) :
    (front ++ rest).span p = (front, rest) := by
  rw [List.span_eq_takeWhile_dropWhile, List.takeWhile_append_of_pos all,
    List.dropWhile_append_of_pos all]
  cases rest with
  | nil => rw [List.takeWhile_nil, List.dropWhile_nil, List.append_nil]
  | cons x more =>
      have stop := stops x more rfl
      rw [List.takeWhile_cons_of_neg (by simp [stop]), List.dropWhile_cons_of_neg (by simp [stop]),
        List.append_nil]

theorem readSign_digit {d : Char} (digit : isDigit d = true) (rest : List Char) :
    readSign (d :: rest) = (false, d :: rest) := by
  have notSign : d ≠ '-' ∧ d ≠ '+' := by
    constructor <;> (rintro rfl; exact absurd digit (by decide))
  unfold readSign
  split
  · rename_i more same
    exact absurd (List.cons.inj same).1 notSign.1
  · rename_i more same
    exact absurd (List.cons.inj same).1 notSign.2
  · rfl

theorem strtodPrefix_digits (negative : Bool) (n : ℕ) :
    strtodPrefix ((if negative then ['-'] else []) ++ Nat.toDigits 10 n) =
      some (if negative then -(n : ℚ) else n, []) := by
  have digits : ∀ c ∈ Nat.toDigits 10 n, isDigit c = true :=
    fun c member => isDigit_of_mem_toDigits member
  have nonempty : Nat.toDigits 10 n ≠ [] := List.ne_nil_of_length_pos Nat.length_toDigits_pos
  have sign : readSign ((if negative then ['-'] else []) ++ Nat.toDigits 10 n) =
      (negative, Nat.toDigits 10 n) := by
    cases negative with
    | false =>
        obtain ⟨d, more, text⟩ := List.exists_cons_of_ne_nil nonempty
        rw [if_neg Bool.false_ne_true, List.nil_append, text,
          readSign_digit (digits d (by rw [text]; exact List.mem_cons_self))]
    | true => rfl
  have whole : (Nat.toDigits 10 n).span isDigit = (Nat.toDigits 10 n, []) := by
    have spanned : (Nat.toDigits 10 n ++ []).span isDigit = (Nat.toDigits 10 n, []) :=
      span_append_of_all digits fun _ _ empty => nomatch empty
    rwa [List.append_nil] at spanned
  rw [List.span_eq_takeWhile_dropWhile, Prod.mk.injEq] at whole
  simp [strtodPrefix, sign, whole.1, whole.2, nonempty, readExponent, digitsValue_toDigits]

theorem roundBinary64_intCast {z : ℤ} (exact : z.natAbs < 2 ^ 53) :
    roundBinary64 (z : ℚ) = some (z : ℚ) := by
  by_cases zero : z = 0
  · subst zero
    simp [roundBinary64]
  have positive : 0 < z.natAbs := Int.natAbs_pos.mpr zero
  have binade : Nat.log 2 z.natAbs < 53 := Nat.log_lt_of_lt_pow (by omega) exact
  have magnitude : |(z : ℚ)| = (z.natAbs : ℚ) := by
    rw [Nat.cast_natAbs, Int.cast_abs]
  have quantum : (2 : ℚ) ^ (max (Int.log 2 (z.natAbs : ℚ)) (-1022) - 52) =
      ((2 ^ (52 - Nat.log 2 z.natAbs) : ℕ) : ℚ)⁻¹ := by
    have exponent : (Nat.log 2 z.natAbs : ℤ) - 52 = -((52 - Nat.log 2 z.natAbs : ℕ) : ℤ) := by
      omega
    rw [Int.log_natCast, max_eq_left (by omega), exponent, zpow_neg, zpow_natCast]
    push_cast
    rfl
  have scaled : (z.natAbs : ℚ) / ((2 ^ (52 - Nat.log 2 z.natAbs) : ℕ) : ℚ)⁻¹ =
      ((z.natAbs * 2 ^ (52 - Nat.log 2 z.natAbs) : ℕ) : ℚ) := by
    rw [div_inv_eq_mul]
    push_cast
    ring
  have product : ((z.natAbs * 2 ^ (52 - Nat.log 2 z.natAbs) : ℕ) : ℚ) *
      ((2 ^ (52 - Nat.log 2 z.natAbs) : ℕ) : ℚ)⁻¹ = z.natAbs := by
    push_cast
    field_simp
  have rounded :
      roundAt (max (Int.log 2 (z.natAbs : ℚ)) (-1022) - 52) (z.natAbs : ℚ) = z.natAbs := by
    rw [roundAt, quantum, scaled, roundHalfEven_natCast, Int.cast_natCast, product]
  have inRange : ¬(2 : ℚ) ^ 1024 ≤ z.natAbs := by
    have below : (z.natAbs : ℚ) < 2 ^ 53 := by exact_mod_cast exact
    exact not_le.mpr (lt_of_lt_of_le below (pow_le_pow_right₀ (by norm_num) (by norm_num)))
  have exactly : ¬(roundAt (Int.log 2 (z.natAbs : ℚ) - 52) (z.natAbs : ℚ) < 2 ^ (-1022 : ℤ) ∧
      (z.natAbs : ℚ) ≠ z.natAbs) :=
    fun ⟨_, different⟩ => different rfl
  unfold roundBinary64
  rw [if_neg (Int.cast_ne_zero.mpr zero)]
  dsimp only
  rw [magnitude, rounded, if_neg inRange, if_neg exactly]
  by_cases negative : (z : ℚ) < 0
  · rw [if_pos negative, Nat.cast_natAbs, Int.cast_abs, abs_of_neg negative, neg_neg]
  · rw [if_neg negative, Nat.cast_natAbs, Int.cast_abs, abs_of_nonneg (not_lt.mp negative)]

theorem stod_formatGeneral_intCast {precision : ℕ} {z : ℤ} (small : z.natAbs < 10 ^ precision)
    (exact : z.natAbs < 2 ^ 53) : stod (formatGeneral precision z) = some (z : ℚ) := by
  by_cases zero : z = 0
  · subst zero
    have text : formatGeneral precision ((0 : ℤ) : ℚ) =
        (if false then ['-'] else []) ++ Nat.toDigits 10 0 := by
      simp [formatGeneral]
    rw [stod, text, strtodPrefix_digits]
    simp [roundBinary64]
  · rw [stod, formatGeneral_intCast zero small]
    by_cases negative : z < 0
    · have read := strtodPrefix_digits true z.natAbs
      rw [if_pos rfl, if_pos rfl] at read
      rw [if_pos negative, read, Option.bind_some]
      dsimp only
      have value : -(z.natAbs : ℚ) = z := by
        rw [Nat.cast_natAbs, Int.cast_abs, abs_of_neg (Int.cast_lt_zero.mpr negative), neg_neg]
      rw [value, roundBinary64_intCast exact]
    · have read := strtodPrefix_digits false z.natAbs
      rw [if_neg Bool.false_ne_true, if_neg Bool.false_ne_true] at read
      rw [if_neg negative, read, Option.bind_some]
      dsimp only
      have value : (z.natAbs : ℚ) = z := by
        rw [Nat.cast_natAbs, Int.cast_abs,
          abs_of_nonneg (Int.cast_nonneg_iff.mpr (not_lt.mp negative))]
      rw [value, roundBinary64_intCast exact]

end NumberFormat
