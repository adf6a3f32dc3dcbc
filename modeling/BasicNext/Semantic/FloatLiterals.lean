import BasicNext.Lib.FloatingPoint
import BasicNext.Semantic.TypeNames

/-!
# Integer literals as floating-point literals

`bn_types::literals`: an integer literal takes a floating-point type if its value survives the conversion there and
back. The conversion back saturates.
-/

namespace BasicNext.Semantic

open Lib (Number Format)

def formatOf : FloatType → Format
  | .float32 => .binary32
  | .float64 => .binary64

/-! ### The conversion -/

/-- A conversion to `i128`. -/
def toInt128 (number : Number) : Int := number.saturate (-2 ^ 127) (2 ^ 127 - 1)

/-- The negation of an `i128` as a release build has it. -/
def wrappingNeg (value : Int) : Int := (-value).bmod (2 ^ 128)

def integerLiteralAsFloat (text : String) (kind : FloatType) : Option String := do
  let (negative, digits) := match text.toList with
    | '-' :: digits => (true, digits)
    | digits => (false, digits)
  let magnitude ← parseInteger (String.ofList digits)
  let value := if negative then wrappingNeg magnitude else magnitude
  -- Equal only when no bits were lost.
  if toInt128 ((formatOf kind).round (.finite value)) = value then some (toString value ++ ".0") else none

/-! ### Literals -/

inductive Radix where
  | binary | decimal | hexadecimal
deriving DecidableEq, Repr

namespace Radix

def base : Radix → Nat
  | binary => 2
  | decimal => 10
  | hexadecimal => 16

def mark : Radix → List Char
  | binary => ['0', 'b']
  | decimal => []
  | hexadecimal => ['0', 'x']

end Radix

/-- An integer literal, or the negative of one. -/
structure IntegerLiteral where
  negative : Bool
  radix : Radix
  digits : List Char
  nonempty : digits ≠ []
  valid : ∀ digit ∈ digits, (digitOf radix.base digit).isSome = true

def digitsValue (radix : Nat) (digits : List Char) : Nat :=
  digits.foldl (fun value digit => value * radix + (digitOf radix digit).getD 0) 0

namespace IntegerLiteral

variable (literal : IntegerLiteral)

def magnitude : Nat := digitsValue literal.radix.base literal.digits

def value : Int := if literal.negative then -literal.magnitude else literal.magnitude

def unsigned : List Char := literal.radix.mark ++ literal.digits

def text : String := String.ofList (if literal.negative then '-' :: literal.unsigned else literal.unsigned)

/-- The value fits 128 bits. -/
def InRange : Prop := -2 ^ 127 ≤ literal.value ∧ literal.value < 2 ^ 127

/-- The literal is a floating-point one exactly when its value is a number of the type, and then of this value. -/
def TakesFloat (kind : FloatType) : Prop :=
  ((integerLiteralAsFloat literal.text kind).isSome = true ↔ (formatOf kind).Representable literal.value) ∧
    ∀ text, integerLiteralAsFloat literal.text kind = some text →
      (Number.ofText text).map (formatOf kind).round = some (.finite literal.value)

end IntegerLiteral

/-! ### Texts -/

theorem parseDigitsFrom_eq {radix : Nat} {digits : List Char}
    (valid : ∀ digit ∈ digits, (digitOf radix digit).isSome = true) (value : Nat) :
    parseDigitsFrom radix value digits =
      some (digits.foldl (fun value digit => value * radix + (digitOf radix digit).getD 0) value) := by
  induction digits generalizing value with
  | nil => rfl
  | cons digit digits ih =>
    obtain ⟨number, found⟩ := Option.isSome_iff_exists.1 (valid digit List.mem_cons_self)
    rw [parseDigitsFrom, found, Option.bind_eq_bind, Option.bind_some,
      ih fun other member => valid other (List.mem_cons_of_mem _ member), List.foldl_cons, found]
    rfl

theorem parseRadix_digits {radix : Nat} {digits : List Char} (nonempty : digits ≠ [])
    (valid : ∀ digit ∈ digits, (digitOf radix digit).isSome = true) :
    parseRadix radix digits =
      if (digitsValue radix digits : Int) < 2 ^ 127 then some (digitsValue radix digits : Int) else none := by
  have unsigned (sign : Char) (other : digitOf radix sign = none) (rest : List Char) : digits ≠ sign :: rest := by
    rintro rfl
    have isDigit := valid sign List.mem_cons_self
    rw [other] at isDigit
    cases isDigit
  have number : parseDigitsFrom radix 0 digits = some (digitsValue radix digits) := parseDigitsFrom_eq valid 0
  have coerced : (parseDigitsFrom radix 0 digits >>= fun value => pure (value : Int)) =
      some (digitsValue radix digits : Int) := by
    rw [number]
    rfl
  have low : -2 ^ 127 ≤ (digitsValue radix digits : Int) := (neg_nonpos.2 (by positivity)).trans (Int.natCast_nonneg _)
  rw [parseRadix, if_neg nonempty, coerced, Option.bind_eq_bind, Option.bind_some]
  · rw [if_neg Bool.false_ne_true]
    by_cases small : (digitsValue radix digits : Int) < 2 ^ 127
    · rw [if_pos ⟨low, small⟩, if_pos small]
    · rw [if_neg fun both => small both.2, if_neg small]
  · exact fun rest => unsigned '-' rfl rest
  · exact fun rest => unsigned '+' rfl rest

theorem parseInteger_unsigned (literal : IntegerLiteral) :
    parseInteger (String.ofList literal.unsigned) =
      if (literal.magnitude : Int) < 2 ^ 127 then some (literal.magnitude : Int) else none := by
  obtain ⟨negative, radix, digits, nonempty, valid⟩ := literal
  rw [parseInteger, String.toList_ofList]
  cases radix with
  | binary => exact parseRadix_digits nonempty valid
  | hexadecimal => exact parseRadix_digits nonempty valid
  | decimal =>
    have unmarked (mark : Char) (other : digitOf Radix.decimal.base mark = none) (zero : Char) (rest : List Char) :
        digits ≠ zero :: mark :: rest := by
      rintro rfl
      have isDigit := valid mark (List.mem_cons_of_mem _ List.mem_cons_self)
      rw [other] at isDigit
      cases isDigit
    have plain : IntegerLiteral.unsigned ⟨negative, .decimal, digits, nonempty, valid⟩ = digits := rfl
    rw [plain]
    split
    next rest => exact absurd rfl (unmarked 'b' rfl '0' rest)
    next rest => exact absurd rfl (unmarked 'x' rfl '0' rest)
    next => exact parseRadix_digits nonempty valid

theorem IntegerLiteral.unsigned_ne (literal : IntegerLiteral) (rest : List Char) : literal.unsigned ≠ '-' :: rest := by
  obtain ⟨negative, radix, digits, nonempty, valid⟩ := literal
  intro same
  cases radix with
  | binary => exact absurd (List.cons.inj same).1 (by decide)
  | hexadecimal => exact absurd (List.cons.inj same).1 (by decide)
  | decimal =>
    obtain rfl : digits = '-' :: rest := same
    have isDigit := valid '-' List.mem_cons_self
    cases isDigit

theorem wrappingNeg_natCast {n : Nat} (small : (n : Int) < 2 ^ 127) : wrappingNeg n = -n := by
  unfold wrappingNeg
  apply Int.bmod_eq_of_le <;> omega

theorem integerLiteralAsFloat_text (literal : IntegerLiteral) (kind : FloatType) :
    integerLiteralAsFloat literal.text kind =
      if (literal.magnitude : Int) < 2 ^ 127 ∧ toInt128 ((formatOf kind).round (.finite literal.value)) = literal.value then
        some (toString literal.value ++ ".0")
      else none := by
  have unsigned (rest : List Char) : literal.unsigned ≠ '-' :: rest := literal.unsigned_ne rest
  have split : (match literal.text.toList with
      | '-' :: digits => (true, digits)
      | digits => (false, digits)) = (literal.negative, literal.unsigned) := by
    rw [IntegerLiteral.text, String.toList_ofList]
    cases literal.negative with
    | true => rfl
    | false =>
      rw [if_neg nofun]
      split
      next rest same => exact absurd same (unsigned rest)
      next => rfl
  unfold integerLiteralAsFloat
  rw [split]
  dsimp only
  rw [parseInteger_unsigned]
  by_cases small : (literal.magnitude : Int) < 2 ^ 127
  · have value : (if literal.negative = true then wrappingNeg literal.magnitude else literal.magnitude) = literal.value := by
      rw [wrappingNeg_natCast small]
      rfl
    simp only [small, if_true, Option.bind_eq_bind, Option.bind_some, value, true_and]
  · simp only [small, if_false, Option.bind_eq_bind, Option.bind_none, false_and]

/-! ### There and back -/

theorem formatOf_bounds (kind : FloatType) :
    (formatOf kind).precision + 2 ≤ 127 ∧ (formatOf kind).least ≤ 0 ∧ (2 : ℚ) ^ 127 ≤ (formatOf kind).largest := by
  cases kind with
  | float32 => exact ⟨by decide, by decide, by norm_num [formatOf, Format.binary32]⟩
  | float64 =>
    refine ⟨by decide, by decide, ?_⟩
    calc (2 : ℚ) ^ 127 ≤ 2 ^ 971 := pow_le_pow_right₀ one_le_two (by norm_num)
      _ ≤ (2 ^ 53 - 1) * 2 ^ 971 := le_mul_of_one_le_left (by positivity) (by norm_num)

theorem truncate_intCast (n : Int) : Number.truncate n = n := by
  unfold Number.truncate
  rw [Int.floor_intCast, Int.ceil_intCast, ite_self]

theorem toInt128_round {kind : FloatType} {value : Int} (small : |value| < 2 ^ 127) :
    toInt128 ((formatOf kind).round (.finite value)) = value ↔
      (formatOf kind).Representable value ∨ value = 2 ^ 127 - 1 := by
  obtain ⟨wide, least, largest⟩ := formatOf_bounds kind
  have bound : |(value : ℚ)| < 2 ^ 127 := by exact_mod_cast small
  have kept : |(formatOf kind).nearest value| ≤ 2 ^ 127 := Format.abs_nearest_le (by omega) bound
  obtain ⟨number, integral⟩ := (formatOf kind).nearest_intCast value
  have finite : (formatOf kind).round (.finite value) = .finite number := by
    rw [Format.round, if_neg (not_lt.2 (kept.trans largest)), integral]
  have range : -2 ^ 127 ≤ number ∧ number ≤ 2 ^ 127 := by
    rw [integral] at kept
    exact abs_le.1 (by exact_mod_cast kept)
  have representable : (formatOf kind).Representable value ↔ number = value := by
    rw [Format.representable_iff, integral]
    have fits : |(value : ℚ)| ≤ (formatOf kind).largest := bound.le.trans largest
    simp only [fits, true_and, Int.cast_inj]
  have last : value = 2 ^ 127 - 1 → number = 2 ^ 127 := by
    rintro rfl
    have rounded : (formatOf kind).nearest (2 ^ 127 - 1) = 2 ^ 127 := Format.nearest_pred_two_pow wide least
    simp only [Int.cast_sub, Int.cast_pow, Int.cast_ofNat, Int.cast_one] at integral
    rw [rounded] at integral
    exact_mod_cast integral.symm
  rw [finite, toInt128, Number.saturate, truncate_intCast, representable]
  have limits := abs_lt.1 small
  generalize (2 : Int) ^ 127 = power at *
  omega

/-! ### Values of literals -/

theorem toString_toList (value : Int) :
    (toString value).toList = if value < 0 then '-' :: Nat.toDigits 10 value.natAbs else Nat.toDigits 10 value.natAbs := by
  cases value with
  | ofNat n => exact String.toList_ofList
  | negSucc n =>
    show ("-" ++ Nat.repr (n + 1)).toList = _
    rw [String.toList_append, Nat.repr, String.toList_ofList, String.toList_ofList, if_pos (Int.negSucc_lt_zero n)]
    rfl

theorem toLower_digit {digit : Char} (isDigit : digit.isDigit = true) : digit.toLower = digit := by
  unfold Char.toLower
  rw [dif_neg]
  rintro ⟨upper, -⟩
  rw [Char.isDigit, Bool.and_eq_true, decide_eq_true_eq, decide_eq_true_eq] at isDigit
  have low : 65 ≤ digit.val.toNat := UInt32.le_iff_toNat_le.1 upper
  have high : digit.val.toNat ≤ 57 := UInt32.le_iff_toNat_le.1 isDigit.2
  omega

theorem ofText_toString (value : Int) : Number.ofText (toString value ++ ".0") = some (.finite value) := by
  have all (digit : Char) (member : digit ∈ Nat.toDigits 10 value.natAbs) : digit.isDigit = true :=
    Nat.isDigit_of_mem_toDigits (by omega) (by omega) member
  have lower : (Nat.toDigits 10 value.natAbs ++ ['.', '0']).map Char.toLower =
      Nat.toDigits 10 value.natAbs ++ ['.', '0'] := by
    rw [List.map_append, List.map_congr_left fun digit member => toLower_digit (all digit member), List.map_id']
    rfl
  have number := Number.ofUnsigned_digits all
  rw [Nat.ofDigitChars_toDigits (by omega) (by omega)] at number
  have text : (toString value ++ ".0").toList = if value < 0 then '-' :: (Nat.toDigits 10 value.natAbs ++ ['.', '0'])
      else Nat.toDigits 10 value.natAbs ++ ['.', '0'] := by
    rw [String.toList_append, toString_toList]
    split <;> rfl
  unfold Number.ofText
  rw [text]
  by_cases negative : value < 0
  · rw [if_pos negative, List.map_cons, lower]
    show (Number.ofUnsigned (Nat.toDigits 10 value.natAbs ++ ['.', '0'])).map Number.neg = _
    rw [number]
    have magnitude : ((value.natAbs : Int) : ℚ) = -value := by
      rw [← Int.cast_neg]
      congr 1
      omega
    show some (Number.finite (-((value.natAbs : Nat) : ℚ))) = _
    rw [← Int.cast_natCast, magnitude, neg_neg]
  · rw [if_neg negative, lower]
    have unsigned (sign : Char) (other : sign.isDigit = false) (rest : List Char) :
        Nat.toDigits 10 value.natAbs ++ ['.', '0'] ≠ sign :: rest := by
      intro same
      obtain ⟨head, tail, cons⟩ := List.exists_cons_of_ne_nil (Nat.toDigits_ne_nil (b := 10) (n := value.natAbs))
      have digit := all head (by rw [cons]; exact List.mem_cons_self)
      rw [cons, List.cons_append] at same
      rw [(List.cons.inj same).1, other] at digit
      cases digit
    have magnitude : ((value.natAbs : Int) : ℚ) = value := by
      congr 1
      omega
    split
    next rest same => exact absurd same (unsigned '-' rfl rest)
    next rest same => exact absurd same (unsigned '+' rfl rest)
    next => rw [number, ← Int.cast_natCast, magnitude]

/-! ### Literals that take a type -/

theorem round_of_representable {format : Format} {x : ℚ} (representable : format.Representable x) :
    format.round (.finite x) = .finite x := by
  obtain ⟨small, same⟩ := Format.representable_iff.1 representable
  rw [Format.round, same, if_neg (not_lt.2 small)]

theorem representable_ends (kind : FloatType) :
    ¬(formatOf kind).Representable ((2 ^ 127 - 1 : Int) : ℚ) ∧ (formatOf kind).Representable ((-2 ^ 127 : Int) : ℚ) := by
  obtain ⟨wide, least, largest⟩ := formatOf_bounds kind
  constructor
  · intro representable
    have same := (Format.representable_iff.1 representable).2
    simp only [Int.cast_sub, Int.cast_pow, Int.cast_ofNat, Int.cast_one] at same
    rw [Format.nearest_pred_two_pow wide least] at same
    linarith
  · simp only [Int.cast_neg, Int.cast_pow, Int.cast_ofNat]
    have one : (1 : Int) < 2 ^ (formatOf kind).precision := one_lt_pow₀ (by decide) (formatOf kind).positive.ne'
    refine ⟨?_, -1, 127, by simpa using one, by omega, ?_⟩
    · rw [abs_neg, abs_of_pos (by positivity)]
      exact largest
    · rw [Int.cast_neg, Int.cast_one, neg_one_mul]
      rfl

namespace IntegerLiteral

variable {literal : IntegerLiteral} {kind : FloatType}

theorem value_cases (literal : IntegerLiteral) :
    literal.value = literal.magnitude ∨ literal.value = -literal.magnitude := by
  unfold value
  split
  · exact .inr rfl
  · exact .inl rfl

theorem not_takesFloat_of_largest (largest : literal.value = 2 ^ 127 - 1) : ¬literal.TakesFloat kind := by
  rintro ⟨taken, -⟩
  have positive : (0 : Int) < 2 ^ 127 := by positivity
  have small : |literal.value| < 2 ^ 127 := by
    rw [largest, abs_of_nonneg] <;> omega
  have fits : (literal.magnitude : Int) < 2 ^ 127 := by
    rcases literal.value_cases with same | same <;> omega
  have survives : toInt128 ((formatOf kind).round (.finite literal.value)) = literal.value :=
    (toInt128_round small).2 (.inr largest)
  rw [integerLiteralAsFloat_text, if_pos ⟨fits, survives⟩, largest] at taken
  exact (representable_ends kind).1 (taken.1 rfl)

theorem not_takesFloat_of_smallest (smallest : literal.value = -2 ^ 127) : ¬literal.TakesFloat kind := by
  rintro ⟨taken, -⟩
  have wide : ¬(literal.magnitude : Int) < 2 ^ 127 := by
    rcases literal.value_cases with same | same <;> omega
  rw [integerLiteralAsFloat_text, if_neg fun both => wide both.1, smallest] at taken
  exact nomatch taken.2 (representable_ends kind).2

theorem takesFloat_of_inside (small : |literal.value| < 2 ^ 127) (notLargest : literal.value ≠ 2 ^ 127 - 1) :
    literal.TakesFloat kind := by
  have fits : (literal.magnitude : Int) < 2 ^ 127 := by
    have limits := abs_lt.1 small
    rcases literal.value_cases with same | same <;> omega
  have survives : toInt128 ((formatOf kind).round (.finite literal.value)) = literal.value ↔
      (formatOf kind).Representable literal.value := by
    rw [toInt128_round small, or_iff_left notLargest]
  have found := integerLiteralAsFloat_text literal kind
  by_cases representable : (formatOf kind).Representable literal.value
  · rw [if_pos ⟨fits, survives.2 representable⟩] at found
    refine ⟨?_, fun text same => ?_⟩
    · rw [found]
      exact iff_of_true rfl representable
    · rw [found] at same
      cases same
      rw [ofText_toString, Option.map_some, round_of_representable representable]
  · rw [if_neg fun both => representable (survives.1 both.2)] at found
    refine ⟨?_, fun text same => ?_⟩
    · rw [found]
      exact iff_of_false nofun representable
    · rw [found] at same
      cases same

/-- A literal of 128 bits is converted by its value but at the two ends of the range: the conversion back takes the
largest integer for the power of two it was rounded to, and the magnitude of the smallest one does not fit. -/
theorem takesFloat_iff (literal : IntegerLiteral) (kind : FloatType) (inRange : literal.InRange) :
    literal.TakesFloat kind ↔ literal.value ≠ 2 ^ 127 - 1 ∧ literal.value ≠ -2 ^ 127 := by
  constructor
  · intro taken
    exact ⟨fun largest => not_takesFloat_of_largest largest taken, fun smallest => not_takesFloat_of_smallest smallest taken⟩
  · rintro ⟨notLargest, notSmallest⟩
    obtain ⟨low, high⟩ := inRange
    apply takesFloat_of_inside _ notLargest
    rw [abs_lt]
    omega

/-- `16777217`: the first positive integer that is no number of 32 bits. -/
def oddLiteral : IntegerLiteral := ⟨false, .decimal, "16777217".toList, by decide,
  List.all_eq_true.1 (show "16777217".toList.all (fun digit => (digitOf 10 digit).isSome) = true by decide)⟩

theorem takesFloat_oddLiteral : oddLiteral.TakesFloat .float32 := by
  have value : oddLiteral.value = 16777217 := rfl
  apply (takesFloat_iff oddLiteral .float32 _).2
  · rw [value]
    constructor <;> norm_num
  · unfold InRange
    rw [value]
    constructor <;> norm_num

/-- `170141183460469231731687303715884105727` -/
def largestLiteral : IntegerLiteral :=
  ⟨false, .decimal, "170141183460469231731687303715884105727".toList, by decide, List.all_eq_true.1
    (show "170141183460469231731687303715884105727".toList.all (fun digit => (digitOf 10 digit).isSome) = true by decide)⟩

theorem not_takesFloat : ¬∀ (literal : IntegerLiteral) (kind : FloatType), literal.InRange → literal.TakesFloat kind := by
  intro takes
  have value : largestLiteral.value = 2 ^ 127 - 1 := by
    have digits : largestLiteral.value = 170141183460469231731687303715884105727 := rfl
    rw [digits]
    norm_num
  refine not_takesFloat_of_largest value (takes largestLiteral .float64 ?_)
  unfold InRange
  rw [value]
  constructor <;> norm_num

end IntegerLiteral

end BasicNext.Semantic
