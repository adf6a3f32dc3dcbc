import BasicNext.Interp.Executor
import Mathlib.Algebra.Order.Group.Abs

/-!
# What integer operators answer

The language defines its integer operators by mathematics: the exact result when the type holds it, the
Euclidean quotient and remainder, and the bits at the width of the type. The interpreter computes with 128
bits and checks; this module proves that it answers what the language says.
-/

namespace BasicNext.Interp

open Lib

/-! ### The operators of the language -/

/-- What an operator answers. -/
inductive Outcome where
  | value (n : Int)
  | truth (holds : Bool)
  | overflow
  | divisionByZero
  | invalidExponent
  | invalidShiftCount
deriving DecidableEq

/-- The answer in the terms of the interpreter; an integer is one of the type. -/
inductive Answers (kind : IntegerType) : Result → Outcome → Prop
  | value {n : Int} : kind.word.InRange n → Answers kind (.ok (.integer n kind)) (.value n)
  | truth {holds : Bool} : Answers kind (.ok (.boolean holds)) (.truth holds)
  | overflow {operation : String} : Answers kind (.error (.numericOverflow operation)) .overflow
  | divisionByZero {operation : String} :
    Answers kind (.error (.divisionByZero operation)) .divisionByZero
  | invalidExponent {message : String} :
    Answers kind (.error (.invalidExponent message)) .invalidExponent
  | invalidShiftCount {message : String} :
    Answers kind (.error (.invalidShiftCount message)) .invalidShiftCount

/-- The exact result, when the type holds it. -/
def exact (kind : IntegerType) (n : Int) : Outcome :=
  if kind.word.InRange n then .value n else .overflow

/-- The unary operators at a type. -/
inductive SpecifiedUnary (kind : IntegerType) : Operator → Int → Outcome → Prop
  | minus {n : Int} : SpecifiedUnary kind .minus n (exact kind (-n))
  | not {n : Int} : SpecifiedUnary kind .not n (.value (kind.word.value (~~~kind.word.bits n)))

/-- The binary operators at a type. -/
inductive Specified (kind : IntegerType) : Operator → Int → Int → Outcome → Prop
  | plus {n m : Int} : Specified kind .plus n m (exact kind (n + m))
  | minus {n m : Int} : Specified kind .minus n m (exact kind (n - m))
  | star {n m : Int} : Specified kind .star n m (exact kind (n * m))
  | power {n : Int} {exponent : Nat} : Specified kind .power n exponent (exact kind (n ^ exponent))
  | negativePower {n m : Int} : m < 0 → Specified kind .power n m .invalidExponent
  | div {n m : Int} (quotient remainder : Int) : n = m * quotient + remainder → 0 ≤ remainder →
      remainder < |m| → Specified kind .div n m (exact kind quotient)
  | percent {n m : Int} (quotient remainder : Int) : n = m * quotient + remainder → 0 ≤ remainder →
      remainder < |m| → Specified kind .percent n m (.value remainder)
  | divByZero {n : Int} : Specified kind .div n 0 .divisionByZero
  | percentByZero {n : Int} : Specified kind .percent n 0 .divisionByZero
  | and {n m : Int} :
    Specified kind .and n m (.value (kind.word.value (kind.word.bits n &&& kind.word.bits m)))
  | or {n m : Int} :
    Specified kind .or n m (.value (kind.word.value (kind.word.bits n ||| kind.word.bits m)))
  | xor {n m : Int} :
    Specified kind .xor n m (.value (kind.word.value (kind.word.bits n ^^^ kind.word.bits m)))
  | shl {n : Int} {count : Nat} : count < kind.width →
      kind.word.back (kind.word.bits n <<< count) count = kind.word.bits n →
      Specified kind .shl n count (.value (kind.word.value (kind.word.bits n <<< count)))
  /-- A set bit is lost or the sign changes. -/
  | shlLost {n : Int} {count : Nat} : count < kind.width →
      kind.word.back (kind.word.bits n <<< count) count ≠ kind.word.bits n →
      Specified kind .shl n count .overflow
  | shr {n : Int} {count : Nat} : count < kind.width →
      Specified kind .shr n count (.value (kind.word.value (kind.word.bits n >>> count)))
  | shiftCount {operator : Operator} {n m : Int} : operator = .shl ∨ operator = .shr →
      m < 0 ∨ kind.width ≤ m → Specified kind operator n m .invalidShiftCount
  | less {n m : Int} : Specified kind .less n m (.truth (n < m))
  | lessEqual {n m : Int} : Specified kind .lessEqual n m (.truth (n ≤ m))
  | greater {n m : Int} : Specified kind .greater n m (.truth (n > m))
  | greaterEqual {n m : Int} : Specified kind .greaterEqual n m (.truth (n ≥ m))
  | assign {n m : Int} : Specified kind .assign n m (.truth (n = m))
  | notEqual {n m : Int} : Specified kind .notEqual n m (.truth (n ≠ m))

/-- The binary operators that integers have; `/` divides as floating point. -/
def integerOperators : List Operator :=
  [.plus, .minus, .star, .power, .div, .percent, .and, .or, .xor, .shl, .shr,
    .less, .lessEqual, .greater, .greaterEqual, .assign, .notEqual]

/-! ### Ranges -/

variable {kind : IntegerType} {n : Int}

theorem integerRange_iff : ((integerRange kind).1 ≤ n ∧ n ≤ (integerRange kind).2) ↔ kind.word.InRange n := by
  cases kind <;> exact Iff.rfl

theorem width_eq (kind : IntegerType) : kind.word.width = kind.width := by
  cases kind <;> rfl

theorem width_le (kind : IntegerType) : kind.width ≤ 64 := by
  cases kind <;> decide

theorem bounds (inRange : kind.word.InRange n) :
    -2 ^ 63 ≤ n ∧ n < 2 ^ 64 := by
  rw [Word.InRange, Word.minimum, Word.maximum] at inRange
  cases kind <;> simp [IntegerType.word] at inRange <;> omega

theorem i128_eq (low : -2 ^ 127 ≤ n) (high : n < 2 ^ 127) : i128 n = some n :=
  if_pos ⟨low, high⟩

variable {n m : Int}

theorem i128_eq_some : i128 n = some m ↔ (-2 ^ 127 ≤ n ∧ n < 2 ^ 127) ∧ n = m := by
  rw [i128]
  split
  next fits => exact ⟨fun same => ⟨fits, Option.some.inj same⟩, fun same => congrArg some same.2⟩
  next fits => exact ⟨nofun, fun same => absurd same.1 fits⟩

theorem checkedInteger_some (kind : IntegerType) (n : Int) :
    Answers kind (checkedInteger (some n) (.integer kind)) (exact kind n) := by
  have unfolded : checkedInteger (some n) (.integer kind) =
      if (integerRange kind).1 ≤ n ∧ n ≤ (integerRange kind).2 then .ok (.integer n kind)
      else .error (.numericOverflow ("converting " ++ toString n ++ " to " ++ kind.name)) := rfl
  rw [unfolded, exact]
  by_cases inRange : kind.word.InRange n
  · rw [if_pos (integerRange_iff.2 inRange), if_pos inRange]
    exact .value inRange
  · rw [if_neg fun fits => inRange (integerRange_iff.1 fits), if_neg inRange]
    exact .overflow

theorem checkedInteger_i128 (kind : IntegerType) (n : Int) :
    Answers kind (checkedInteger (i128 n) (.integer kind)) (exact kind n) := by
  by_cases fits : -2 ^ 127 ≤ n ∧ n < 2 ^ 127
  · rw [i128, if_pos fits]
    exact checkedInteger_some kind n
  · have outside : ¬kind.word.InRange n := by
      intro inRange
      have := bounds inRange
      omega
    rw [i128, if_neg fits, exact, if_neg outside]
    exact .overflow

theorem checkedInteger_value (inRange : kind.word.InRange n) :
    Answers kind (checkedInteger (some n) (.integer kind)) (.value n) := by
  have answers := checkedInteger_some kind n
  rwa [exact, if_pos inRange] at answers

/-! ### Operators -/

/-- The word of `i128`. -/
def wideWord : Word := ⟨true, 128, by decide⟩

theorem bitNot_eq (low : -2 ^ 127 ≤ n) (high : n < 2 ^ 127) : bitNot n = -n - 1 := by
  have wide : wideWord.InRange n := ⟨low, Int.le_sub_one_of_lt high⟩
  exact Word.value_not wide rfl

theorem checkedNeg_eq (inRange : kind.word.InRange n) :
    checkedNeg n = some (-n) := by
  have := bounds inRange
  exact i128_eq (by omega) (by omega)

section

variable {kind : IntegerType} {n m : Int}

theorem checkedAdd_eq (first : kind.word.InRange n) (second : kind.word.InRange m) :
    checkedAdd n m = some (n + m) := by
  have := bounds first
  have := bounds second
  exact i128_eq (by omega) (by omega)

theorem checkedSub_eq (first : kind.word.InRange n) (second : kind.word.InRange m) :
    checkedSub n m = some (n - m) := by
  have := bounds first
  have := bounds second
  exact i128_eq (by omega) (by omega)

theorem quotient_bounds (inRange : kind.word.InRange n) : -2 ^ 127 ≤ n / m ∧ n / m < 2 ^ 127 := by
  have := bounds inRange
  have small : (n / m).natAbs ≤ n.natAbs := Int.natAbs_ediv_le_natAbs n m
  omega

theorem checkedDivEuclid_eq (inRange : kind.word.InRange n) (nonzero : m ≠ 0) :
    checkedDivEuclid n m = some (n / m) := by
  have fits := quotient_bounds (m := m) inRange
  rw [checkedDivEuclid, if_neg nonzero, i128_eq fits.1 fits.2]

theorem checkedRemEuclid_eq (first : kind.word.InRange n) (second : kind.word.InRange m)
    (nonzero : m ≠ 0) : checkedRemEuclid n m = some (n % m) := by
  have fits := quotient_bounds (m := m) first
  have := bounds second
  have low := Int.emod_nonneg n nonzero
  have high := Int.emod_lt n nonzero
  rw [checkedRemEuclid, i128_eq fits.1 fits.2, if_neg (by simp [nonzero]), i128_eq (by omega) (by omega)]

theorem inRange_remainder {remainder : Int} (second : kind.word.InRange m) (low : 0 ≤ remainder)
    (high : remainder < |m|) : kind.word.InRange remainder := by
  rw [Word.InRange, Word.minimum, Word.maximum] at second ⊢
  have most : remainder < m ∨ remainder < -m := by
    rcases abs_choice m with same | same
    · exact .inl (same ▸ high)
    · exact .inr (same ▸ high)
  cases kind <;> simp [IntegerType.word] at second ⊢ <;> omega

theorem shift_bounds {count : Nat} (inRange : kind.word.InRange n) (few : count < kind.width) :
    -2 ^ 127 ≤ n * 2 ^ count ∧ n * 2 ^ count < 2 ^ 127 := by
  have both := bounds inRange
  have positive : (0 : Int) < 2 ^ count := Int.pow_pos (by decide)
  have most : (2 : Int) ^ count ≤ 2 ^ 63 := by
    have exponent : count ≤ 63 := by
      have := width_le kind
      omega
    exact_mod_cast Nat.pow_le_pow_right (by decide) exponent
  have low := Int.mul_le_mul_of_nonneg_right both.1 (Int.le_of_lt positive)
  have high := Int.mul_le_mul_of_nonneg_right (Int.le_sub_one_of_lt both.2) (Int.le_of_lt positive)
  omega

theorem checkedShl_eq {count : Nat} (inRange : kind.word.InRange n) (few : count < kind.width) :
    checkedShl n count = some (n * 2 ^ count) := by
  have fits := shift_bounds inRange few
  have wide : wideWord.InRange (n * 2 ^ count) := ⟨fits.1, Int.le_sub_one_of_lt fits.2⟩
  have moved := Word.value_bits wide
  rw [Word.bits_shiftLeft] at moved
  have most := width_le kind
  rw [checkedShl, if_pos (by omega)]
  exact congrArg some moved

end

/-! ### Unary operators -/

section

variable {kind : IntegerType} {n : Int}

theorem unary_minus (source : IntegerType) (inRange : kind.word.InRange n) :
    Answers kind (unary .minus (.integer n source) (.integer kind)) (exact kind (-n)) := by
  rw [unary, checkedNeg_eq inRange]
  exact checkedInteger_some kind (-n)

theorem unary_not_signed (source : IntegerType) (inRange : kind.word.InRange n) (signed : kind.word.signed = true) :
    Answers kind (unary .not (.integer n source) (.integer kind))
      (.value (kind.word.value (~~~kind.word.bits n))) := by
  have := bounds inRange
  rw [unary, bitNot_eq (by omega) (by omega), ← Word.value_not inRange signed]
  exact checkedInteger_value (Word.inRange_value _)

theorem unary_not_unsigned (source : IntegerType) (inRange : kind.word.InRange n) (unsigned : kind.word.signed = false) :
    Answers kind (unary .not (.integer n source) (.integer kind)) .overflow := by
  have := bounds inRange
  have outside : ¬kind.word.InRange (-n - 1) := by
    rw [Word.InRange, Word.minimum, unsigned] at inRange ⊢
    simp at inRange ⊢
    omega
  have answers := checkedInteger_some kind (-n - 1)
  rw [exact, if_neg outside] at answers
  rw [unary, bitNot_eq (by omega) (by omega)]
  exact answers

end

/-! ### Binary operators -/

section

variable {kind : IntegerType} {n m : Int}

theorem bits_answer (operation : ∀ {width : Nat}, BitVec width → BitVec width → BitVec width)
    (commutes : ∀ first second : BitVec kind.word.width, kind.word.extend 128 (operation first second) =
        operation (kind.word.extend 128 first) (kind.word.extend 128 second))
    (first : kind.word.InRange n) (second : kind.word.InRange m) :
    Answers kind (checkedInteger (some (operation (BitVec.ofInt 128 n) (BitVec.ofInt 128 m)).toInt)
      (.integer kind)) (.value (kind.word.value (operation (kind.word.bits n) (kind.word.bits m)))) := by
  have narrow : kind.word.width < 128 := by
    have := width_le kind
    rw [width_eq]
    omega
  rw [Word.toInt_wide operation commutes first second narrow]
  exact checkedInteger_value (Word.inRange_value _)

theorem shift_eq (left : Bool) : shift n m (.integer kind) left = if m < 0 ∨ kind.width ≤ m then
      .error (.invalidShiftCount ("shift count must be in 0.." ++ toString kind.width))
    else if left then checkedInteger (checkedShl n m.toNat) (.integer kind)
    else checkedInteger (some ((BitVec.ofInt 128 n &&& BitVec.ofNat 128 (2 ^ kind.width - 1)) >>>
      m.toNat).toInt) (.integer kind) := rfl

theorem shift_count (operator : Bool) (outside : m < 0 ∨ kind.width ≤ m) :
    Answers kind (shift n m (.integer kind) operator) .invalidShiftCount := by
  rw [shift_eq, if_pos outside]
  exact .invalidShiftCount

theorem shift_left {count : Nat} (inRange : kind.word.InRange n) (few : count < kind.width) :
    ∃ outcome, Specified kind .shl n count outcome ∧ Answers kind (shift n count (.integer kind) true) outcome := by
  have answers := checkedInteger_some kind (n * 2 ^ count)
  have kept := Word.inRange_shift_iff inRange (show count ≤ kind.word.width by rw [width_eq]; omega)
  rw [shift_eq, if_neg (by omega), if_pos rfl, Int.toNat_natCast, checkedShl_eq inRange few]
  by_cases back : kind.word.back (kind.word.bits n <<< count) count = kind.word.bits n
  · have same := Word.value_bits (kept.2 back)
    rw [exact, if_pos (kept.2 back), ← same, Word.bits_shiftLeft] at answers
    exact ⟨_, .shl few back, by rwa [← Word.bits_shiftLeft, same] at answers ⊢⟩
  · rw [exact, if_neg fun inside => back (kept.1 inside)] at answers
    exact ⟨_, .shlLost few back, answers⟩

theorem shift_right {count : Nat} (inRange : kind.word.InRange n) (few : count < kind.width) (clear : 0 < count ∨ 0 ≤ n) :
    Answers kind (shift n count (.integer kind) false)
      (.value (kind.word.value (kind.word.bits n >>> count))) := by
  have narrow : kind.word.width < 128 := by
    have := width_le kind
    rw [width_eq]
    omega
  rw [shift_eq, if_neg (by omega), if_neg nofun, Int.toNat_natCast, ← width_eq,
    Word.toInt_shiftRight n count narrow, ← Word.value_shiftRight inRange clear]
  exact checkedInteger_value (Word.inRange_value _)

end

/-! ### What the interpreter answers -/

variable {operator : Operator}

theorem unary_answers (source : IntegerType)
    (integers : operator = .minus ∨ operator = .not) (inRange : kind.word.InRange n) :
    ∃ outcome, Answers kind (unary operator (.integer n source) (.integer kind)) outcome ∧
      if operator = .not ∧ kind.word.signed = false then outcome = .overflow
      else SpecifiedUnary kind operator n outcome := by
  rcases integers with rfl | rfl
  · exact ⟨_, unary_minus source inRange, .minus⟩
  · cases signed : kind.word.signed with
    | true => exact ⟨_, unary_not_signed source inRange signed, .not⟩
    | false => exact ⟨_, unary_not_unsigned source inRange signed, rfl⟩

/-- The binary operators answer what the language says, but for two: an exponent from 2^32 on is refused,
and the shift of a negative integer to the right by no place is left open. -/
def Settled (kind : IntegerType) (operator : Operator) (n m : Int) (outcome : Outcome) : Prop :=
  if operator = .power ∧ 2 ^ 32 ≤ m then outcome = .invalidExponent
  else (operator = .shr ∧ m = 0 ∧ n < 0) ∨ Specified kind operator n m outcome

section

variable {kind : IntegerType} {n m : Int}

theorem div_answers (first : kind.word.InRange n) :
    ∃ outcome, Answers kind (integerBinary .div n m (.integer kind)) outcome ∧ Specified kind .div n m outcome := by
  rw [integerBinary]
  by_cases nonzero : m = 0
  · subst nonzero
    exact ⟨_, .divisionByZero, .divByZero⟩
  · rw [if_pos nonzero, checkedDivEuclid_eq first nonzero]
    have euclid : n = m * (n / m) + n % m := (Int.mul_ediv_add_emod n m).symm
    refine ⟨_, checkedInteger_some kind (n / m), .div (n / m) (n % m) euclid ?_ ?_⟩
    · exact Int.emod_nonneg n nonzero
    · exact Int.emod_lt_abs n nonzero

theorem percent_answers (first : kind.word.InRange n) (second : kind.word.InRange m) :
    ∃ outcome, Answers kind (integerBinary .percent n m (.integer kind)) outcome ∧ Specified kind .percent n m outcome := by
  rw [integerBinary]
  by_cases nonzero : m = 0
  · subst nonzero
    exact ⟨_, .divisionByZero, .percentByZero⟩
  · have euclid : n = m * (n / m) + n % m := (Int.mul_ediv_add_emod n m).symm
    have low := Int.emod_nonneg n nonzero
    have high := Int.emod_lt_abs n nonzero
    rw [if_pos nonzero, checkedRemEuclid_eq first second nonzero]
    exact ⟨_, checkedInteger_value (inRange_remainder second low high), .percent (n / m) (n % m) euclid low high⟩

theorem power_answers :
    ∃ outcome, Answers kind (integerBinary .power n m (.integer kind)) outcome ∧ Settled kind .power n m outcome := by
  rw [integerBinary]
  by_cases natural : 0 ≤ m
  · obtain ⟨exponent, rfl⟩ := Int.eq_ofNat_of_zero_le natural
    rw [if_pos natural]
    by_cases small : (exponent : Int) < 2 ^ 32
    · rw [if_pos small, Int.toNat_natCast]
      refine ⟨_, checkedInteger_i128 kind (n ^ exponent), ?_⟩
      rw [Settled, if_neg (by omega)]
      exact .inr .power
    · rw [if_neg small]
      refine ⟨_, .invalidExponent, ?_⟩
      rw [Settled, if_pos ⟨rfl, by omega⟩]
  · rw [if_neg natural]
    refine ⟨_, .invalidExponent, ?_⟩
    rw [Settled, if_neg (by omega)]
    exact .inr (.negativePower (by omega))

theorem Specified.settled {outcome : Outcome} (specified : Specified kind operator n m outcome)
    (other : operator ≠ .power) : Settled kind operator n m outcome := by
  rw [Settled, if_neg fun power => other power.1]
  exact .inr specified

theorem shift_answers (operator : Operator) (left : Bool)
    (shifts : operator = if left then .shl else .shr) (first : kind.word.InRange n) :
    ∃ outcome, Answers kind (shift n m (.integer kind) left) outcome ∧ Settled kind operator n m outcome := by
  by_cases outside : m < 0 ∨ kind.width ≤ m
  · refine ⟨_, shift_count left outside, Specified.settled (.shiftCount ?_ outside) ?_⟩
    · cases left <;> simp [shifts]
    · cases left <;> simp [shifts]
  · obtain ⟨count, rfl⟩ := Int.eq_ofNat_of_zero_le (show 0 ≤ m by omega)
    have few : count < kind.width := by omega
    cases left with
    | true =>
      subst shifts
      obtain ⟨outcome, specified, answers⟩ := shift_left first few
      exact ⟨outcome, answers, specified.settled nofun⟩
    | false =>
      subst shifts
      by_cases open_ : count = 0 ∧ n < 0
      · obtain ⟨rfl, negative⟩ := open_
        rw [shift_eq, if_neg outside, if_neg nofun]
        refine ⟨_, checkedInteger_some kind _, ?_⟩
        rw [Settled, if_neg nofun]
        exact .inl ⟨rfl, rfl, negative⟩
      · have clear : 0 < count ∨ 0 ≤ n := by omega
        exact ⟨_, shift_right first few clear, Specified.settled (.shr few) nofun⟩

end

theorem binary_integers {kind left right : IntegerType}
    (others : operator ∉ [.is, .assign, .notEqual, .slash]) (classes : ClassModel)
    (pointerLength : Option Nat) :
    binary operator (.integer n left) (.integer m right) (.integer kind) classes pointerLength =
      integerBinary operator n m (.integer kind) := by
  cases operator <;> first | rfl | exact absurd (by decide) others

theorem equality_answers {kind left right : IntegerType}
    (equality : operator = .assign ∨ operator = .notEqual) (classes : ClassModel)
    (pointerLength : Option Nat) :
    ∃ outcome, Answers kind
        (binary operator (.integer n left) (.integer m right) (.integer kind) classes pointerLength) outcome ∧
      Specified kind operator n m outcome := by
  rcases equality with rfl | rfl
  · refine ⟨_, .truth, ?_⟩
    have same : (Value.integer n left).equals (.integer m right) = decide (n = m) := by
      rw [Value.equals, beq_eq_decide]
    rw [if_pos rfl, same]
    exact .assign
  · refine ⟨_, .truth, ?_⟩
    have same : (Value.integer n left).equals (.integer m right) = decide (n = m) := by
      rw [Value.equals, beq_eq_decide]
    rw [if_neg nofun, same, ← decide_not]
    exact .notEqual

theorem binary_answers (left right : IntegerType) (integers : operator ∈ integerOperators) (first : kind.word.InRange n)
    (second : operator ≠ .shl → operator ≠ .shr → kind.word.InRange m) (classes : ClassModel)
    (pointerLength : Option Nat) :
    ∃ outcome, Answers kind
        (binary operator (.integer n left) (.integer m right) (.integer kind) classes pointerLength) outcome ∧
      Settled kind operator n m outcome := by
  by_cases equality : operator = .assign ∨ operator = .notEqual
  · obtain ⟨outcome, answers, specified⟩ := equality_answers equality classes pointerLength
    exact ⟨outcome, answers, specified.settled (by rcases equality with rfl | rfl <;> nofun)⟩
  · have others : operator ∉ [.is, .assign, .notEqual, .slash] := by
      intro member
      simp only [List.mem_cons, List.not_mem_nil, or_false] at member
      rcases member with rfl | rfl | rfl | rfl
      · exact absurd integers (by decide)
      · exact equality (.inl rfl)
      · exact equality (.inr rfl)
      · exact absurd integers (by decide)
    rw [binary_integers others]
    cases operator with
    | plus =>
      have answers := checkedInteger_i128 kind (n + m)
      exact ⟨_, answers, Specified.settled .plus nofun⟩
    | minus => exact ⟨_, checkedInteger_i128 kind (n - m), Specified.settled .minus nofun⟩
    | star => exact ⟨_, checkedInteger_i128 kind (n * m), Specified.settled .star nofun⟩
    | power => exact power_answers
    | div =>
      obtain ⟨outcome, answers, specified⟩ := div_answers first
      exact ⟨outcome, answers, specified.settled nofun⟩
    | percent =>
      obtain ⟨outcome, answers, specified⟩ := percent_answers first (second nofun nofun)
      exact ⟨outcome, answers, specified.settled nofun⟩
    | and =>
      have answers := bits_answer (· &&& ·) Word.extend_and first (second nofun nofun)
      exact ⟨_, answers, Specified.settled .and nofun⟩
    | or =>
      have answers := bits_answer (· ||| ·) Word.extend_or first (second nofun nofun)
      exact ⟨_, answers, Specified.settled .or nofun⟩
    | xor =>
      have answers := bits_answer (· ^^^ ·) Word.extend_xor first (second nofun nofun)
      exact ⟨_, answers, Specified.settled .xor nofun⟩
    | shl => exact shift_answers .shl true rfl first
    | shr => exact shift_answers .shr false rfl first
    | less => exact ⟨_, .truth, Specified.settled .less nofun⟩
    | lessEqual => exact ⟨_, .truth, Specified.settled .lessEqual nofun⟩
    | greater => exact ⟨_, .truth, Specified.settled .greater nofun⟩
    | greaterEqual => exact ⟨_, .truth, Specified.settled .greaterEqual nofun⟩
    | _ => simp [integerOperators] at integers equality

/-! ### Integers out of range -/

def Ranged (result : Result) : Prop := ∀ n kind, result = .ok (.integer n kind) → kind.word.InRange n

theorem ranged_error (error : RuntimeError) : Ranged (.error error) := nofun

theorem ranged_boolean (holds : Bool) : Ranged (.ok (.boolean holds)) := nofun

theorem ranged_float (value : Float) (kind : FloatType) : Ranged (.ok (floatValue value kind)) := nofun

theorem Ranged.bind {α : Type} {first : Except RuntimeError α} {rest : α → Result}
    (each : ∀ a, Ranged (rest a)) : Ranged (first >>= rest) := by
  cases first with
  | error error => exact ranged_error error
  | ok a => exact each a

theorem checkedInteger_ranged (value : Option Int) (ty : Ty) : Ranged (checkedInteger value ty) := by
  cases value with
  | none => exact ranged_error _
  | some value =>
    intro n kind
    unfold checkedInteger
    dsimp only
    split
    next fits =>
      intro same
      cases same
      exact integerRange_iff.1 fits
    next => nofun

theorem shift_ranged (n count : Int) (ty : Ty) (left : Bool) : Ranged (shift n count ty left) := by
  unfold shift
  dsimp only
  split
  · exact ranged_error _
  · split <;> exact checkedInteger_ranged _ _

theorem integerBinary_ranged (operator : Operator) (n m : Int) (ty : Ty) :
    Ranged (integerBinary operator n m ty) := by
  unfold integerBinary
  split
  case h_4 =>
    split
    · exact checkedInteger_ranged _ _
    · exact ranged_error _
  case h_5 =>
    split
    · exact checkedInteger_ranged _ _
    · exact ranged_error _
  case h_6 =>
    split
    · split
      · exact checkedInteger_ranged _ _
      · exact ranged_error _
    · exact ranged_error _
  case h_10 | h_11 => exact shift_ranged _ _ _ _
  case h_1 | h_2 | h_3 | h_7 | h_8 | h_9 => exact checkedInteger_ranged _ _
  case h_16 => exact ranged_error _
  all_goals exact ranged_boolean _

theorem floatBinary_ranged (operator : Operator) (left right : Float) (ty : Ty) :
    Ranged (floatBinary operator left right ty) := by
  unfold floatBinary
  split <;> first | exact ranged_float _ _ | exact ranged_boolean _ | exact ranged_error _

theorem ordered_ranged {α : Type} [LT α] [LE α] [DecidableLT α] [DecidableLE α] (operator : Operator)
    (left right : α) : Ranged (ordered operator left right) := by
  unfold ordered
  split <;> first | exact ranged_boolean _ | exact ranged_error _

theorem booleanBinary_ranged (operator : Operator) (left right : Bool) :
    Ranged (booleanBinary operator left right) := by
  unfold booleanBinary
  split <;> first | exact ranged_boolean _ | exact ranged_error _

theorem stringBinary_ranged (operator : Operator) (left right : String) :
    Ranged (stringBinary operator left right) := by
  unfold stringBinary
  split <;> first | exact ranged_boolean _ | exact ranged_error _ | nofun

theorem unary_ranged (operator : Operator) (operand : Value) (ty : Ty) :
    Ranged (unary operator operand ty) := by
  unfold unary
  split <;> first
    | exact checkedInteger_ranged _ _
    | exact ranged_float _ _
    | exact ranged_boolean _
    | exact ranged_error _

theorem binary_ranged (operator : Operator) (left right : Value) (ty : Ty) (classes : ClassModel)
    (pointerLength : Option Nat) : Ranged (binary operator left right ty classes pointerLength) := by
  unfold binary
  split
  · split
    · exact ranged_boolean _
    · exact ranged_error _
  · split
    · exact ranged_boolean _
    · split
      · exact booleanBinary_ranged _ _ _
      · exact stringBinary_ranged _ _ _
      · split
        · exact Ranged.bind fun _ => Ranged.bind fun _ => ranged_float _ _
        · split
          · exact ordered_ranged _ _ _
          · exact ordered_ranged _ _ _
          · split
            · exact Ranged.bind fun _ => Ranged.bind fun _ => floatBinary_ranged _ _ _ _
            · exact Ranged.bind fun _ => Ranged.bind fun _ => integerBinary_ranged _ _ _ _

/-! ### The semantics of a type -/

/-- The integer operators at a type. -/
structure IntegerSemantics (kind : IntegerType) : Prop where
  /-- Unary operators answer what the language says; the complement of an unsigned integer, which is
  negative, is an overflow. -/
  unaryAnswers : ∀ {operator : Operator} {n : Int} (source : IntegerType),
    operator = .minus ∨ operator = .not → kind.word.InRange n →
    ∃ outcome, Answers kind (unary operator (.integer n source) (.integer kind)) outcome ∧
      if operator = .not ∧ kind.word.signed = false then outcome = .overflow
      else SpecifiedUnary kind operator n outcome
  /-- Binary operators answer what the language says, as far as it is settled; the count of a shift may
  be of any type. -/
  binaryAnswers : ∀ {operator : Operator} {n m : Int} (left right : IntegerType), operator ∈ integerOperators →
    kind.word.InRange n → (operator ≠ .shl → operator ≠ .shr → kind.word.InRange m) →
    ∀ (classes : ClassModel) (pointerLength : Option Nat), ∃ outcome, Answers kind
        (binary operator (.integer n left) (.integer m right) (.integer kind) classes pointerLength) outcome ∧
      Settled kind operator n m outcome
  /-- The 128 bits hold what the operators compute, products and powers apart. -/
  intermediates : ∀ {n m : Int}, kind.word.InRange n → kind.word.InRange m →
    checkedNeg n = some (-n) ∧ checkedAdd n m = some (n + m) ∧ checkedSub n m = some (n - m) ∧
      (m ≠ 0 → checkedDivEuclid n m = some (n / m) ∧ checkedRemEuclid n m = some (n % m)) ∧
      ∀ count < kind.width, checkedShl n count = some (n * 2 ^ count)
  /-- A product or a power that the 128 bits do not hold is not computed, and is not one of the type. -/
  detected : ∀ {n m : Int} {exponent : Nat}, (checkedMul n m = none → ¬kind.word.InRange (n * m)) ∧
      (checkedPow n exponent = none → ¬kind.word.InRange (n ^ exponent))
  /-- Every integer result is one of its type, whatever the operands are. -/
  ranged : ∀ (operator : Operator) (operand left right : Value) (ty : Ty) (classes : ClassModel)
    (pointerLength : Option Nat), Ranged (unary operator operand ty) ∧
      Ranged (binary operator left right ty classes pointerLength)

theorem i128_eq_none (unfit : i128 n = none) : ¬kind.word.InRange n := by
  intro inRange
  have := bounds inRange
  rw [i128_eq (by omega) (by omega)] at unfit
  cases unfit

theorem integerSemantics (kind : IntegerType) : IntegerSemantics kind where
  unaryAnswers source integers inRange := unary_answers source integers inRange
  binaryAnswers left right integers first second classes pointerLength :=
    binary_answers left right integers first second classes pointerLength
  intermediates first second :=
    ⟨checkedNeg_eq first, checkedAdd_eq first second, checkedSub_eq first second,
      fun nonzero => ⟨checkedDivEuclid_eq first nonzero, checkedRemEuclid_eq first second nonzero⟩,
      fun _ few => checkedShl_eq first few⟩
  detected := ⟨i128_eq_none, i128_eq_none⟩
  ranged operator operand left right ty classes pointerLength :=
    ⟨unary_ranged operator operand ty, binary_ranged operator left right ty classes pointerLength⟩

/-! ### What is not as the language says -/

theorem Answers.unique {result : Result} {first second : Outcome}
    (one : Answers kind result first) (other : Answers kind result second) : first = second := by
  cases one <;> cases other <;> rfl

theorem exact_ne_invalidExponent (kind : IntegerType) (n : Int) : exact kind n ≠ .invalidExponent := by
  rw [exact]
  split <;> nofun

theorem Specified.power_natural (natural : 0 ≤ m) :
    ¬Specified kind .power n m .invalidExponent := by
  generalize refused : Outcome.invalidExponent = outcome
  intro specified
  cases specified with
  | power => exact exact_ne_invalidExponent _ _ refused.symm
  | negativePower negative => omega
  | shiftCount shifts => simp at shifts

theorem Specified.shr_count {outcome : Outcome}
    (specified : Specified kind .shr n m outcome) (natural : 0 ≤ m) (few : m < kind.width) :
    outcome ≠ .overflow := by
  cases specified with
  | shr => nofun
  | shiftCount => nofun

/-- `NOT 0` of a `BYTE`, `1 ** 4294967296` of an `INT64` and `-8 SHR 0` of an `INT8` are not what the
language says, and the product of the largest `UINT64` with itself overflows the 128 bits. -/
theorem operators_not_specified : (¬∃ outcome, Answers .byte (unary .not (.integer 0 .byte) (.integer .byte)) outcome ∧
      SpecifiedUnary .byte .not 0 outcome) ∧
    (¬∃ outcome, Answers .int64 (binary .power (.integer 1 .int64) (.integer (2 ^ 32) .int64)
        (.integer .int64) {} none) outcome ∧ Specified .int64 .power 1 (2 ^ 32) outcome) ∧
    (¬∃ outcome, Answers .int8 (binary .shr (.integer (-8) .int8) (.integer 0 .int8)
        (.integer .int8) {} none) outcome ∧ Specified .int8 .shr (-8) 0 outcome) ∧
    IntegerType.uint64.word.InRange (2 ^ 64 - 1) ∧ checkedMul (2 ^ 64 - 1) (2 ^ 64 - 1) = none := by
  refine ⟨?_, ?_, ?_, by decide, by decide⟩
  · rintro ⟨outcome, answers, specified⟩
    have zero : IntegerType.byte.word.InRange 0 := by decide
    have overflow := unary_not_unsigned .byte zero rfl
    cases answers.unique overflow
    cases specified
  · rintro ⟨outcome, answers, specified⟩
    have refused : Answers .int64 (integerBinary .power 1 (2 ^ 32) (.integer .int64)) .invalidExponent := .invalidExponent
    rw [binary_integers (by decide)] at answers
    cases answers.unique refused
    exact Specified.power_natural (by decide) specified
  · rintro ⟨outcome, answers, specified⟩
    have overflow : Answers .int8 (shift (-8) 0 (.integer .int8) false) .overflow := .overflow
    exact specified.shr_count (by decide) (by decide) (answers.unique overflow)

end BasicNext.Interp
