import BasicNext.Interp.IntegerSemantics
import BasicNext.Lib.Except
import BasicNext.Semantic.ConstantInteger

/-!
# Constant folding and run time

Where the folder and the interpreter both give an expression of integer literals a value, both computed
each operation on the same operands, so they can differ in one operator only: the folder shifts to the
right by the sign of the 128-bit integer, the interpreter shifts the bits at the width of the type. The
shifts agree exactly on the integers that these bits stand for without a sign.
-/

namespace BasicNext.Semantic

open Frontend Interp Lib

/-! ### What an expression denotes -/

/-- The 128-bit result of an operation at a type. -/
inductive Operates (kind : IntegerType) : Operator → Int → Int → Int → Prop
  | plus {n m k : Int} : checkedAdd n m = some k → Operates kind .plus n m k
  | minus {n m k : Int} : checkedSub n m = some k → Operates kind .minus n m k
  | star {n m k : Int} : checkedMul n m = some k → Operates kind .star n m k
  | div {n m k : Int} : m ≠ 0 → checkedDivEuclid n m = some k → Operates kind .div n m k
  | percent {n m k : Int} : m ≠ 0 → checkedRemEuclid n m = some k → Operates kind .percent n m k
  | power {n k : Int} {exponent : Nat} : exponent < 2 ^ 32 → checkedPow n exponent = some k →
      Operates kind .power n exponent k
  | and {n m : Int} : Operates kind .and n m (bitAnd n m)
  | or {n m : Int} : Operates kind .or n m (bitOr n m)
  | xor {n m : Int} : Operates kind .xor n m (bitXor n m)
  | shl {n k : Int} {count : Nat} : count < kind.width → checkedShl n count = some k → Operates kind .shl n count k
  /-- The bits at the width of the type, with zeros from the left. -/
  | shr {n : Int} {count : Nat} : count < kind.width → Operates kind .shr n count (n % 2 ^ kind.width / 2 ^ count)

/-- The integer of an expression with every operation at one type: a result is one of the type. -/
inductive Denotes (kind : IntegerType) : Expression → Int → Prop
  | literal {text : String} {n : Int} : parseInteger text = some n → Denotes kind (.literal (.integer text)) n
  | negation {operator : String} {operand : Expression} {n : Int} : operatorNamed operator = .minus →
      Denotes kind operand n → kind.word.InRange (-n) → Denotes kind (.unary operator operand) (-n)
  | operation {operator : String} {left right : Expression} {n m k : Int} : Denotes kind left n →
      Denotes kind right m → Operates kind (operatorNamed operator) n m k → kind.word.InRange k →
      Denotes kind (.binary operator left right) k

/-- The parts of an expression, with itself. -/
inductive Part : Expression → Expression → Prop
  | self {whole : Expression} : Part whole whole
  | operand {part operand : Expression} {operator : String} : Part part operand → Part part (.unary operator operand)
  | left {part left right : Expression} {operator : String} : Part part left → Part part (.binary operator left right)
  | right {part left right : Expression} {operator : String} : Part part right → Part part (.binary operator left right)

theorem Part.trans {inner part whole : Expression} (first : Part inner part) (second : Part part whole) :
    Part inner whole := by
  induction second with
  | self => exact first
  | operand _ step => exact .operand step
  | left _ step => exact .left step
  | right _ step => exact .right step

/-! ### The interpreter -/

variable {kind : IntegerType} {n : Int}

theorem checkedInteger_ok (inRange : kind.word.InRange n) :
    checkedInteger (some n) (.integer kind) = .ok (.integer n kind) :=
  if_pos (integerRange_iff.2 inRange)

theorem checkedInteger_inv {computed : Option Int} {value : Value}
    (accepted : checkedInteger computed (.integer kind) = .ok value) :
    ∃ n, computed = some n ∧ kind.word.InRange n ∧ value = .integer n kind := by
  cases computed with
  | none => cases accepted
  | some n =>
    have unfolded : checkedInteger (some n) (.integer kind) =
        if (integerRange kind).1 ≤ n ∧ n ≤ (integerRange kind).2 then .ok (.integer n kind)
        else .error (.numericOverflow ("converting " ++ toString n ++ " to " ++ kind.name)) := rfl
    rw [unfolded] at accepted
    split at accepted
    next inside =>
      cases accepted
      exact ⟨n, rfl, integerRange_iff.1 inside, rfl⟩
    next => cases accepted

section

variable {kind : IntegerType} {n m : Int}

theorem shift_right_eq {count : Nat} (few : count < kind.width) :
    shift n count (.integer kind) false = checkedInteger (some (n % 2 ^ kind.width / 2 ^ count)) (.integer kind) := by
  have narrow : kind.word.width < 128 := by
    have := width_le kind
    rw [width_eq]
    omega
  rw [shift_eq, if_neg (by omega), if_neg Bool.false_ne_true, Int.toNat_natCast, ← width_eq,
    Word.toInt_shiftRight n count narrow, Word.toNat_shiftRight]

theorem Operates.binary {operator : Operator} {k : Int} (operates : Operates kind operator n m k)
    (inRange : kind.word.InRange k) (left right : IntegerType) :
    binary operator (.integer n left) (.integer m right) (.integer kind) {} none = .ok (.integer k kind) := by
  rw [← checkedInteger_ok inRange]
  cases operates with
  | plus result | minus result | star result =>
    rw [binary_integers (by decide), integerBinary, result]
  | div nonzero result | percent nonzero result =>
    rw [binary_integers (by decide), integerBinary, if_pos nonzero, result]
  | power few result =>
    rw [binary_integers (by decide), integerBinary, if_pos (Int.natCast_nonneg _),
      if_pos (by omega), Int.toNat_natCast, result]
  | and | or | xor => rw [binary_integers (by decide), integerBinary]
  | shl few result =>
    rw [binary_integers (by decide), integerBinary, shift_eq, if_neg (by omega), if_pos rfl, Int.toNat_natCast, result]
  | shr few => rw [binary_integers (by decide), integerBinary, shift_right_eq few]

end

variable {expression : Expression}

theorem Denotes.evaluate (denotes : Denotes kind expression n) : evaluate kind expression = .ok (.integer n kind) := by
  induction denotes with
  | literal parsed => rw [Semantic.evaluate, parsed]
  | @negation operator operand n minus _ inRange answer =>
    have bounded := bounds inRange
    have negated : checkedNeg n = some (-n) := i128_eq (by omega) (by omega)
    rw [Semantic.evaluate, answer, minus]
    simp only [bind, Except.bind]
    rw [unary, negated, checkedInteger_ok inRange]
  | operation _ _ operates inRange first second =>
    rw [Semantic.evaluate, first, second]
    exact operates.binary inRange kind kind

/-! ### The folder -/

/-- The shifts to the right that no sign bit enters: an integer that the bits stand for without a sign,
unless the shifted bits are no integer of the type, which the interpreter refuses. -/
def ShiftsBits (kind : IntegerType) (n : Int) (count : Nat) : Prop :=
  kind.word.InRange (n % 2 ^ kind.width / 2 ^ count) → 0 ≤ n ∧ n < 2 ^ kind.width

section

variable {kind : IntegerType} {operator : Operator} {n m : Int}

theorem constantBinary_inv {folded : Int} {value : Value} (constant : constantBinary operator n m = some folded)
    (ran : binary operator (.integer n kind) (.integer m kind) (.integer kind) {} none = .ok value) :
    ∃ k, Operates kind operator n m k ∧ kind.word.InRange k ∧ value = .integer k kind ∧ (operator ≠ .shr → folded = k) := by
  have others : operator ∉ [.is, .assign, .notEqual, .slash] := by
    intro member
    simp only [List.mem_cons, List.not_mem_nil, or_false] at member
    rcases member with rfl | rfl | rfl | rfl <;> cases constant
  rw [binary_integers others] at ran
  have same {computed : Option Int} (answer : checkedInteger computed (.integer kind) = .ok value)
      (operates : ∀ k, computed = some k → Operates kind operator n m k)
      (folds : computed = some folded) :
      ∃ k, Operates kind operator n m k ∧ kind.word.InRange k ∧ value = .integer k kind ∧
        (operator ≠ .shr → folded = k) := by
    obtain ⟨k, computes, inRange, rfl⟩ := checkedInteger_inv answer
    exact ⟨k, operates k computes, inRange, rfl, fun _ => Option.some.inj (folds.symm.trans computes)⟩
  cases operator with
  | plus => exact same ran (fun _ => .plus) constant
  | minus => exact same ran (fun _ => .minus) constant
  | star => exact same ran (fun _ => .star) constant
  | div =>
    by_cases nonzero : m ≠ 0
    · rw [integerBinary, if_pos nonzero] at ran
      rw [constantBinary, if_pos nonzero] at constant
      exact same ran (fun _ => .div nonzero) constant
    · rw [constantBinary, if_neg nonzero] at constant
      cases constant
  | percent =>
    by_cases nonzero : m ≠ 0
    · rw [integerBinary, if_pos nonzero] at ran
      rw [constantBinary, if_pos nonzero] at constant
      exact same ran (fun _ => .percent nonzero) constant
    · rw [constantBinary, if_neg nonzero] at constant
      cases constant
  | and => exact @same (some (bitAnd n m)) ran (fun _ computes => Option.some.inj computes ▸ .and) constant
  | or => exact @same (some (bitOr n m)) ran (fun _ computes => Option.some.inj computes ▸ .or) constant
  | xor => exact @same (some (bitXor n m)) ran (fun _ computes => Option.some.inj computes ▸ .xor) constant
  | power =>
    by_cases small : 0 ≤ m ∧ m < 2 ^ 32
    · obtain ⟨exponent, rfl⟩ := Int.eq_ofNat_of_zero_le small.1
      rw [integerBinary, if_pos small.1, if_pos small.2, Int.toNat_natCast] at ran
      rw [constantBinary, if_pos small, Int.toNat_natCast] at constant
      exact same ran (fun _ => .power (by omega)) constant
    · rw [constantBinary, if_neg small] at constant
      cases constant
  | shl =>
    rw [integerBinary, shift_eq] at ran
    split at ran
    next => cases ran
    next few =>
      obtain ⟨count, rfl⟩ := Int.eq_ofNat_of_zero_le (show 0 ≤ m by omega)
      have wide := width_le kind
      rw [if_pos rfl, Int.toNat_natCast] at ran
      rw [constantBinary, if_pos (by omega), Int.toNat_natCast] at constant
      exact same ran (fun _ => .shl (by omega)) constant
  | shr =>
    by_cases few : m < 0 ∨ kind.width ≤ m
    · rw [integerBinary, shift_eq, if_pos few] at ran
      cases ran
    · obtain ⟨count, rfl⟩ := Int.eq_ofNat_of_zero_le (show 0 ≤ m by omega)
      rw [integerBinary, shift_right_eq (by omega)] at ran
      obtain ⟨k, computes, inRange, rfl⟩ := checkedInteger_inv ran
      cases computes
      exact ⟨_, .shr (by omega), inRange, rfl, fun other => absurd rfl other⟩
  | _ => cases constant

theorem constantBinary_shr {folded : Int} {count : Nat} (few : count < kind.width)
    (constant : constantBinary .shr n count = some folded) : folded = n >>> count := by
  have wide := width_le kind
  rw [constantBinary, if_pos (by omega), Int.toNat_natCast, checkedShr, if_pos (by omega)] at constant
  exact (Option.some.inj constant).symm

theorem Operates.folded {k : Int} (operates : Operates kind operator n m k) :
    ∃ folded, constantBinary operator n m = some folded ∧ (operator ≠ .shr → folded = k) := by
  have wide := width_le kind
  cases operates with
  | plus result | minus result | star result => exact ⟨k, result, fun _ => rfl⟩
  | div nonzero result | percent nonzero result =>
    exact ⟨k, by rw [constantBinary, if_pos nonzero, result], fun _ => rfl⟩
  | power few result =>
    exact ⟨k, by rw [constantBinary, if_pos (by omega), Int.toNat_natCast, result], fun _ => rfl⟩
  | and | or | xor => exact ⟨_, rfl, fun _ => rfl⟩
  | shl few result =>
    exact ⟨k, by rw [constantBinary, if_pos (by omega), Int.toNat_natCast, result], fun _ => rfl⟩
  | @shr _ count few =>
    refine ⟨n >>> count, ?_, fun other => absurd rfl other⟩
    rw [constantBinary, if_pos (by omega), Int.toNat_natCast, checkedShr, if_pos (by omega)]

end

/-! ### The agreement -/

/-- What the folder and the interpreter both give an expression is the same. -/
def Agrees (kind : IntegerType) (expression : Expression) : Prop :=
  ∀ n value, constantInteger expression = some n → evaluate kind expression = .ok value → value = .integer n kind

/-- No shift to the right in an expression moves a sign bit. -/
def ShiftsKept (kind : IntegerType) (whole : Expression) : Prop :=
  ∀ operator left right, Part (.binary operator left right) whole → operatorNamed operator = .shr →
    ∀ (n : Int) (count : Nat), Denotes kind left n → Denotes kind right count → count < kind.width → ShiftsBits kind n count

theorem ShiftsKept.part {part whole : Expression} (kept : ShiftsKept kind whole)
    (within : Part part whole) : ShiftsKept kind part :=
  fun operator left right inner => kept operator left right (inner.trans within)

section

variable {kind : IntegerType}

theorem denotes_of_shiftsKept (kept : ShiftsKept kind expression) :
    ∀ n value, constantInteger expression = some n → evaluate kind expression = .ok value →
      Denotes kind expression n ∧ value = .integer n kind := by
  induction expression with
  | literal literal =>
    intro n value constant ran
    cases literal with
    | integer text =>
      rw [constantInteger] at constant
      rw [evaluate, constant] at ran
      cases ran
      exact ⟨.literal constant, rfl⟩
    | _ => cases constant
  | unary operator operand step =>
    intro n value constant ran
    rw [constantInteger] at constant
    split at constant
    next minus =>
      obtain ⟨a, folded, negated⟩ := Option.bind_eq_some_iff.1 constant
      rw [evaluate, bind_eq_ok] at ran
      obtain ⟨answer, operandRan, ran⟩ := ran
      obtain ⟨denotes, rfl⟩ := step (fun _ _ _ part => kept _ _ _ (.operand part)) a answer folded operandRan
      rw [minus, unary, negated] at ran
      obtain ⟨k, computes, inRange, rfl⟩ := checkedInteger_inv ran
      obtain ⟨-, same⟩ := i128_eq_some.1 negated
      cases computes
      subst same
      exact ⟨.negation minus denotes inRange, rfl⟩
    next => cases constant
  | binary operator left right first second =>
    intro n value constant ran
    rw [constantInteger] at constant
    obtain ⟨a, leftFolded, constant⟩ := Option.bind_eq_some_iff.1 constant
    obtain ⟨b, rightFolded, constant⟩ := Option.bind_eq_some_iff.1 constant
    rw [evaluate, bind_eq_ok] at ran
    obtain ⟨leftValue, leftRan, ran⟩ := ran
    rw [bind_eq_ok] at ran
    obtain ⟨rightValue, rightRan, ran⟩ := ran
    obtain ⟨leftDenotes, rfl⟩ := first (fun _ _ _ part => kept _ _ _ (.left part)) a _ leftFolded leftRan
    obtain ⟨rightDenotes, rfl⟩ := second (fun _ _ _ part => kept _ _ _ (.right part)) b _ rightFolded rightRan
    obtain ⟨k, operates, inRange, rfl, same⟩ := constantBinary_inv constant ran
    have equal : n = k := by
      by_cases shr : operatorNamed operator = .shr
      · rw [shr] at operates constant
        cases operates with
        | @shr _ count few =>
          have bits := kept operator left right .self shr a count leftDenotes rightDenotes few inRange
          rw [constantBinary_shr few constant]
          exact (Word.shiftRight_eq_iff few).2 bits
      · exact same shr
    subst equal
    exact ⟨.operation leftDenotes rightDenotes operates inRange, rfl⟩
  | _ =>
    intro n value constant
    cases constant

theorem Denotes.folded (denotes : Denotes kind expression n)
    (agree : ∀ part, Part part expression → Agrees kind part) : constantInteger expression = some n := by
  induction denotes with
  | literal parsed => exact parsed
  | @negation operator operand n minus _ inRange step =>
    have bounded := bounds inRange
    have negated : checkedNeg n = some (-n) := i128_eq (by omega) (by omega)
    rw [constantInteger, if_pos minus, step fun _ part => agree _ (.operand part), Option.bind_some, negated]
  | @operation operator left right n m k leftDenotes rightDenotes operates inRange first second =>
    obtain ⟨folded, constant, -⟩ := operates.folded
    have whole : constantInteger (.binary operator left right) = some folded := by
      rw [constantInteger, first fun _ part => agree _ (.left part), second fun _ part => agree _ (.right part)]
      exact constant
    have ran := (Denotes.operation leftDenotes rightDenotes operates inRange).evaluate
    cases agree _ .self folded _ whole ran
    exact whole

end

/-- Folding agrees with run time on an expression and all its parts exactly if no shift to the right in it
moves a sign bit. -/
theorem constantFolding_iff (kind : IntegerType) (expression : Expression) :
    (∀ part, Part part expression → Agrees kind part) ↔ ShiftsKept kind expression := by
  constructor
  · intro agree operator left right part shr n count leftDenotes rightDenotes few inRange
    have parts {inner : Expression} (within : Part inner (.binary operator left right)) :
        Part inner expression := within.trans part
    have operates : Operates kind (operatorNamed operator) n count (n % 2 ^ kind.width / 2 ^ count) := by
      rw [shr]
      exact .shr few
    have denotes := Denotes.operation leftDenotes rightDenotes operates inRange
    have constant := denotes.folded fun inner within => agree inner (parts within)
    rw [constantInteger, leftDenotes.folded fun inner within => agree inner (parts (.left within)),
      rightDenotes.folded fun inner within => agree inner (parts (.right within)), shr] at constant
    simp only [Option.bind_eq_bind, Option.bind_some] at constant
    exact (Word.shiftRight_eq_iff few).1 (constantBinary_shr few constant).symm
  · intro kept part within n value constant ran
    exact (denotes_of_shiftsKept (kept.part within) n value constant ran).2

/-- `-8 SHR 1` of an `INT8` is folded to -4 and runs to 124. -/
theorem shiftedSign_not_folded :
    ¬∀ kind expression n value, constantInteger expression = some n → evaluate kind expression = .ok value →
      value = .integer n kind := by
  intro agree
  have left : Denotes .int8 (.unary "Minus" (.literal (.integer "8"))) (-8) :=
    .negation (by decide) (.literal (by decide)) (by decide)
  have right : Denotes .int8 (.literal (.integer "1")) (1 : Nat) := .literal (by decide)
  have moved : Operates .int8 (operatorNamed "SHR") (-8) (1 : Nat) 124 := @Operates.shr .int8 (-8) 1 (by decide)
  have ran := (Denotes.operation left right moved (by decide)).evaluate
  cases agree .int8 _ (-4) _ (by decide) ran

end BasicNext.Semantic
