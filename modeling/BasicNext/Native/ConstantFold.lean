import BasicNext.Native.Registers
import BasicNext.Interp.Scalars

/-!
# Constant folding in native code

What native code knows of the results of unary operators, binary operators and casts whose operands it knows
(`bn_llvm::llvm::constant_fold`). A known integer is one of 128 bits, a known floating-point number one of 64
bits, and a result takes the precision of the type of its instruction; that of a cast of an integer does not.
-/

namespace BasicNext.Native

open Lib (Number Format)
open Interp (Operator Scalar FloatValue ScalarResult double narrow floatKind integerRange)

/-- A value that native code knows. -/
inductive ConstantValue where
  | integer (value : Int) (kind : IntegerType)
  | float (value : Number)
  | boolean (value : Bool)
  | string (value : String)
deriving DecidableEq

def isIntegerLiteral : Ty → Bool
  | .integerLiteral _ => true
  | _ => false

/-- The precision of the type that a value is bound to. -/
def typedConstant (value : ConstantValue) (ty : Ty) : ConstantValue :=
  match value, ty with
  | .float value, .float .float32 => .float (Format.binary32.round value)
  | value, _ => value

/-- A constant of a literal type only has to fit 64 bits, signed or unsigned. -/
def checkedIntegerValue (value : Int) (ty : Ty) : Option Int :=
  let range := if isIntegerLiteral ty then (-2 ^ 63, 2 ^ 64 - 1) else integerRange (integerKind ty)
  if range.1 ≤ value ∧ value ≤ range.2 then some value else none

def foldedInteger (value : Option Int) (ty : Ty) : Option ConstantValue := do
  let value ← checkedIntegerValue (← value) ty
  some (.integer value (integerKind ty))

/-! ### Operators -/

def foldUnaryRaw (operator : Operator) (operand : ConstantValue) (ty : Ty) : Option ConstantValue :=
  match operator, operand with
  | .plus, .integer value kind => some (.integer value kind)
  | .minus, .integer value _ => foldedInteger (Interp.checkedNeg value) ty
  | .plus, .float value => some (.float value)
  | .minus, .float value => some (.float value.neg)
  | .not, .boolean value => some (.boolean !value)
  | .not, .integer value _ => foldedInteger (some (Interp.bitNot value)) ty
  | _, _ => none

def foldUnary (operator : Operator) (operand : Option ConstantValue) (ty : Ty) : Option ConstantValue := do
  let result ← foldUnaryRaw operator (← operand) ty
  some (typedConstant result ty)

def shiftWidth (ty : Ty) : Nat := (integerKind ty).width

/-- The order of 128 bits, without sign where the type has none. -/
def foldLess (left right : Int) (ty : Ty) : Bool :=
  if isUnsigned ty then (BitVec.ofInt 128 left).ult (BitVec.ofInt 128 right) else left < right

def foldIntegers (operator : Operator) (left right : Int) (ty : Ty) : Option ConstantValue :=
  match operator with
  | .plus => foldedInteger (Interp.checkedAdd left right) ty
  | .minus => foldedInteger (Interp.checkedSub left right) ty
  | .star | .other "Multiply" => foldedInteger (Interp.checkedMul left right) ty
  | .div => if right ≠ 0 then foldedInteger (Interp.checkedDivEuclid left right) ty else none
  | .percent => if right ≠ 0 then foldedInteger (Interp.checkedRemEuclid left right) ty else none
  | .power =>
    if 0 ≤ right ∧ right < 2 ^ 32 then foldedInteger (Interp.checkedPow left right.toNat) ty else none
  | .shl =>
    if 0 ≤ right ∧ right < shiftWidth ty then foldedInteger (Interp.checkedShl left right.toNat) ty else none
  | .shr =>
    if 0 ≤ right ∧ right < shiftWidth ty then
      let mask := BitVec.ofNat 128 (2 ^ shiftWidth ty - 1)
      foldedInteger (some ((BitVec.ofInt 128 left &&& mask) >>> right.toNat).toInt) ty
    else none
  | .and => foldedInteger (some (Interp.bitAnd left right)) ty
  | .or => foldedInteger (some (Interp.bitOr left right)) ty
  | .xor => foldedInteger (some (Interp.bitXor left right)) ty
  | .less => some (.boolean (foldLess left right ty))
  | .lessEqual => some (.boolean !(foldLess right left ty))
  | .greater => some (.boolean (foldLess right left ty))
  | .greaterEqual => some (.boolean !(foldLess left right ty))
  | .assign | .other "Equal" => some (.boolean (left == right))
  | .notEqual => some (.boolean (left != right))
  | _ => none

def foldBooleans (operator : Operator) (left right : Bool) : Option ConstantValue :=
  match operator with
  | .and => some (.boolean (left && right))
  | .or => some (.boolean (left || right))
  | .xor => some (.boolean (left ^^ right))
  | .assign | .other "Equal" => some (.boolean (left == right))
  | .notEqual => some (.boolean (left != right))
  | _ => none

/-- The numbers have 64 bits; `power` is `powf`. -/
def foldFloats (power : Number → Number → Number) (operator : Operator) (left right : Number) :
    Option ConstantValue :=
  match operator with
  | .plus => some (.float (Interp.addDouble left right))
  | .minus => some (.float (Interp.subDouble left right))
  | .star | .other "Multiply" => some (.float (Interp.mulDouble left right))
  | .slash | .other "Divide" => some (.float (Interp.divDouble left right))
  | .power => some (.float (power left right))
  | .less => some (.boolean (left.less right))
  | .lessEqual => some (.boolean (left.lessEqual right))
  | .greater => some (.boolean (right.less left))
  | .greaterEqual => some (.boolean (right.lessEqual left))
  | .assign | .other "Equal" => some (.boolean (left.equal right))
  | .notEqual => some (.boolean !(left.equal right))
  | _ => none

def foldBinaryRaw (power : Number → Number → Number) (operator : Operator) (left right : ConstantValue)
    (ty : Ty) : Option ConstantValue :=
  match left, right with
  | .integer left _, .integer right _ => foldIntegers operator left right ty
  | .boolean left, .boolean right => foldBooleans operator left right
  | .float left, .float right => foldFloats power operator left right
  | _, _ => none

def foldBinary (power : Number → Number → Number) (operator : Operator) (left right : Option ConstantValue)
    (ty : Ty) : Option ConstantValue := do
  let result ← foldBinaryRaw power operator (← left) (← right) ty
  some (typedConstant result ty)

/-- An infinite narrowing of a finite number is an overflow at the cast, and the narrowing of an infinity is
left to it. -/
def foldNarrowing (value : Number) : Option ConstantValue :=
  match Format.binary32.round value with
  | .nan => some (.float value)
  | .finite narrowed => some (.float (.finite narrowed))
  | .infinity _ => none

def foldCast (value : Option ConstantValue) (ty : Ty) : Option ConstantValue := do
  match ← value, ty with
  | .integer value _, .integer _ => foldedInteger (some value) ty
  | .integer value _, .float _ => some (.float (double value))
  | .float value, .float .float32 => foldNarrowing value
  | .float value, .float .float64 => some (.float value)
  | .float (.finite value), .integer _ => foldedInteger (some (Interp.truncateDouble value)) ty
  | .boolean value, .boolean => some (.boolean value)
  | .integer value _, .boolean => some (.boolean (value != 0))
  | .float value, .boolean => some (.boolean !(value.equal (.finite 0)))
  | .string value, .boolean => some (.boolean !value.isEmpty)
  | .string value, .string => some (.string value)
  | _, _ => none

/-! ### What is known of a value -/

/-- The known value is the value that the interpreter has. -/
inductive Matches : ConstantValue → Scalar → Prop
  | integer (value : Int) (known kind : IntegerType) : Matches (.integer value known) (.integer value kind)
  | float (value : FloatValue) : Matches (.float value.value) (.float value)
  | boolean (value : Bool) : Matches (.boolean value) (.boolean value)
  | string (value : String) : Matches (.string value) (.string value)

def AnswersKnown (result : ScalarResult) (known : ConstantValue) : Prop :=
  ∃ value, result = .ok (some value) ∧ Matches known value

section

variable {operator : Operator} {ty : Ty} {known left right : ConstantValue} {value x y : Scalar}
  {power : Number → Number → Number}

theorem matches_float_iff {number : Number} {value : FloatValue} :
    Matches (.float number) (.float value) ↔ number = value.value := by
  constructor
  · intro same
    cases same
    rfl
  · rintro rfl
    exact .float value

theorem answers_boolean (truth : Bool) : AnswersKnown (.ok (some (.boolean truth))) (.boolean truth) :=
  ⟨_, rfl, .boolean truth⟩

theorem typedConstant_float (number : Number) (ty : Ty) :
    typedConstant (.float number) ty = .float (narrow (floatKind ty) number) := by
  cases ty with
  | float kind => cases kind <;> rfl
  | _ => rfl

theorem answers_floatScalar (number : Number) (ty : Ty) :
    AnswersKnown (.ok (some (Interp.floatScalar number (floatKind ty)))) (typedConstant (.float number) ty) := by
  refine ⟨_, rfl, ?_⟩
  rw [typedConstant_float, Interp.floatScalar, matches_float_iff]

/-! ### Integers -/

theorem integerKind_eq (sized : isIntegerLiteral ty = false) : (Interp.integerKind ty).getD .int32 = integerKind ty := by
  cases ty <;> first | rfl | cases sized

theorem checkedIntegerValue_eq_some {n m : Int} (checked : checkedIntegerValue n ty = some m) : m = n := by
  rw [checkedIntegerValue] at checked
  split at checked <;> simp_all

theorem foldedInteger_eq_some {result : Option Int} (folded : foldedInteger result ty = some known) :
    ∃ n, result = some n ∧ checkedIntegerValue n ty = some n ∧ known = .integer n (integerKind ty) := by
  obtain ⟨n, computed, rest⟩ := Option.bind_eq_some_iff.1 folded
  obtain ⟨m, checked, same⟩ := Option.bind_eq_some_iff.1 rest
  obtain rfl := checkedIntegerValue_eq_some checked
  exact ⟨m, computed, checked, (Option.some.inj same).symm⟩

theorem answers_foldedInteger {result : Option Int} (sized : isIntegerLiteral ty = false)
    (folded : foldedInteger result ty = some known) :
    AnswersKnown (Interp.ofResult (Interp.checkedInteger result ty)) known := by
  obtain ⟨n, rfl, inRange, rfl⟩ := foldedInteger_eq_some folded
  refine ⟨.integer n (integerKind ty), ?_, .integer n _ _⟩
  rw [checkedIntegerValue, sized] at inRange
  simp only [Bool.false_eq_true, if_false] at inRange
  rw [Interp.checkedInteger, integerKind_eq sized]
  split at inRange
  next inside =>
    rw [if_pos inside]
    rfl
  next => cases inRange

theorem answers_typedInteger {result : Option Int} (sized : isIntegerLiteral ty = false)
    (folded : foldedInteger result ty = some known) :
    AnswersKnown (Interp.ofResult (Interp.checkedInteger result ty)) (typedConstant known ty) := by
  have typed : typedConstant known ty = known := by
    obtain ⟨n, -, -, rfl⟩ := foldedInteger_eq_some folded
    rfl
  rw [typed]
  exact answers_foldedInteger sized folded

theorem integerKind_width (sized : isIntegerLiteral ty = false) :
    ((Interp.integerKind ty).getD .int32).width = shiftWidth ty := by
  rw [integerKind_eq sized, shiftWidth]

theorem shift_eq {n m : Int} (sized : isIntegerLiteral ty = false) (count : 0 ≤ m ∧ m < shiftWidth ty) (left : Bool) :
    Interp.shift n m ty left = Interp.checkedInteger
      (if left then Interp.checkedShl n m.toNat
        else some ((BitVec.ofInt 128 n &&& BitVec.ofNat 128 (2 ^ shiftWidth ty - 1)) >>> m.toNat).toInt) ty := by
  rw [Interp.shift, integerKind_width sized]
  simp only
  rw [if_neg (by omega)]
  cases left <;> rfl

theorem binaryScalar_integers {n m : Int} (kind kind' : IntegerType) (other : operator ≠ .assign ∧ operator ≠ .notEqual)
    (operation : operator ≠ .is ∧ operator ≠ .slash)
    (integral : ¬(operator = .power ∧ Interp.isFloatType ty)) :
    Interp.binaryScalar power operator (.integer n kind) (.integer m kind') ty =
      Interp.ofResult (Interp.integerBinary operator n m ty) := by
  rw [Interp.binaryScalar, if_neg operation.1, if_neg (not_or.2 other), if_neg integral, if_neg]
  rintro (float | float | slash)
  · cases float
  · cases float
  · exact operation.2 slash

/-- What the validator leaves of the binary operators and of the types of their results. -/
def ValidBinary (operator : Operator) (ty : Ty) : Prop :=
  match operator with
  | .other _ => False
  | .less | .lessEqual | .greater | .greaterEqual => ty = .boolean
  | _ => True

theorem not_foldLess (n m : Int) : (!foldLess n m .boolean) = decide (m ≤ n) := by
  show (!decide (n < m)) = _
  rw [← decide_not]
  exact decide_eq_decide.2 not_lt

theorem answers_comparison {truth : Bool} (folded : some (ConstantValue.boolean truth) = some known) :
    AnswersKnown (.ok (some (.boolean truth))) (typedConstant known ty) := by
  obtain rfl := Option.some.inj folded
  exact answers_boolean truth

theorem foldIntegers_answers {n m : Int} (kind kind' : IntegerType) (valid : ValidBinary operator ty)
    (sized : isIntegerLiteral ty = false) (negative : operator = .power → Interp.isFloatType ty = true → m < 0)
    (folded : foldIntegers operator n m ty = some known) :
    AnswersKnown (Interp.binaryScalar power operator (.integer n kind) (.integer m kind') ty)
      (typedConstant known ty) := by
  have computed (other : operator ≠ .assign ∧ operator ≠ .notEqual) (operation : operator ≠ .is ∧ operator ≠ .slash)
      (integral : operator ≠ .power) :
      Interp.binaryScalar power operator (.integer n kind) (.integer m kind') ty =
        Interp.ofResult (Interp.integerBinary operator n m ty) :=
    binaryScalar_integers kind kind' other operation fun float => integral float.1
  cases operator with
  | assign => exact answers_comparison folded
  | notEqual => exact answers_comparison folded
  | less | greater =>
    obtain rfl : ty = .boolean := valid
    rw [computed (by decide) (by decide) (by decide)]
    exact answers_comparison folded
  | lessEqual | greaterEqual =>
    obtain rfl : ty = .boolean := valid
    rw [computed (by decide) (by decide) (by decide)]
    rw [foldIntegers, not_foldLess] at folded
    exact answers_comparison folded
  | plus | minus | star | and | or | xor =>
    rw [computed (by decide) (by decide) (by decide)]
    exact answers_typedInteger sized folded
  | div | percent =>
    rw [computed (by decide) (by decide) (by decide), Interp.integerBinary]
    rw [foldIntegers] at folded
    split at folded
    next nonzero =>
      rw [if_pos nonzero]
      exact answers_typedInteger sized folded
    next => cases folded
  | power =>
    rw [foldIntegers] at folded
    split at folded
    next exponent =>
      have integral : ¬(Operator.power = .power ∧ Interp.isFloatType ty = true) := fun float =>
        absurd (negative rfl float.2) (not_lt.2 exponent.1)
      rw [binaryScalar_integers kind kind' (by decide) (by decide) integral, Interp.integerBinary,
        if_pos exponent.1, if_pos exponent.2]
      exact answers_typedInteger sized folded
    next => cases folded
  | shl | shr =>
    rw [computed (by decide) (by decide) (by decide), Interp.integerBinary]
    rw [foldIntegers] at folded
    split at folded
    next count =>
      rw [shift_eq sized count]
      exact answers_typedInteger sized folded
    next => cases folded
  | slash | not | is => cases folded
  | other name => exact valid.elim

/-! ### The other operands -/

theorem foldBooleans_answers {p q : Bool} (valid : ValidBinary operator ty)
    (folded : foldBooleans operator p q = some known) :
    AnswersKnown (Interp.binaryScalar power operator (.boolean p) (.boolean q) ty) (typedConstant known ty) := by
  cases operator with
  | and | or | xor | assign | notEqual => exact answers_comparison folded
  | other name => exact valid.elim
  | _ => cases folded

theorem binaryScalar_floats {p q : FloatValue} (operation : operator ≠ .is ∧ operator ≠ .assign ∧ operator ≠ .notEqual) :
    Interp.binaryScalar power operator (.float p) (.float q) ty =
      Interp.floatBinaryScalar power operator p.value q.value ty := by
  have left : Interp.scalarAsFloat (.float p) = .ok p.value := congrArg Except.ok p.narrowed
  have right : Interp.scalarAsFloat (.float q) = .ok q.value := congrArg Except.ok q.narrowed
  rw [Interp.binaryScalar.eq_def, if_neg operation.1, if_neg (not_or.2 operation.2)]
  simp only
  have float : Interp.isFloatScalar (.float p) = true := rfl
  rw [left, right, if_pos (Or.inl float)]
  split
  next exponent =>
    rw [exponent.1]
    rfl
  next => rfl

theorem foldFloats_answers {p q : FloatValue} (valid : ValidBinary operator ty)
    (folded : foldFloats power operator p.value q.value = some known) :
    AnswersKnown (Interp.binaryScalar power operator (.float p) (.float q) ty) (typedConstant known ty) := by
  have computed (number : Number) (folded : some (ConstantValue.float number) = some known) :
      AnswersKnown (.ok (some (Interp.floatScalar number (floatKind ty)))) (typedConstant known ty) := by
    obtain rfl := Option.some.inj folded
    exact answers_floatScalar number ty
  cases operator with
  | assign | notEqual => exact answers_comparison folded
  | less | lessEqual | greater | greaterEqual =>
    rw [binaryScalar_floats (by decide)]
    exact answers_comparison folded
  | plus | minus | star | slash | power =>
    rw [binaryScalar_floats (by decide)]
    exact computed _ folded
  | other name => exact valid.elim
  | _ => cases folded

theorem foldBinary_answers (valid : ValidBinary operator ty) (leftKnown : Matches left x)
    (rightKnown : Matches right y) (integers : ∀ n kind m kind', left = .integer n kind → right = .integer m kind' →
      isIntegerLiteral ty = false ∧ (operator = .power → Interp.isFloatType ty = true → m < 0))
    (folded : foldBinary power operator (some left) (some right) ty = some known) :
    AnswersKnown (Interp.binaryScalar power operator x y ty) known := by
  have raw : (foldBinaryRaw power operator left right ty).bind
      (fun result => some (typedConstant result ty)) = some known := folded
  obtain ⟨result, computed, typed⟩ := Option.bind_eq_some_iff.1 raw
  obtain rfl := Option.some.inj typed
  cases leftKnown with
  | integer n known kind =>
    cases rightKnown with
    | integer m known' kind' =>
      obtain ⟨sized, negative⟩ := integers n known m known' rfl rfl
      exact foldIntegers_answers kind kind' valid sized negative computed
    | _ => cases computed
  | float p =>
    cases rightKnown with
    | float q => exact foldFloats_answers valid computed
    | _ => cases computed
  | boolean p =>
    cases rightKnown with
    | boolean q => exact foldBooleans_answers valid computed
    | _ => cases computed
  | string => cases computed

theorem foldUnary_answers (minus : operator ≠ .plus) (operandKnown : Matches left x)
    (integer : ∀ n kind, left = .integer n kind → isIntegerLiteral ty = false)
    (folded : foldUnary operator (some left) ty = some known) :
    AnswersKnown (Interp.unaryScalar operator x ty) known := by
  have raw : (foldUnaryRaw operator left ty).bind
      (fun result => some (typedConstant result ty)) = some known := folded
  obtain ⟨result, computed, typed⟩ := Option.bind_eq_some_iff.1 raw
  obtain rfl := Option.some.inj typed
  cases operandKnown with
  | integer n known kind =>
    have sized := integer n known rfl
    cases operator with
    | plus => exact absurd rfl minus
    | minus | not => exact answers_typedInteger sized computed
    | _ => cases computed
  | float p =>
    cases operator with
    | plus => exact absurd rfl minus
    | minus =>
      obtain rfl := Option.some.inj computed
      exact answers_floatScalar p.value.neg ty
    | _ => cases computed
  | boolean truth =>
    cases operator with
    | not => exact answers_comparison computed
    | _ => cases computed
  | string => cases operator <;> cases computed

/-! ### Casts -/

/-- The cast of a known integer, with its precision of 64 bits, to a type of 32 bits. -/
def KeptCast (known : ConstantValue) (ty : Ty) : Prop :=
  match known, ty with
  | .integer value _, .float .float32 => Format.binary32.round (double value) = double value
  | _, _ => True

theorem foldNarrowing_answers {number : Number} (folded : foldNarrowing number = some known) :
    AnswersKnown (Interp.finiteFloat number .float32) known := by
  rw [foldNarrowing] at folded
  have scalar (fits : ¬(number.isFinite = true ∧ (Format.binary32.round number).isFinite = false)) :
      Interp.finiteFloat number .float32 = .ok (some (Interp.floatScalar number .float32)) := by
    rw [Interp.finiteFloat, if_neg]
    rintro ⟨-, finite, infinite⟩
    exact fits ⟨finite, by simpa [narrow] using infinite⟩
  split at folded
  next narrowed =>
    obtain rfl := Option.some.inj folded
    have same : number = .nan := by
      cases number with
      | finite q =>
        rw [Format.round] at narrowed
        split at narrowed <;> cases narrowed
      | infinity => cases narrowed
      | nan => rfl
    subst same
    exact ⟨_, scalar (fun infinite => absurd infinite.1 (by decide)), matches_float_iff.2 rfl⟩
  next q narrowed =>
    obtain rfl := Option.some.inj folded
    refine ⟨_, scalar (fun infinite => ?_), matches_float_iff.2 narrowed.symm⟩
    rw [narrowed] at infinite
    cases infinite.2
  next => cases folded

theorem castDouble_answers (n : Int) (target : FloatType) (kept : narrow target (double n) = double n) :
    AnswersKnown (Interp.finiteFloat (double n) target) (.float (double n)) := by
  refine ⟨Interp.floatScalar (double n) target, ?_, matches_float_iff.2 kept.symm⟩
  rw [Interp.finiteFloat, if_neg]
  rintro ⟨rfl, finite, infinite⟩
  rw [kept] at infinite
  exact infinite finite

theorem foldCast_answers (render : Scalar → String) (valueKnown : Matches left x) (kept : KeptCast left ty)
    (folded : foldCast (some left) ty = some known) : AnswersKnown (Interp.cast render x ty) known := by
  cases valueKnown with
  | integer n known' kind =>
    cases ty with
    | integer target =>
      have checked : foldedInteger (some n) (.integer target) = some known := folded
      exact answers_foldedInteger rfl checked
    | float target =>
      obtain rfl := Option.some.inj folded
      cases target with
      | float32 => exact castDouble_answers n .float32 kept
      | float64 => exact castDouble_answers n .float64 rfl
    | boolean =>
      obtain rfl := Option.some.inj folded
      exact answers_boolean _
    | _ => cases folded
  | float p =>
    have number : Interp.scalarAsFloat (.float p) = .ok p.value := congrArg Except.ok p.narrowed
    cases ty with
    | float target =>
      have result : Interp.cast render (.float p) (.float target) = Interp.finiteFloat p.value target := by
        have unfolded : Interp.cast render (.float p) (.float target) =
            (Interp.scalarAsFloat (.float p)).bind fun number => Interp.finiteFloat number target := rfl
        rw [unfolded, number]
        rfl
      rw [result]
      cases target with
      | float32 => exact foldNarrowing_answers folded
      | float64 =>
        obtain rfl := Option.some.inj folded
        exact ⟨Interp.floatScalar p.value .float64, rfl, matches_float_iff.2 rfl⟩
    | integer target =>
      obtain ⟨value, kind, narrowed⟩ := p
      cases value with
      | finite q =>
        have checked : foldedInteger (some (Interp.truncateDouble q)) (.integer target) = some known := folded
        exact answers_foldedInteger rfl checked
      | _ => cases folded
    | boolean =>
      obtain rfl := Option.some.inj folded
      exact answers_boolean _
    | _ => cases folded
  | boolean truth =>
    cases ty with
    | boolean =>
      obtain rfl := Option.some.inj folded
      exact answers_boolean _
    | _ => cases folded
  | string text =>
    cases ty with
    | boolean =>
      obtain rfl := Option.some.inj folded
      exact answers_boolean _
    | string =>
      obtain rfl := Option.some.inj folded
      exact ⟨_, rfl, .string text⟩
    | _ => cases folded

theorem foldCast_answers_iff (render : Scalar → String) (valueKnown : Matches left x)
    (folded : foldCast (some left) ty = some known) :
    AnswersKnown (Interp.cast render x ty) known ↔ KeptCast left ty := by
  refine ⟨fun answers => ?_, fun kept => foldCast_answers render valueKnown kept folded⟩
  cases valueKnown with
  | integer n known' kind =>
    cases ty with
    | float target =>
      cases target with
      | float32 =>
        obtain rfl := Option.some.inj folded
        obtain ⟨value, result, same⟩ := answers
        have narrowing : Interp.finiteFloat (double n) .float32 = .ok (some value) := result
        rw [Interp.finiteFloat] at narrowing
        split at narrowing
        next => cases narrowing
        next =>
          obtain rfl := Option.some.inj (Except.ok.inj narrowing)
          exact (matches_float_iff.1 same).symm
      | float64 => trivial
    | _ => trivial
  | _ => cases ty <;> trivial

end

end BasicNext.Native
