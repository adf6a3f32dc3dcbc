import BasicNext.Interp.Executor
import BasicNext.Lib.FloatingPoint

/-!
# Scalars of the interpreter

The operators and the conversions of the interpreter on scalars whose floating-point values are rationals
(`bn_interp::executor`, `bn_interp::numeric`). A value of `FLOAT32` is computed with 64 bits and then
rounded, so it always is a number of 32 bits. The power of floating-point numbers is a parameter.
-/

namespace BasicNext.Interp

open Lib (Number Format)

def narrow (kind : FloatType) (value : Number) : Number :=
  match kind with
  | .float32 => Format.binary32.round value
  | .float64 => value

theorem narrow_narrow (kind : FloatType) (value : Number) : narrow kind (narrow kind value) = narrow kind value := by
  cases kind with
  | float32 => exact Format.round_round _ value
  | float64 => rfl

structure FloatValue where
  value : Number
  kind : FloatType
  narrowed : narrow kind value = value
deriving DecidableEq

inductive Scalar where
  | integer (value : Int) (kind : IntegerType)
  | float (value : FloatValue)
  | boolean (value : Bool)
  | string (value : String)
deriving DecidableEq

/-- The scalar that an operation on scalars without floating-point numbers answers. -/
def Scalar.ofValue : Value → Option Scalar
  | .integer value kind => some (.integer value kind)
  | .boolean value => some (.boolean value)
  | .string value => some (.string value)
  | _ => none

abbrev ScalarResult := Except RuntimeError (Option Scalar)

def ofResult (result : Result) : ScalarResult := result.map Scalar.ofValue

/-! ### Numbers of 64 bits -/

/-- `value as f64` -/
def double (value : Int) : Number := Format.binary64.round (.finite value)

def addDouble (x y : Number) : Number := Format.binary64.round (x.add y)

def subDouble (x y : Number) : Number := Format.binary64.round (x.sub y)

def mulDouble (x y : Number) : Number := Format.binary64.round (x.mul y)

def divDouble (x y : Number) : Number := Format.binary64.round (x.div y)

/-- `value.trunc() as i128` -/
def truncateDouble (value : ℚ) : Int := max (-2 ^ 127) (min (2 ^ 127 - 1) (Number.truncate value))

/-- `float_value` -/
def floatScalar (value : Number) (kind : FloatType) : Scalar := .float ⟨narrow kind value, kind, narrow_narrow kind value⟩

/-- `finite_float`: an infinite narrowing of a finite number is an overflow. -/
def finiteFloat (value : Number) (kind : FloatType) : ScalarResult :=
  if kind = .float32 ∧ value.isFinite ∧ ¬(narrow .float32 value).isFinite then
    .error (.numericOverflow "FLOAT64 value does not fit FLOAT32")
  else .ok (some (floatScalar value kind))

/-- `number_as_float` -/
def scalarAsFloat : Scalar → Except RuntimeError Number
  | .integer value _ => .ok (double value)
  | .float value => .ok (narrow value.kind value.value)
  | _ => .error (.typeMismatch "numeric value" "non-numeric value" "numeric operation")

def isFloatScalar : Scalar → Bool
  | .float _ => true
  | _ => false

/-! ### Operators -/

def unaryScalar (operator : Operator) (operand : Scalar) (ty : Ty) : ScalarResult :=
  match operand with
  | .float value =>
    if operator = .minus then .ok (some (floatScalar value.value.neg (floatKind ty)))
    else .error (.typeMismatch "numeric or BOOLEAN operand" "incompatible value" ("unary " ++ operator.name))
  | .integer value kind => ofResult (unary operator (.integer value kind) ty)
  | .boolean value => ofResult (unary operator (.boolean value) ty)
  | .string value => ofResult (unary operator (.string value) ty)

def equalScalars : Scalar → Scalar → Bool
  | .integer left _, .integer right _ => left == right
  | .float left, .float right => left.value.equal right.value
  | .integer left _, .float right => (double left).equal right.value
  | .float left, .integer right _ => left.value.equal (double right)
  | .boolean left, .boolean right => left == right
  | .string left, .string right => left == right
  | _, _ => false

def floatBinaryScalar (power : Number → Number → Number) (operator : Operator) (left right : Number) (ty : Ty) :
    ScalarResult :=
  match operator with
  | .plus => .ok (some (floatScalar (addDouble left right) (floatKind ty)))
  | .minus => .ok (some (floatScalar (subDouble left right) (floatKind ty)))
  | .star => .ok (some (floatScalar (mulDouble left right) (floatKind ty)))
  | .slash => .ok (some (floatScalar (divDouble left right) (floatKind ty)))
  | .power => .ok (some (floatScalar (power left right) (floatKind ty)))
  | .less => .ok (some (.boolean (left.less right)))
  | .lessEqual => .ok (some (.boolean (left.lessEqual right)))
  | .greater => .ok (some (.boolean (right.less left)))
  | .greaterEqual => .ok (some (.boolean (right.lessEqual left)))
  | _ => .error (.typeMismatch "numeric operator" operator.name "floating operation")

/-- A binary operator on scalars; a type, the operand of `IS`, is none. -/
def binaryScalar (power : Number → Number → Number) (operator : Operator) (left right : Scalar) (ty : Ty) :
    ScalarResult :=
  if operator = .is then .error (.invalidIr "IS requires a type operand")
  else if operator = .assign ∨ operator = .notEqual then
    let equal := equalScalars left right
    .ok (some (.boolean (if operator = .assign then equal else !equal)))
  else
    match left, right with
    | .boolean left, .boolean right => ofResult (booleanBinary operator left right)
    | .string left, .string right => ofResult (stringBinary operator left right)
    | _, _ =>
      if operator = .power ∧ isFloatType ty then do
        let left ← scalarAsFloat left
        let right ← scalarAsFloat right
        .ok (some (floatScalar (power left right) (floatKind ty)))
      else if isFloatScalar left ∨ isFloatScalar right ∨ operator = .slash then do
        let left ← scalarAsFloat left
        let right ← scalarAsFloat right
        floatBinaryScalar power operator left right ty
      else
        match left, right with
        | .integer left _, .integer right _ => ofResult (integerBinary operator left right ty)
        | _, _ => .error (.typeMismatch "integral value" "non-integral value" "integer operation")

/-! ### Conversions -/

/-- `cast`, to a scalar type. `render` is the text that `PRINT` writes. -/
def cast (render : Scalar → String) (value : Scalar) (ty : Ty) : ScalarResult :=
  match ty with
  | .boolean =>
    .ok (some (.boolean (match value with
      | .boolean value => value
      | .integer value _ => value != 0
      | .float value => !value.value.equal (.finite 0)
      | .string value => !value.isEmpty)))
  | .integer _ =>
    match value with
    | .integer value _ => ofResult (checkedInteger (some value) ty)
    | .float ⟨.finite value, _, _⟩ => ofResult (checkedInteger (some (truncateDouble value)) ty)
    | .float _ => .error (.invalidNumericConversion "NAN and infinity cannot convert to an integer")
    | _ => .error (.typeMismatch "INTEGER" "non-integer-compatible value" "integer conversion")
  | .float kind => do finiteFloat (← scalarAsFloat value) kind
  | .string =>
    match value with
    | .string value => .ok (some (.string value))
    | value => .ok (some (.string (render value)))
  | _ => .error (.typeMismatch "supported conversion target" "incompatible value or type" "value conversion")

end BasicNext.Interp
