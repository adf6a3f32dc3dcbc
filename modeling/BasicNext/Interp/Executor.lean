import BasicNext.Interp.Value
import BasicNext.Lib.Word

/-!
# Operators of the interpreter

`bn_interp::executor`: the unary and binary operators on runtime values. An operator is the name that the
parser gives it. Integers of all eight types are computed as 128-bit ones and then checked against the
range of the result type.
-/

namespace BasicNext

def IntegerType.word : IntegerType → Lib.Word
  | .byte => ⟨false, 8, by decide⟩
  | .int8 => ⟨true, 8, by decide⟩
  | .int16 => ⟨true, 16, by decide⟩
  | .int32 => ⟨true, 32, by decide⟩
  | .int64 => ⟨true, 64, by decide⟩
  | .uint16 => ⟨false, 16, by decide⟩
  | .uint32 => ⟨false, 32, by decide⟩
  | .uint64 => ⟨false, 64, by decide⟩

def IntegerType.width : IntegerType → Nat
  | .byte | .int8 => 8
  | .int16 | .uint16 => 16
  | .int32 | .uint32 => 32
  | .int64 | .uint64 => 64

/-- `integer_type_name`: the spelling in the language. -/
def IntegerType.name : IntegerType → String
  | .byte => "BYTE"
  | .int8 => "INT8"
  | .int16 => "INT16"
  | .int32 => "INT32"
  | .int64 => "INT64"
  | .uint16 => "UINT16"
  | .uint32 => "UINT32"
  | .uint64 => "UINT64"

namespace Interp

inductive Operator where
  | assign | notEqual | less | lessEqual | greater | greaterEqual
  | plus | minus | star | slash | percent | power
  | div | and | or | xor | not | shl | shr | is
  | other (name : String)
deriving DecidableEq, Repr

def Operator.name : Operator → String
  | .assign => "Assign"
  | .notEqual => "NotEqual"
  | .less => "Less"
  | .lessEqual => "LessEqual"
  | .greater => "Greater"
  | .greaterEqual => "GreaterEqual"
  | .plus => "Plus"
  | .minus => "Minus"
  | .star => "Star"
  | .slash => "Slash"
  | .percent => "Percent"
  | .power => "Power"
  | .div => "DIV"
  | .and => "AND"
  | .or => "OR"
  | .xor => "XOR"
  | .not => "NOT"
  | .shl => "SHL"
  | .shr => "SHR"
  | .is => "IS"
  | .other name => name

/-- `operator_spelling`: the spelling in the language. -/
def Operator.spelling : Operator → String
  | .percent => "%"
  | .slash => "/"
  | .plus => "+"
  | .minus => "-"
  | .star => "*"
  | .power => "**"
  | .assign => "="
  | .notEqual => "<>"
  | .less => "<"
  | .lessEqual => "<="
  | .greater => ">"
  | .greaterEqual => ">="
  | operator => operator.name

inductive RuntimeError where
  | numericOverflow (operation : String)
  | divisionByZero (operation : String)
  | invalidExponent (message : String)
  | invalidShiftCount (message : String)
  | invalidForStep (message : String)
  | invalidNumericConversion (message : String)
  | typeMismatch (expected actual context : String)
  | invalidIr (message : String)
deriving DecidableEq, Repr

abbrev Result := Except RuntimeError Value

/-! ### 128-bit integers -/

/-- An integer that fits `i128`. -/
def i128 (n : Int) : Option Int := if -2 ^ 127 ≤ n ∧ n < 2 ^ 127 then some n else none

def checkedNeg (value : Int) : Option Int := i128 (-value)

def checkedAdd (left right : Int) : Option Int := i128 (left + right)

def checkedSub (left right : Int) : Option Int := i128 (left - right)

def checkedMul (left right : Int) : Option Int := i128 (left * right)

/-- The Euclidean quotient. -/
def checkedDivEuclid (left right : Int) : Option Int := if right = 0 then none else i128 (left / right)

/-- The Euclidean remainder, none as well where the quotient overflows. -/
def checkedRemEuclid (left right : Int) : Option Int :=
  if right = 0 ∨ i128 (left / right) = none then none else i128 (left % right)

def checkedPow (base : Int) (exponent : Nat) : Option Int := i128 (base ^ exponent)

def checkedShl (value : Int) (count : Nat) : Option Int :=
  if count < 128 then some (BitVec.ofInt 128 value <<< count).toInt else none

def bitNot (value : Int) : Int := (~~~BitVec.ofInt 128 value).toInt

def bitAnd (left right : Int) : Int := (BitVec.ofInt 128 left &&& BitVec.ofInt 128 right).toInt

def bitOr (left right : Int) : Int := (BitVec.ofInt 128 left ||| BitVec.ofInt 128 right).toInt

def bitXor (left right : Int) : Int := (BitVec.ofInt 128 left ^^^ BitVec.ofInt 128 right).toInt

/-! ### Numbers -/

/-- `integer_range`. -/
def integerRange : IntegerType → Int × Int
  | .byte => (0, 2 ^ 8 - 1)
  | .int8 => (-2 ^ 7, 2 ^ 7 - 1)
  | .int16 => (-2 ^ 15, 2 ^ 15 - 1)
  | .int32 => (-2 ^ 31, 2 ^ 31 - 1)
  | .int64 => (-2 ^ 63, 2 ^ 63 - 1)
  | .uint16 => (0, 2 ^ 16 - 1)
  | .uint32 => (0, 2 ^ 32 - 1)
  | .uint64 => (0, 2 ^ 64 - 1)

def integerKind : Ty → Option IntegerType
  | .integer kind => some kind
  | _ => none

def floatKind : Ty → FloatType
  | .float kind => kind
  | _ => .float64

def isFloatType : Ty → Bool
  | .float _ => true
  | _ => false

def floatValue (value : Float) (kind : FloatType) : Value :=
  .float (match kind with | .float32 => value.toFloat32.toFloat | .float64 => value) kind

def isFloatValue : Value → Bool
  | .float .. => true
  | _ => false

def integer : Value → Except RuntimeError (Int × IntegerType)
  | .integer value kind => .ok (value, kind)
  | _ => .error (.typeMismatch "integral value" "non-integral value" "integer operation")

def numberAsFloat : Value → Except RuntimeError Float
  | .integer value _ => .ok (Float.ofInt value)
  | .float value .float32 => .ok value.toFloat32.toFloat
  | .float value .float64 => .ok value
  | _ => .error (.typeMismatch "numeric value" "non-numeric value" "numeric operation")

/-- An integer result, when it fits the result type. -/
def checkedInteger (value : Option Int) (ty : Ty) : Result :=
  match value with
  | none => .error (.numericOverflow "performing an integer operation")
  | some value =>
    let kind := (integerKind ty).getD .int32
    if (integerRange kind).1 ≤ value ∧ value ≤ (integerRange kind).2 then .ok (.integer value kind)
    else .error (.numericOverflow ("converting " ++ toString value ++ " to " ++ kind.name))

def ordered {α : Type} [LT α] [LE α] [DecidableLT α] [DecidableLE α] (operator : Operator) (left right : α) : Result :=
  match operator with
  | .less => .ok (.boolean (left < right))
  | .lessEqual => .ok (.boolean (left ≤ right))
  | .greater => .ok (.boolean (right < left))
  | .greaterEqual => .ok (.boolean (right ≤ left))
  | _ => .error
    (.typeMismatch "ordered comparison operator" operator.name "numeric ordered comparison")

/-! ### Operators -/

@[grind] def unary (operator : Operator) (operand : Value) (ty : Ty) : Result :=
  match operator, operand with
  | .minus, .integer value _ => checkedInteger (checkedNeg value) ty
  | .minus, .float value _ => .ok (floatValue (-value) (floatKind ty))
  | .not, .boolean value => .ok (.boolean !value)
  | .not, .integer value _ => checkedInteger (some (bitNot value)) ty
  | _, _ => .error
    (.typeMismatch "numeric or BOOLEAN operand" "incompatible value" ("unary " ++ operator.name))

def shift (value count : Int) (ty : Ty) (left : Bool) : Result :=
  let width := ((integerKind ty).getD .int32).width
  if count < 0 ∨ width ≤ count then
    .error (.invalidShiftCount ("shift count must be in 0.." ++ toString width))
  else if left then checkedInteger (checkedShl value count.toNat) ty
  else
    let mask := BitVec.ofNat 128 (2 ^ width - 1)
    checkedInteger (some ((BitVec.ofInt 128 value &&& mask) >>> count.toNat).toInt) ty

def booleanBinary (operator : Operator) (left right : Bool) : Result :=
  match operator with
  | .and => .ok (.boolean (left && right))
  | .or => .ok (.boolean (left || right))
  | .xor => .ok (.boolean (left ^^ right))
  | _ => .error (.typeMismatch "AND, OR or XOR" operator.name "BOOLEAN operation")

def stringBinary (operator : Operator) (left right : String) : Result :=
  match operator with
  | .plus => .ok (.string (left ++ right))
  | .less => .ok (.boolean (left < right))
  | .lessEqual => .ok (.boolean (left ≤ right))
  | .greater => .ok (.boolean (right < left))
  | .greaterEqual => .ok (.boolean (right ≤ left))
  | _ => .error (.typeMismatch "Plus or an ordering operator" operator.name "STRING operation")

def floatBinary (operator : Operator) (left right : Float) (ty : Ty) : Result :=
  match operator with
  | .plus => .ok (floatValue (left + right) (floatKind ty))
  | .minus => .ok (floatValue (left - right) (floatKind ty))
  | .star => .ok (floatValue (left * right) (floatKind ty))
  | .slash => .ok (floatValue (left / right) (floatKind ty))
  | .power => .ok (floatValue (left.pow right) (floatKind ty))
  | .less => .ok (.boolean (left < right))
  | .lessEqual => .ok (.boolean (left ≤ right))
  | .greater => .ok (.boolean (right < left))
  | .greaterEqual => .ok (.boolean (right ≤ left))
  | _ => .error (.typeMismatch "numeric operator" operator.name "floating operation")

@[grind] def integerBinary (operator : Operator) (left right : Int) (ty : Ty) : Result :=
  match operator with
  | .plus => checkedInteger (checkedAdd left right) ty
  | .minus => checkedInteger (checkedSub left right) ty
  | .star => checkedInteger (checkedMul left right) ty
  | .div =>
    if right ≠ 0 then checkedInteger (checkedDivEuclid left right) ty
    else .error (.divisionByZero operator.spelling)
  | .percent =>
    if right ≠ 0 then checkedInteger (checkedRemEuclid left right) ty
    else .error (.divisionByZero operator.spelling)
  | .power =>
    if 0 ≤ right then
      if right < 2 ^ 32 then checkedInteger (checkedPow left right.toNat) ty
      else .error (.invalidExponent "integer exponent is too large")
    else .error (.invalidExponent "integer exponent cannot be negative")
  | .and => checkedInteger (some (bitAnd left right)) ty
  | .or => checkedInteger (some (bitOr left right)) ty
  | .xor => checkedInteger (some (bitXor left right)) ty
  | .shl => shift left right ty true
  | .shr => shift left right ty false
  | .less => .ok (.boolean (left < right))
  | .lessEqual => .ok (.boolean (left ≤ right))
  | .greater => .ok (.boolean (right < left))
  | .greaterEqual => .ok (.boolean (right ≤ left))
  | _ => .error (.typeMismatch "integer operator" operator.name "integer operation")

/-- A binary operator; the classes and the length of an allocation are for `IS`. -/
def binary (operator : Operator) (left right : Value) (ty : Ty) (classes : ClassModel)
    (pointerLength : Option Nat) : Result :=
  if operator = .is then
    match right with
    | .type test => .ok (.boolean (left.isValue classes test pointerLength))
    | _ => .error (.invalidIr "IS requires a type operand")
  else if operator = .assign ∨ operator = .notEqual then
    let equal := left.equals right
    .ok (.boolean (if operator = .assign then equal else !equal))
  else
    match left, right with
    | .boolean left, .boolean right => booleanBinary operator left right
    | .string left, .string right => stringBinary operator left right
    | _, _ =>
      if operator = .power ∧ isFloatType ty then do
        let left ← numberAsFloat left
        let right ← numberAsFloat right
        .ok (floatValue (left.pow right) (floatKind ty))
      else
        match left, right with
        | .date left, .date right => ordered operator left right
        | .time left, .time right => ordered operator left right
        | _, _ =>
          if isFloatValue left ∨ isFloatValue right ∨ operator = .slash then do
            let left ← numberAsFloat left
            let right ← numberAsFloat right
            floatBinary operator left right ty
          else do
            let (left, _) ← integer left
            let (right, _) ← integer right
            integerBinary operator left right ty

end Interp

end BasicNext
