import BasicNext.Interp.Executor
import BasicNext.Semantic.TypeNames

/-!
# Constant integers

The folder of the analyzer (`semantic::helpers1::constant_integer`) computes the constants of a program
with 128 bits, and the interpreter runs the same operations at the type that they get. Both are given on
the expressions of the program; an operator is the one that its name says.
-/

namespace BasicNext

def Interp.operatorNamed : String → Interp.Operator
  | "Assign" => .assign
  | "NotEqual" => .notEqual
  | "Less" => .less
  | "LessEqual" => .lessEqual
  | "Greater" => .greater
  | "GreaterEqual" => .greaterEqual
  | "Plus" => .plus
  | "Minus" => .minus
  | "Star" => .star
  | "Slash" => .slash
  | "Percent" => .percent
  | "Power" => .power
  | "DIV" => .div
  | "AND" => .and
  | "OR" => .or
  | "XOR" => .xor
  | "NOT" => .not
  | "SHL" => .shl
  | "SHR" => .shr
  | "IS" => .is
  | name => .other name

namespace Semantic

open Frontend Interp

/-- A shift to the right by the sign. -/
def checkedShr (value : Int) (count : Nat) : Option Int :=
  if count < 128 then some (value >>> count) else none

def constantBinary (operator : Operator) (left right : Int) : Option Int :=
  match operator with
  | .plus => checkedAdd left right
  | .minus => checkedSub left right
  | .star => checkedMul left right
  | .div => if right ≠ 0 then checkedDivEuclid left right else none
  | .percent => if right ≠ 0 then checkedRemEuclid left right else none
  | .and => some (bitAnd left right)
  | .or => some (bitOr left right)
  | .xor => some (bitXor left right)
  | .power => if 0 ≤ right ∧ right < 2 ^ 32 then checkedPow left right.toNat else none
  | .shl => if 0 ≤ right ∧ right < 128 then checkedShl left right.toNat else none
  | .shr => if 0 ≤ right ∧ right < 128 then checkedShr left right.toNat else none
  | _ => none

def constantInteger : Expression → Option Int
  | .literal (.integer text) => parseInteger text
  | .unary operator operand =>
    if operatorNamed operator = .minus then (constantInteger operand).bind checkedNeg else none
  | .binary operator left right => do
    let left ← constantInteger left
    let right ← constantInteger right
    constantBinary (operatorNamed operator) left right
  | _ => none

/-- The interpreter on an expression of integer literals, with every operation at one integer type. The
value of a literal is not checked (`constant_value`). -/
def evaluate (kind : IntegerType) : Expression → Result
  | .literal (.integer text) =>
    match parseInteger text with
    | some value => .ok (.integer value kind)
    | none => .error (.invalidIr "invalid integer constant")
  | .unary operator operand => do
    let operand ← evaluate kind operand
    unary (operatorNamed operator) operand (.integer kind)
  | .binary operator left right => do
    let left ← evaluate kind left
    let right ← evaluate kind right
    binary (operatorNamed operator) left right (.integer kind) {} none
  | _ => .error (.invalidIr "not an operation on integer literals")

end Semantic

end BasicNext
