import BasicNext.Interp.Scalars
import BasicNext.Ir.Model
import BasicNext.Semantic.ConstantInteger

/-!
# Frames of the interpreter

What one instruction does to the frame of its function (`bn_interp::executor::part2`), as far as scalars are
concerned: the values and the bindings of a frame hold a scalar or something else. What an instruction
computes from scalars only is given; what calls, objects, vectors and the host bring may be any value.
-/

namespace BasicNext.Interp

open Lib (Number parseDouble)
open Ir (Constant Instruction ValueId SymbolId instructionDefines)

/-- What a value or a binding holds; none is a value that is no scalar. -/
abbrev Held := Option Scalar

structure Frame where
  values : ValueId → Option Held
  symbols : SymbolId → Option Held
  released : Finset SymbolId

namespace Frame

def set (frame : Frame) (destination : ValueId) (held : Held) : Frame :=
  { frame with values := Function.update frame.values destination (some held) }

/-- A store also makes a released binding live. -/
def assign (frame : Frame) (symbol : SymbolId) (held : Held) : Frame where
  values := frame.values
  symbols := Function.update frame.symbols symbol (some held)
  released := frame.released.erase symbol

def remove (frame : Frame) (symbol : SymbolId) : Frame :=
  { frame with symbols := Function.update frame.symbols symbol none }

def release (frame : Frame) (symbol : SymbolId) : Frame := { frame with released := insert symbol frame.released }

variable (frame : Frame) (destination value : ValueId) (symbol : SymbolId) (held : Held)

@[simp] theorem set_symbols : (frame.set destination held).symbols = frame.symbols := rfl

@[simp] theorem set_values : (frame.set destination held).values destination = some held := Function.update_self ..

variable {destination value} in
theorem set_values_of_ne (ne : value ≠ destination) :
    (frame.set destination held).values value = frame.values value := Function.update_of_ne ne ..

end Frame

/-! ### Constants and coercions -/

/-- `parse_float`, of a text that the lexer accepts. -/
def parseFloat (text : String) : Option Number :=
  if text = "NAN" then some .nan
  else if text = "INF" then some (.infinity false)
  else if text = "-INF" then some (.infinity true)
  else parseDouble text

/-- `constant_value` -/
def constantValue (value : Constant) (ty : Ty) : ScalarResult :=
  match value with
  | .integer text =>
    match Semantic.parseInteger text with
    | some value => .ok (some (.integer value ((integerKind ty).getD .int32)))
    | none => .error (.invalidIr "invalid integer constant")
  | .float text =>
    match parseFloat text with
    | some value => .ok (some (floatScalar value (floatKind ty)))
    | none => .error (.invalidIr "validated FLOAT literal")
  | .string value => .ok (some (.string value))
  | .boolean value => .ok (some (.boolean value))
  | _ => .ok none

/-- `same_numeric_kind` -/
def sameNumericKind (value : Scalar) (ty : Ty) : Bool :=
  match value, ty with
  | .integer _ kind, .integer expected => kind == expected
  | .float value, .float expected => value.kind == expected
  | _, _ => false

/-- The alternatives of the class of a number. -/
def isNumericTarget (value : Scalar) (ty : Ty) : Bool :=
  match value, ty with
  | .integer _ _, .integer _ => true
  | .float _, .float _ => true
  | _, _ => false

/-- `widened_alternative`: the only alternative of the class of a number that is of none of them. -/
def widenedAlternative (value : Scalar) (types : List Ty) : Option Ty :=
  if types.any (sameNumericKind value) then none
  else
    match types.filter (isNumericTarget value) with
    | [target] => some target
    | _ => none

/-- `value_matches_type` -/
def matchesType (value : Scalar) (ty : Ty) : Bool :=
  match value, ty with
  | .integer _ _, .integer _ => true
  | .float _, .float _ => true
  | .boolean _, .boolean => true
  | .string _, .string => true
  | _, _ => false

/-- A number at a numeric type, any other scalar at its own type. -/
def coerceDirect (value : Scalar) (ty : Ty) : ScalarResult :=
  match value, ty with
  | .integer value _, .integer _ => ofResult (checkedInteger (some value) ty)
  | .float value, .float kind => finiteFloat value.value kind
  | .boolean value, .boolean => .ok (some (.boolean value))
  | .string value, .string => .ok (some (.string value))
  | _, _ => .error (.typeMismatch "IR destination type" "runtime value" "IR coercion")

/-- `coerce_to`; an alternative with `VOID` takes what is of no alternative as `NULL`. -/
def coerceTo (value : Scalar) (ty : Ty) : ScalarResult :=
  match ty with
  | .unknown => .ok (some value)
  | .alternative types =>
    match widenedAlternative value types with
    | some target => coerceDirect value target
    | none =>
      if types.any (matchesType value) then .ok (some value)
      else if .named "VOID" ∈ types then .ok none
      else coerceDirect value ty
  | _ => coerceDirect value ty

/-! ### Instructions -/

/-- A result of operands of which one is no scalar may be any value. -/
def Computes (compute : List Scalar → ScalarResult) (operands : List Held) (held : Held) : Prop :=
  ∀ scalars, operands = scalars.map some → compute scalars = .ok held

section

variable (power : Number → Number → Number) (render : Scalar → String)

def computeCoerce (ty : Ty) : List Scalar → ScalarResult
  | [value] => coerceTo value ty
  | _ => .ok none

def computeUnary (operator : String) (ty : Ty) : List Scalar → ScalarResult
  | [operand] => unaryScalar (operatorNamed operator) operand ty
  | _ => .ok none

def computeBinary (operator : String) (ty : Ty) : List Scalar → ScalarResult
  | [left, right] => binaryScalar power (operatorNamed operator) left right ty
  | _ => .ok none

def computeCast (ty : Ty) : List Scalar → ScalarResult
  | [value] => cast render value ty
  | _ => .ok none

/-- The instruction takes one frame to the other; where it fails it takes the frame to none. A constant is
set once, and only the listed instructions change the scalars that bindings hold. -/
def Executes (instruction : Instruction) (frame next : Frame) : Prop :=
  match instruction with
  | .constant destination value ty _ =>
    if (frame.values destination).isSome then next = frame
    else ∃ held, constantValue value ty = .ok held ∧ next = frame.set destination held
  | .load destination symbol _ _ =>
    symbol ∉ frame.released ∧ ∃ held, frame.symbols symbol = some held ∧ next = frame.set destination held
  | .take destination symbol _ _ =>
    next = (frame.set destination ((frame.symbols symbol).getD none)).remove symbol
  | .endBinding symbol _ => symbol ∉ frame.released ∧ next = frame.release symbol
  | .store symbol value previous ty _ =>
    ∃ held stored, frame.values value = some held ∧ Computes (computeCoerce ty) [held] stored ∧ next = match previous with
        | some previous => (frame.assign symbol stored).set previous ((frame.symbols symbol).getD none)
        | none => frame.assign symbol stored
  | .copy destination source ty _ =>
    ∃ held copied, frame.values source = some held ∧ Computes (computeCoerce ty) [held] copied ∧
      next = frame.set destination copied
  | .unary destination operator operand ty _ =>
    ∃ held result, frame.values operand = some held ∧ Computes (computeUnary operator ty) [held] result ∧
      next = frame.set destination result
  | .binary destination operator left right ty _ =>
    ∃ leftHeld rightHeld result, frame.values left = some leftHeld ∧ frame.values right = some rightHeld ∧
      Computes (computeBinary power operator ty) [leftHeld, rightHeld] result ∧ next = frame.set destination result
  | .cast destination value ty _ =>
    ∃ held result, frame.values value = some held ∧ Computes (computeCast render ty) [held] result ∧
      next = frame.set destination result
  | other =>
    next.symbols = frame.symbols ∧ next.released = frame.released ∧
      ∀ value, instructionDefines other ≠ some value → next.values value = frame.values value

theorem Executes.values_eq {instruction : Instruction} {frame next : Frame} {value : ValueId}
    (executes : Executes power render instruction frame next) (other : instructionDefines instruction ≠ some value) :
    next.values value = frame.values value := by
  have keeps {destination : ValueId} (frame : Frame) (held : Held) (defines : some destination ≠ some value) :
      (frame.set destination held).values value = frame.values value :=
    Frame.set_values_of_ne frame held fun same => defines (congrArg some same.symm)
  cases instruction with
  | constant destination constant ty span =>
    rw [Executes] at executes
    split at executes
    next => rw [executes]
    next =>
      obtain ⟨held, -, rfl⟩ := executes
      exact keeps frame held other
  | load destination symbol ty span =>
    obtain ⟨-, held, -, rfl⟩ := executes
    exact keeps frame held other
  | take destination symbol ty span =>
    obtain rfl := executes
    exact keeps frame _ other
  | endBinding symbol span =>
    obtain ⟨-, rfl⟩ := executes
    rfl
  | store symbol source previous ty span =>
    obtain ⟨held, stored, -, -, rfl⟩ := executes
    cases previous with
    | none => rfl
    | some previous => exact keeps (frame.assign symbol stored) _ other
  | copy destination source ty span =>
    obtain ⟨held, copied, -, -, rfl⟩ := executes
    exact keeps frame copied other
  | unary destination operator operand ty span =>
    obtain ⟨held, result, -, -, rfl⟩ := executes
    exact keeps frame result other
  | binary destination operator left right ty span =>
    obtain ⟨leftHeld, rightHeld, result, -, -, -, rfl⟩ := executes
    exact keeps frame result other
  | cast destination source ty span =>
    obtain ⟨held, result, -, -, rfl⟩ := executes
    exact keeps frame result other
  | _ => exact executes.2.2 value other

end

end BasicNext.Interp
