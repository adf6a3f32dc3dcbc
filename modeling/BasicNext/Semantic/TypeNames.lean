import Mathlib.Algebra.Group.Int.Defs
import BasicNext.Frontend.Ast

/-!
# Types by name

The types that names, literals and type references denote (`bn_frontend::semantic`), as far as the atoms
of type tests go: these do not begin with `FUNCTION` or `WEAK`.
-/

namespace BasicNext.Semantic

open Frontend

def integerType (name : String) : Option IntegerType :=
  if name = "BYTE" then some .byte
  else if name = "INT8" then some .int8
  else if name = "INT16" then some .int16
  else if name = "INT32" ∨ name = "INTEGER" then some .int32
  else if name = "INT64" ∨ name = "TIMESTAMP" then some .int64
  else if name = "UINT16" then some .uint16
  else if name = "UINT32" then some .uint32
  else if name = "UINT64" then some .uint64
  else none

def floatType (name : String) : Option FloatType :=
  if name = "FLOAT32" then some .float32
  else if name = "FLOAT64" ∨ name = "FLOAT" then some .float64
  else none

def typeFromName (name : String) : Ty :=
  if name = "BOOLEAN" then .boolean
  else
    match integerType name, floatType name with
    | some kind, _ => .integer kind
    | none, some kind => .float kind
    | none, none => if name = "STRING" then .string else .named name

/-! ### Numbers -/

def digitOf (radix : Nat) (digit : Char) : Option Nat :=
  let value :=
    if digit.isDigit then some (digit.toNat - '0'.toNat)
    else if 'a' ≤ digit ∧ digit ≤ 'z' then some (digit.toNat - 'a'.toNat + 10)
    else if 'A' ≤ digit ∧ digit ≤ 'Z' then some (digit.toNat - 'A'.toNat + 10)
    else none
  value.filter fun value => value < radix

def parseDigitsFrom (radix : Nat) : Nat → List Char → Option Nat
  | value, [] => some value
  | value, digit :: rest => do parseDigitsFrom radix (value * radix + (← digitOf radix digit)) rest

/-- `i128::from_str_radix`. -/
def parseRadix (radix : Nat) (text : List Char) : Option Int :=
  let (negative, digits) := match text with
    | '-' :: digits => (true, digits)
    | '+' :: digits => (false, digits)
    | digits => (false, digits)
  if digits = [] then none
  else do
    let magnitude : Int ← parseDigitsFrom radix 0 digits
    let value := if negative then -magnitude else magnitude
    if -2 ^ 127 ≤ value ∧ value < 2 ^ 127 then some value else none

def parseInteger (text : String) : Option Int :=
  match text.toList with
  | '0' :: 'b' :: digits => parseRadix 2 digits
  | '0' :: 'x' :: digits => parseRadix 16 digits
  | digits => parseRadix 10 digits

/-- `u64::try_from` of the number that a text writes. -/
def parseLength (text : String) : Option Nat := do
  let value ← parseInteger text
  if 0 ≤ value ∧ value < 2 ^ 64 then some value.toNat else none

/-! ### Atoms of type tests -/

/-- The parts that continue a dotted name. -/
def dottedRest : List String → String
  | dot :: part :: rest => if dot = "Dot" then "." ++ part ++ dottedRest rest else ""
  | _ => ""

def qualifiedTypeName (atom : TypeAtom) : String := atom.name ++ dottedRest atom.parts

/-- Pairs of a dot and a part after the first token of an element name; `none` for anything else. -/
def elementSuffix : List String → Option String
  | [] => some ""
  | dot :: part :: rest => do
    let suffix ← elementSuffix rest
    if dot = "Dot" then some ("." ++ part ++ suffix) else none
  | _ => none

def pointerElementType (parts : List String) : Ty :=
  match parts.dropWhile (· ≠ "TO") with
  | [] => .unknown
  | _ :: rest =>
    match rest.takeWhile (· ≠ "LeftBracket") with
    | [] => .unknown
    | first :: suffix =>
      match elementSuffix suffix with
      | some suffix => typeFromName (first ++ suffix)
      | none => .unknown

def pointerLength (parts : List String) : PointerLength :=
  match parts.dropWhile (· ≠ "LeftBracket") with
  | [] => .one
  | _ :: rest =>
    match rest.head?.filter (· ≠ "RightBracket") with
    | some text => (parseLength text).elim .dynamic .fixed
    | none => .dynamic

inductive BracketDimensions where
  | absent
  | known (dimensions : List Nat)
  /-- A dimension is an expression. -/
  | expression

def bracketDimensionsFrom : List String → Int → List Nat → Bool → BracketDimensions
  | [], _, dimensions, found => if found then .known dimensions else .absent
  | part :: rest, depth, dimensions, found =>
    if part = "LeftParen" then bracketDimensionsFrom rest (depth + 1) dimensions found
    else if part = "RightParen" then bracketDimensionsFrom rest (depth - 1) dimensions found
    else if part = "LeftBracket" ∧ depth = 0 then
      match rest with
      | [] => .expression
      | [_] => if rest.head? = some "RightBracket" then .known (dimensions ++ [2 ^ 64 - 1]) else .expression
      | size :: close :: after =>
        if size = "RightBracket" then
          bracketDimensionsFrom (close :: after) depth (dimensions ++ [2 ^ 64 - 1]) true
        else
          match (parseLength size).filter fun _ => close = "RightBracket" with
          | some value => bracketDimensionsFrom after depth (dimensions ++ [value]) true
          | none => .expression
    else bracketDimensionsFrom rest depth dimensions found

/-- The literal dimensions among the groups of three tokens. -/
def literalDimensions : List String → List Nat
  | first :: second :: third :: rest =>
    let others := literalDimensions (second :: third :: rest)
    if first = "LeftBracket" ∧ third = "RightBracket" then (parseLength second).toList ++ others else others
  | _ => []

/-- `type_from_atom`. -/
def typeFromAtom (atom : TypeAtom) : Ty :=
  if atom.name = "POINTER" then .pointer (pointerElementType atom.parts) (pointerLength atom.parts)
  else
    let name := qualifiedTypeName atom
    let base := if name = "NULL" then .null
      else if name = "NA" then .notAvailable
      else if name = "EOF" then .endOfFile
      else typeFromName name
    match bracketDimensionsFrom atom.parts 0 [] false with
    | .absent => base
    | .known dimensions => .vector base dimensions
    | .expression =>
      let dimensions := literalDimensions atom.parts
      .vector base (if dimensions = [] then [2 ^ 64 - 1] else dimensions)

/-- The type that the right side of a test names. -/
def isTestType : Expression → Option Ty
  | .typeTest atom => some (typeFromAtom atom)
  | .literal .null => some .null
  | .literal .notAvailable => some .notAvailable
  | .literal .endOfFile => some .endOfFile
  | .literal (.special _) => some .floatLiteral
  | .unary operator operand => if operator = "Minus" then isTestType operand else none
  | .literal (.typeName name) | .name name => some (typeFromName name)
  | _ => none

end BasicNext.Semantic
