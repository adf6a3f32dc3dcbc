import BasicNext.Semantic.TypeNames
import BasicNext.Types.Pointers

/-!
# Assignability

`compatible`, which asks whether a place of one type takes a value of another, without the class model.
Narrowing filters the members of alternative types with it.
-/

namespace BasicNext.Semantic

open Frontend

/-! ### Literals and lengths -/

def integerRange : IntegerType → Int × Int
  | .byte => (0, 255)
  | .int8 => (-128, 127)
  | .int16 => (-32768, 32767)
  | .int32 => (-2147483648, 2147483647)
  | .int64 => (-9223372036854775808, 9223372036854775807)
  | .uint16 => (0, 65535)
  | .uint32 => (0, 4294967295)
  | .uint64 => (0, 18446744073709551615)

def integerLiteralFits (value : String) (target : IntegerType) : Bool :=
  match parseInteger value with
  | some value => (integerRange target).1 ≤ value && value ≤ (integerRange target).2
  | none => false

inductive NumericClass where
  | integer | float
deriving DecidableEq, Repr

namespace NumericClass

def ofLiteral : Ty → Option NumericClass
  | .integerLiteral _ => some .integer
  | .floatLiteral => some .float
  | _ => none

def defaultType : NumericClass → Ty
  | integer => .integer .int32
  | float => .float .float64

def contains : NumericClass → Ty → Bool
  | integer, .integer _ => true
  | float, .float _ => true
  | _, _ => false

end NumericClass

def numericAlternative (alternatives : List Ty) (numeric : NumericClass) : Option Ty :=
  match alternatives.find? fun ty => ty == numeric.defaultType with
  | some found => some found
  | none =>
    match alternatives.filter numeric.contains with
    | [only] => some only
    | _ => none

def isVoid : Ty → Bool
  | .named name => name == "VOID"
  | _ => false

def openFirstDimension (expected actual : List Nat) : Bool :=
  expected.length == actual.length && expected.head? == some (2 ^ 64 - 1) && expected.tail == actual.tail

def pointerLengthsCompatible : PointerLength → PointerLength → Bool
  | .one, .one => true
  | .dynamic, .fixed _ => true
  | .dynamic, .dynamic => true
  | .fixed _, .dynamic => true
  | .fixed expected, .fixed actual => expected == actual
  | _, _ => false

/-- `name.rsplit('.').next()` -/
def lastPart (name : String) : String := String.ofList (name.toList.reverse.takeWhile (· ≠ '.')).reverse

/-- The spellings `Net.Name` and `HOST.Net.Name` of a host type. -/
def sameHostName (short long : String) : Bool := "Net.".toList.isPrefixOf short.toList && long == "HOST." ++ short

/-! ### The relation -/

mutual

def allMembers (rule : Ty → Bool) : Ty → Bool
  | .alternative members => allMembersOf rule members
  | ty => rule ty

def allMembersOf (rule : Ty → Bool) : List Ty → Bool
  | [] => true
  | member :: members => allMembers rule member && allMembersOf rule members

end

mutual

def compatible (expected : Ty) (actual : Ty) : Bool :=
  match expected with
  | .function parameters returnType =>
    allMembers (fun
      | .function parameters' returnType' =>
        parameters.length == parameters'.length && compatibleLists parameters parameters'
          && compatible returnType returnType'
      | _ => false) actual
  | .named expected =>
    allMembers (fun
      | .importedNamed _ name | .importedTypeName _ name => lastPart expected == name
      | .named actual =>
        expected == actual || sameHostName expected actual || sameHostName actual expected
      | _ => false) actual
  | .importedNamed module name =>
    allMembers (fun
      | .named actual => lastPart actual == name
      | actual => actual == .importedNamed module name) actual
  | .importedTypeName module name =>
    allMembers (fun
      | .named actual => lastPart actual == name
      | actual => actual == .importedTypeName module name) actual
  | .alternative options =>
    match actual with
    | .alternative members => members.all fun member => compatibleAny options member
    | actual =>
      match NumericClass.ofLiteral actual with
      | some numeric =>
        match numericAlternative options numeric with
        | some picked => compatibleAt picked options actual
        | none => false
      | none => compatibleAny options actual
  | .integer expected =>
    allMembers (fun
      | .integerLiteral value => integerLiteralFits value expected
      | actual => actual == .integer expected) actual
  | .float expected =>
    allMembers (fun
      | .floatLiteral => true
      | actual => actual == .float expected) actual
  | .vector element dimensions =>
    allMembers (fun
      | .vector element' dimensions' =>
        (dimensions == dimensions' || openFirstDimension dimensions dimensions')
          && compatible element element'
      | _ => false) actual
  | .pointer element length =>
    allMembers (fun
      | .pointer element' length' =>
        isVoid element || isVoid element'
          || (compatible element element' && pointerLengthsCompatible length length')
      | _ => false) actual
  | expected => allMembers (fun actual => expected == actual) actual
termination_by structural expected

/-- `expected.iter().any(|expected| compatible(expected, actual))` -/
def compatibleAny (options : List Ty) (actual : Ty) : Bool :=
  match options with
  | [] => false
  | option :: options => compatible option actual || compatibleAny options actual
termination_by structural options

/-- Whether the option that was picked takes the literal. -/
def compatibleAt (picked : Ty) (options : List Ty) (actual : Ty) : Bool :=
  match options with
  | [] => false
  | option :: options => if option == picked then compatible option actual else compatibleAt picked options actual
termination_by structural options

/-- The parameters of two function types, one by one. -/
def compatibleLists (expected actual : List Ty) : Bool :=
  match expected with
  | [] => true
  | expected :: rest =>
    match actual with
    | [] => true
    | actual :: others => compatible expected actual && compatibleLists rest others
termination_by structural expected

end

end BasicNext.Semantic
