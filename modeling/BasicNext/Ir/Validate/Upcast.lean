import BasicNext.Ir.Check

/-!
# Type compatibility of stores, elements, calls and returns

The compatibility rules of the validator. Every recursive call is on a part of the expected type, so
the rules recurse on it.
-/

namespace BasicNext.Ir

def isNumericType : Ty → Bool
  | .integer _ | .integerLiteral _ | .float _ | .floatLiteral => true
  | _ => false

def isVoidType : Ty → Bool
  | .named name => name == "VOID"
  | _ => false

/-- `name.rsplit('.').next()`: what follows the last dot. -/
def lastSegment (name : String) : String := String.ofList (name.toList.reverse.takeWhile (· != '.')).reverse

/-- Equal dimension by dimension, a dynamic one matching any. -/
def dimensionsCompatible (actual expected : List Nat) : Bool :=
  actual.length == expected.length &&
    (actual.zip expected).all fun (actual, expected) =>
      actual == expected || actual == dynamicDimension || expected == dynamicDimension

mutual

def typesCompatible (actual : Ty) (expected : Ty) : Bool :=
  actual == expected
    || (match actual, expected with
      | .importedNamed _ actual, .named expected => lastSegment expected == actual
      | .named expected, .importedNamed _ actual => lastSegment expected == actual
      | _, _ => false)
    || (match actual, expected with
      | .importedNamed _ actual, .importedNamed _ expected => actual == expected
      | _, _ => false)
    || (match actual, expected with
      -- `alternative_sets_compatible`
      | .alternative actual, .alternative expected =>
        actual.length == expected.length
          && actual.all (fun option => anyOption option expected)
          && allOptionsMet actual expected
      | _, _ => false)
    || (match actual, expected with
      | .integerLiteral _, .integer _ => true
      | _, _ => false)
    || (match actual, expected with
      | .floatLiteral, .float _ => true
      | _, _ => false)
    || (match actual, expected with
      | .pointer _ _, .named name => name == "POINTER"
      | _, _ => false)
    || (match actual, expected with
      | .pointer actual actualLength, .pointer expected expectedLength =>
        isVoidType actual || isVoidType expected
          || (typesCompatible actual expected
            && (actualLength == expectedLength || expectedLength == .dynamic))
      | _, _ => false)
    || (match expected with
      | .alternative options => anyOption actual options
      | _ => false)
    || (match actual, expected with
      | .vector actual actualDimensions, .vector expected expectedDimensions =>
        typesCompatible actual expected && dimensionsCompatible actualDimensions expectedDimensions
      | _, _ => false)
    || (match actual, expected with
      | .pointer actual _, .vector expected dimensions =>
        dimensions.length == 1 && isNumericType actual && isNumericType expected
      | _, _ => false)
termination_by structural expected

/-- `options.iter().any(|option| types_compatible(actual, option))` -/
def anyOption (actual : Ty) (options : List Ty) : Bool :=
  match options with
  | [] => false
  | option :: options => typesCompatible actual option || anyOption actual options
termination_by structural options

def allOptionsMet (actual : List Ty) (options : List Ty) : Bool :=
  match options with
  | [] => true
  | option :: options =>
    actual.any (fun actual => typesCompatible actual option) && allOptionsMet actual options
termination_by structural options

end

def alternativeWidens (actual expected : Ty) : Bool :=
  match actual, expected with
  | .alternative members, .alternative accepted =>
    members.all fun member => accepted.any fun option => typesCompatible member option
  | _, _ => false

def nominalName : Ty → Option String
  | .named name => some name
  | .importedNamed module name => some ("#" ++ toString module ++ "." ++ name)
  | _ => none

/-- Whether `actual` is a class whose ancestors or their interfaces include `expected`. -/
def isUpcast (module : Module) (actual expected : Ty) : Bool :=
  match nominalName actual, nominalName expected with
  | some actual, some expected => module.classModel.isUpcast actual expected
  | _, _ => false

/-- A value that reaches the slot only through the class model. -/
def upcastCompatible (module : Module) (actual : Ty) (expected : Ty) : Bool :=
  isUpcast module actual expected
    || (match actual, expected with
      | .vector actual actualDimensions, .vector expected expectedDimensions =>
        (typesCompatible actual expected || upcastCompatible module actual expected)
          && dimensionsCompatible actualDimensions expectedDimensions
      | _, _ => false)
termination_by structural expected

def isNamedValueType : Ty → Bool
  | .named _ | .importedNamed _ _ => true
  | _ => false

/-- The store rule without the class model. -/
def assignmentTypesCompatible (actual expected : Ty) : Bool :=
  actual == .unknown || expected == .unknown
    || typesCompatible actual expected
    || alternativeWidens actual expected
    || (isNamedValueType actual && isNamedValueType expected)
    || (match actual, expected with
      | .pointer actual _, .pointer expected _ => typesCompatible actual expected
      | _, _ => false)

def storeCompatible (module : Module) (actual expected : Ty) : Bool :=
  assignmentTypesCompatible actual expected || upcastCompatible module actual expected

def elementCompatible (module : Module) (actual expected : Ty) : Bool :=
  typesCompatible actual expected || upcastCompatible module actual expected

def callTypesCompatibleInner (module : Option Module) (actual : Ty) (expected : Ty) : Bool :=
  typesCompatible actual expected
    || alternativeWidens actual expected
    || (isNumericType actual && isNumericType expected)
    || (match module with
      | some module => isUpcast module actual expected
      | none => false)
    || (match actual with
      | .vector element dimensions =>
        dimensions.length == 1 && isNumericType element && isNumericType expected
      | _ => false)
    || (match actual, expected with
      | .vector actual actualDimensions, .vector expected expectedDimensions =>
        callTypesCompatibleInner module actual expected
          && dimensionsCompatible actualDimensions expectedDimensions
      | _, _ => false)
termination_by structural expected

def callTypesCompatibleWithModule (module : Module) (actual expected : Ty) : Bool :=
  callTypesCompatibleInner (some module) actual expected

/-! ### Index results -/

/-- The element of `POINTER TO T OR NULL`, when `result` is that element. -/
def nullablePointerElement (members : List Ty) (result : Ty) : Bool :=
  if members.length != 2 || !members.contains .null then false
  else
    match members.find? fun member => match member with | .pointer _ _ => true | _ => false with
    | some (.pointer element _) => typesCompatible element result
    | _ => false

/-- The element type of a vector of these dimensions: a row when there are several. -/
def vectorElementOf (element : Ty) (dimensions : List Nat) : Ty :=
  if dimensions.length > 1 then .vector element (dimensions.drop 1) else element

def indexResultMatches (object result : Ty) : Bool :=
  match object with
  | .vector element dimensions => typesCompatible (vectorElementOf element dimensions) result
  | .pointer element _ => typesCompatible element result
  | .alternative members => nullablePointerElement members result
  | .string | .hostArgs => result == .string
  | .unknown => true
  | _ => false

end BasicNext.Ir
