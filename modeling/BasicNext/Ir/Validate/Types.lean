import BasicNext.Ir.Validate.Fields
import BasicNext.Ir.Validate.Ownership

/-!
# The type contract of single instructions

`validateInstructionTypes` is one match in the source whose guarded arms fall through: an indexed
static store, for one, meets the store rule, then the name rule, then the index rule. Here each
instruction lists the arms it meets, in that order.
-/

namespace BasicNext.Ir

def isIntegerType : Ty → Bool
  | .integer _ | .integerLiteral _ => true
  | _ => false

def isFloatType : Ty → Bool
  | .float _ | .floatLiteral => true
  | _ => false

def isTypeTestType : Ty → Bool
  | .typeName _ | .importedTypeName _ _ => true
  | _ => false

def isFunctionType : Ty → Bool
  | .function _ _ => true
  | _ => false

def isNumericPair (left right : Ty) : Bool := isNumericType left && isNumericType right

def isIntegerPair (left right : Ty) : Bool := isIntegerType left && isIntegerType right

/-- `is_integer(value_types.get(value))` -/
def isInteger (ty : Option Ty) : Bool := ty.any isIntegerType

def isBoolean (ty : Option Ty) : Bool := ty.any (· == .boolean)

def isComparable (left right : Ty) : Bool :=
  typesCompatible left right || typesCompatible right left || isNumericPair left right

def constantMatchesType (value : Constant) (ty : Ty) : Bool :=
  match value, ty with
  | .integer _, .integer _ | .integer _, .integerLiteral _ => true
  | .float _, .float _ | .float _, .floatLiteral => true
  | .string _, .string => true
  | .boolean _, .boolean => true
  | .null, .null | .null, .pointer _ _ => true
  | .null, .named name => name == "VOID"
  | .notAvailable, .notAvailable => true
  | .endOfFile, .endOfFile => true
  | .function _, .function _ _ | .function _, .unknown => true
  | .type _, .typeName _ | .type _, .importedTypeName _ _ | .type _, .named _
  | .type _, .module _ | .type _, .hostClock | .type _, .hostRandom | .type _, .hostFileSystem
  | .type _, .hostNet | .type _, .hostExec | .type _, .hostEnv => true
  | .hostConsole, .hostConsole => true
  | .hostArgs, .hostArgs => true
  | _, _ => false

def validBinaryTypes (operator : String) (left right result : Ty) : Bool :=
  if operator == "Assign" || operator == "NotEqual" then
    isComparable left right && result == .boolean
  else if operator == "Less" || operator == "LessEqual" || operator == "Greater"
      || operator == "GreaterEqual" then
    result == .boolean
      && (isNumericPair left right || (left == .string && right == .string))
  else if operator == "AND" || operator == "OR" || operator == "XOR" then
    (left == .boolean && right == .boolean && result == .boolean)
      || (isIntegerPair left right && isIntegerType result)
  else if operator == "DIV" || operator == "Percent" || operator == "SHL" || operator == "SHR" then
    isIntegerPair left right && isIntegerType result
  else if operator == "Plus" && (left == .string || right == .string) then
    left == .string && right == .string && result == .string
  else if operator == "Plus" || operator == "Minus" || operator == "Star" || operator == "Power" then
    isNumericPair left right && isNumericType result
  else if operator == "Slash" then isNumericPair left right && isFloatType result
  else if operator == "IS" then isTypeTestType right && result == .boolean
  else false

def validUnaryTypes (operator : String) (operand result : Ty) : Bool :=
  if operator == "Minus" then isNumericType operand && isNumericType result
  else if operator == "NOT" then
    (operand == .boolean && result == .boolean)
      || (isIntegerType operand && isIntegerType result)
  else false

def validCastTypes (source target : Ty) : Bool :=
  source == target
    || (isNumericType source && (isNumericType target || target == .boolean))
    || (source == .string && target == .boolean)
    || ((isNumericType source || source == .boolean) && target == .string)
    || ((source == .null || source == .notAvailable || source == .endOfFile)
      && target == .boolean)

mutual

def containsNamedType (name : String) (ty : Ty) : Bool :=
  match ty with
  | .named actual | .typeName actual => actual == name
  | .importedNamed _ actual | .importedTypeName _ actual => actual == name
  | .alternative options => anyContainsNamedType name options
  | _ => false
termination_by structural ty

def anyContainsNamedType (name : String) (options : List Ty) : Bool :=
  match options with
  | [] => false
  | option :: options => containsNamedType name option || anyContainsNamedType name options
termination_by structural options

end

def isDispatchWaitHandle (ty : Ty) : Bool :=
  ["Ticket", "Group", "Barrier", "Semaphore", "Mutex"].any fun name => containsNamedType name ty

/-! ### Rules several instructions share -/

section
variable (module : Module) (valueTypes : ValueTypes) (span : Span)

/-- Whether the operand has a type and the type passes `test` (`is_none_or` of its negation). -/
def typedAs (test : Ty → Bool) (value : ValueId) : Bool := (valueTypes value).any test

def checkStoredValue (value : ValueId) (ty : Ty) : Check Unit :=
  rejectIf (!typedAs valueTypes (fun valueType => storeCompatible module valueType ty) value)
    "stored value does not match its declared type" span

def checkMemberNames (name owner : String) : Check Unit :=
  rejectIf (name.isEmpty || owner.isEmpty) "member name and owner class cannot be empty" span

def checkStaticNames (className field : String) : Check Unit :=
  rejectIf (className.isEmpty || field.isEmpty)
    "static member class and field names cannot be empty" span

def checkIndices (indices : List ValueId) (message : String) : Check Unit :=
  rejectIf (indices.isEmpty || indices.any fun index => !isInteger (valueTypes index)) message span

/-- The object of a member access has a type, and the type matches the owner layout. -/
def checkReceiver (fuel : Nat) (object : ValueId) (owner message : String) : Check Unit :=
  match valueTypes object with
  | none => invalidIr message span
  | some receiver => do
    let found ← receiverMatchesOwner fuel module owner receiver
    rejectIf (!found) message span

/-- A resolved member read, by `Member` or `TakeMember`. -/
def checkMemberRead (fuel : Nat) (object : ValueId) (field : FieldRef) (name owner : String) (ty : Ty) : Check Unit := do
  let fieldTy ← validateFieldReference module owner name field span
  checkReceiver module valueTypes span fuel object owner
    "member receiver does not match its owner layout"
  rejectIf (!typesCompatible fieldTy ty) "member result type does not match its field layout" span

/-- The one-vector form of a reduction called with a scalar signature of two parameters. -/
def isVectorOverload (parameters : List Ty) (arguments : List ValueId) : Bool :=
  parameters.length == 2
    && (match arguments with
      | [argument] =>
        typedAs valueTypes (fun argumentType =>
          match argumentType with
          | .vector element dimensions => dimensions.length == 1 && isNumericType element
          | .pointer element _ => isNumericType element
          | _ => false) argument
      | _ => false)

def callMismatch (parameters : List Ty) (returnType : Ty) (arguments : List ValueId) (ty : Ty) :
    Bool :=
  let vectorOverload := isVectorOverload valueTypes parameters arguments
  (!vectorOverload && parameters.length != arguments.length)
    || (arguments.zip parameters).any (fun (argument, parameter) =>
      !typedAs valueTypes (fun argumentType =>
        vectorOverload || callTypesCompatibleWithModule module argumentType parameter) argument)
    || !callTypesCompatibleWithModule module returnType ty

end

/-! ### One instruction -/

def validateInstructionTypes (fuel : Nat) (module : Module) (instruction : Instruction)
    (valueTypes : ValueTypes) : Check Unit :=
  let span := instruction.span
  match instruction with
  | .constant _ value ty _ =>
    rejectIf (!constantMatchesType value ty) "constant value does not match its declared type" span
  | .length destination .. | .sizeOf destination .. =>
    rejectIf (!isInteger (valueTypes destination))
      "length and sizeof results must have an integer type" span
  | .copy _ source ty _ =>
    rejectIf (!typedAs valueTypes (fun sourceType => typesCompatible sourceType ty) source)
      "copied value does not match its type" span
  | .store _ value _ ty _ => checkStoredValue module valueTypes span value ty
  | .default _ _ _ dynamicDimensions _ =>
    rejectIf (dynamicDimensions.any fun value => !isInteger (valueTypes value))
      "dynamic vector dimensions must have integer type" span
  | .vector _ values ty _ =>
    match ty with
    | .vector element dimensions => do
      rejectIf (dimensions.head?.any fun dimension =>
          dimension != dynamicDimension && dimension != values.length)
        "vector value count does not match its first dimension" span
      rejectIf (values.any fun value =>
          !typedAs valueTypes (fun valueType =>
            elementCompatible module valueType (vectorElementOf element dimensions)) value)
        "vector element does not match the vector element type" span
    | _ => invalidIr "vector instruction must produce a vector type" span
  | .unary _ operator operand ty _ =>
    match valueTypes operand with
    | none => invalidIr "unary operand has no type" span
    | some operandType =>
      rejectIf (!validUnaryTypes operator operandType ty)
        ("unary operator " ++ operator ++ " has incompatible operand/result types") span
  | .binary _ operator left right ty _ =>
    match valueTypes left, valueTypes right with
    | some leftType, some rightType =>
      rejectIf (!validBinaryTypes operator leftType rightType ty)
        ("binary operator " ++ operator ++ " has incompatible operand/result types") span
    | _, _ => invalidIr "binary operand has no type" span
  | .cast _ value ty _ =>
    match valueTypes value with
    | none => invalidIr "cast source has no type" span
    | some sourceType =>
      rejectIf (!validCastTypes sourceType ty)
        "cast source and target types are not convertible" span
  | .call _ callee arguments ty _ =>
    match valueTypes callee with
    | none => invalidIr "call callee has no type" span
    | some (.function parameters returnType) =>
      rejectIf (callMismatch module valueTypes parameters returnType arguments ty)
        "call arguments or result do not match the callee signature" span
    | some calleeType =>
      rejectIf (calleeType != .unknown) "call callee must have a function type" span
  | .dispatchSubmit _ _ queue task _ _ _ => do
    rejectIf ((valueTypes queue).any fun queueType => !containsNamedType "Queue" queueType)
      "dispatch submission requires a BNDispatch.Queue" span
    rejectIf ((valueTypes task).any fun taskType => !(isFunctionType taskType || taskType == .unknown))
      "dispatch submission task must be a function" span
  | .dispatchAwait _ _ ticket timeout _ _ => do
    rejectIf ((valueTypes ticket).any fun ticketType => !isDispatchWaitHandle ticketType)
      "dispatch wait requires a BNDispatch synchronization handle" span
    rejectIf (!isInteger (valueTypes timeout))
      "dispatch await timeout must have an integer type" span
  | .clearScreen console _ | .beep console _ =>
    rejectIf (!typedAs valueTypes (· == .hostConsole) console)
      "console control instruction requires HOST.Console" span
  | .member _ object field name owner ty _ => do
    checkMemberNames span name owner
    match field with
    | none =>
      rejectIf (!isFunctionType ty) "record member access must carry a resolved field" span
    | some field =>
      if isFunctionType ty then .ok ()
      else checkMemberRead module valueTypes span fuel object field name owner ty
  | .takeMember _ object field name owner ty _ => do
    checkMemberNames span name owner
    match field with
    | none => invalidIr "record member store must carry a resolved field" span
    | some field =>
      if isFunctionType ty then .ok ()
      else checkMemberRead module valueTypes span fuel object field name owner ty
  | .setMember object field name owner value _ ty _ => do
    checkStoredValue module valueTypes span value ty
    checkMemberNames span name owner
    match field with
    | none => invalidIr "record member store must carry a resolved field" span
    | some field => do
      let fieldTy ← validateFieldReference module owner name field span
      checkReceiver module valueTypes span fuel object owner
        "member receiver does not match its owner layout"
      rejectIf (!typesCompatible ty fieldTy) "member store type does not match its field layout" span
  | .setMemberIndex object field name owner indices value _ ty _ => do
    checkStoredValue module valueTypes span value ty
    checkMemberNames span name owner
    match field with
    | none => invalidIr "record member store must carry a resolved field" span
    | some field => do
      let fieldTy ← validateFieldReference module owner name field span
      checkReceiver module valueTypes span fuel object owner
        "indexed member store receiver does not match its owner layout"
      rejectIf (!indexResultMatches fieldTy ty)
        "indexed member store type does not match its field layout" span
      checkIndices valueTypes span indices "indexed store requires at least one integer index"
  | .loadStatic _ className field _ _ => checkStaticNames span className field
  | .storeStatic className field value _ ty _ => do
    checkStoredValue module valueTypes span value ty
    checkStaticNames span className field
  | .setStaticIndex className field indices value _ ty _ => do
    checkStoredValue module valueTypes span value ty
    checkStaticNames span className field
    checkIndices valueTypes span indices "indexed store requires at least one integer index"
  | .ensureClass className _ =>
    rejectIf className.isEmpty "class name cannot be empty" span
  | .allocate _ typeName _ _ _ =>
    rejectIf typeName.isEmpty "allocated type name cannot be empty" span
  | .release _ destructor _ =>
    rejectIf (destructor.any String.isEmpty) "destructor name cannot be empty" span
  | .setField _ rootOwner path fields value _ ty _ => do
    checkStoredValue module valueTypes span value ty
    let fieldTy ← validateResolvedFieldPath module rootOwner path fields span
    rejectIf (!typesCompatible ty fieldTy) "field store type does not match its field layout" span
  | .setFieldIndex _ rootOwner path fields indices value _ ty _ => do
    checkStoredValue module valueTypes span value ty
    let fieldTy ← validateResolvedFieldPath module rootOwner path fields span
    rejectIf (!indexResultMatches fieldTy ty)
      "indexed field store type does not match its field layout" span
    checkIndices valueTypes span indices "indices must be non-empty integers"
  | .index _ object index ty _ => do
    rejectIf (!isInteger (valueTypes index)) "index must have an integer type" span
    rejectIf ((valueTypes object).any fun objectType => !indexResultMatches objectType ty)
      "indexed object and result types are incompatible" span
  | .setIndex _ indices value _ ty _ => do
    checkStoredValue module valueTypes span value ty
    checkIndices valueTypes span indices "indexed store requires at least one integer index"
  | .phi .. | .load .. | .retain .. | .take .. | .endBinding .. | .input .. | .print .. => .ok ()

/-! ### Returns -/

def isVoidAlternative : Ty → Bool
  | .alternative values => values.any isVoidType
  | _ => false

def validateReturnType (module : Module) (function : Function) (value : Option ValueId)
    (valueTypes : ValueTypes) : Check Unit :=
  let voidOnly := isVoidType function.returnType
  let allowsVoid := voidOnly || isVoidAlternative function.returnType
  match voidOnly, allowsVoid, value with
  | true, _, some _ => invalidIr "VOID function cannot return a value" function.span
  | false, false, none => invalidIr "non-VOID function must return a value" function.span
  | false, _, some value =>
    rejectIf (!typedAs valueTypes (fun valueType =>
        typesCompatible valueType function.returnType
          || alternativeWidens valueType function.returnType
          || isUpcast module valueType function.returnType) value)
      "return value does not match the function return type" function.span
  | _, _, _ => .ok ()

end BasicNext.Ir
