import BasicNext.Native.Layouts
import BasicNext.Native.Registers

/-!
# Native alternatives

How native code builds the value of an alternative type from that of a member, widens it to another
alternative type and reads a member out of it (`bn_llvm::llvm::general_alternative`,
`bn_llvm::llvm::alternatives`, `coerce_to_type` and `lower_load`). Some conversions have no code: the emitter
fails on one of its own assertions, or it leaves an operand of one type where another is needed, which LLVM
rejects.
-/

namespace BasicNext.Native

open Lib.Llvm (zext sext trunc)
open Semantic (NumericClass numericAlternative)

abbrev Address := BitVec 64

/-- The target machine and the runtime: the addresses of the texts `.bn_na` and `.bn_eof`, the conversions
between floating-point numbers of 32 and of 64 bits, and `bn_rt_error_code`. -/
structure Machine where
  na : Address
  eof : Address
  na_ne_zero : na ≠ 0
  eof_ne_zero : eof ≠ 0
  na_ne_eof : na ≠ eof
  fpext : BitVec 32 → BitVec 64
  fptrunc : BitVec 64 → BitVec 32
  fptrunc_fpext : ∀ bits, fptrunc (fpext bits) = bits
  errorCode : Address → BitVec 64

/-- A value of an LLVM type; the number of an optional one that is missing is never read. -/
inductive Operand where
  | i1 (bit : Bool)
  | i8 (bits : BitVec 8)
  | i16 (bits : BitVec 16)
  | i32 (bits : BitVec 32)
  | i64 (bits : BitVec 64)
  | float (bits : BitVec 32)
  | double (bits : BitVec 64)
  | ptr (address : Address)
  | optionalFloat (number : Option (BitVec 64))
  | handleResult (error : Bool) (pointer : Address) (payload : BitVec 64)
  | statusPointer (error : Bool) (pointer : Address)
  | statusEndpoint (error : Bool) (pointer : Address) (port : BitVec 32)
  | vector (pointer : Address) (length : BitVec 32)
  | region (pointer : Address) (length code : BitVec 32)
  | general (tag : BitVec 32) (pointer : Address) (payload : BitVec 64)
deriving DecidableEq, Repr

/-- Why there is no code: an assertion of the emitter fails, or LLVM finds an operand of another type. -/
inductive Refusal where
  | panic | illTyped
deriving DecidableEq, Repr

abbrev Emit := Except Refusal

/-- `expect` -/
def expect {α : Type} : Option α → Emit α
  | some value => .ok value
  | none => .error .panic

namespace Operand

def type : Operand → LlvmType
  | i1 _ => .i1
  | i8 _ => .i8
  | i16 _ => .i16
  | i32 _ => .i32
  | i64 _ => .i64
  | float _ => .float
  | double _ => .double
  | ptr _ => .ptr
  | optionalFloat _ => .optionalFloat
  | handleResult _ _ _ => .handleResult
  | statusPointer _ _ => .statusPointer
  | statusEndpoint _ _ _ => .statusEndpoint
  | vector _ _ => .vector
  | region _ _ _ => .region
  | general _ _ _ => .general

/-- The integer of an operand with 64 bits; a `BOOLEAN` has no sign. -/
def extended (unsigned : Bool) : Operand → Emit (BitVec 64)
  | i1 bit => .ok (zext 64 (BitVec.ofBool bit))
  | i8 bits => .ok (if unsigned then zext 64 bits else sext 64 bits)
  | i16 bits => .ok (if unsigned then zext 64 bits else sext 64 bits)
  | i32 bits => .ok (if unsigned then zext 64 bits else sext 64 bits)
  | i64 bits => .ok bits
  | _ => .error .illTyped

/-- An integer of 64 bits with the width of a type. -/
def truncated (bits : BitVec 64) : LlvmType → Emit Operand
  | .i8 => .ok (i8 (trunc 8 bits))
  | .i16 => .ok (i16 (trunc 16 bits))
  | .i32 => .ok (i32 (trunc 32 bits))
  | .i64 => .ok (i64 bits)
  | _ => .error .illTyped

/-- An operand of a type: itself, or a literal of 64 bits that takes its width. -/
def withType (operand : Operand) (target : LlvmType) : Emit Operand :=
  if operand.type = target then .ok operand
  else
    match operand with
    | i64 bits => truncated bits target
    | _ => .error .illTyped

end Operand

/-! ### Sentinels -/

/-- `NULL`, `NA` and `EOF`. -/
def isUnit (ty : Ty) : Bool := ty == .null || ty == .notAvailable || ty == .endOfFile

/-- What the pointer of a `{ i1, ptr, i64 }` says besides a value and an `Error`. -/
inductive Sentinel where
  | notAvailable | endOfFile
deriving DecidableEq, Repr

namespace Sentinel

def of (members : List Ty) : Option Sentinel :=
  if stringNaOrError members || scalarNaOrError members || errorOrNa members then some notAvailable
  else if stringEofOrError members || integerEofOrError members then some endOfFile
  else none

def member : Sentinel → Ty
  | notAvailable => .notAvailable
  | endOfFile => .endOfFile

def pointer (machine : Machine) : Sentinel → Address
  | notAvailable => machine.na
  | endOfFile => machine.eof

end Sentinel

/-- The names of the handles that native code keeps as integers. -/
def integerHandleNames : List String :=
  ["File", "TCPStream", "TCPListener", "UDPSocket", "UDPPacket", "Connection", "DataFrame", "Bytes", "Queue", "Ticket",
    "Group", "Barrier", "Semaphore", "Mutex", "SessionStore", "CookieJar", "Scraper", "ACL", "Client", "Server",
    "EgressPolicy", "TLSConfig", "Response", "Request", "Json", "Logger", "Result"]

mutual

def isIntegerHandleType : Ty → Bool
  | .named name | .typeName name => decide (Semantic.lastPart name ∈ integerHandleNames)
  | .importedNamed _ name | .importedTypeName _ name => decide (name ∈ integerHandleNames)
  | .alternative members => anyIntegerHandle members
  | _ => false

def anyIntegerHandle : List Ty → Bool
  | [] => false
  | member :: members => isIntegerHandleType member || anyIntegerHandle members

end

section

variable (machine : Machine)

/-! ### The general layout -/

def tag (member : Ty) : Emit (BitVec 32) := (expect (memberCode member)).map (BitVec.ofNat 32)

def storedMember (source : Ty) (members : List Ty) : Emit Ty :=
  match NumericClass.ofLiteral source with
  | some literal => expect (numericAlternative members literal)
  | none => .ok source

/-- The words of a member that is no pointer, no vector and no `Error`. -/
def wrapScalar (member : Ty) (operand : Operand) : Emit (Address × BitVec 64) :=
  match member with
  | .float kind =>
    match kind, operand with
    | .float32, .double bits => .ok (0, machine.fpext (machine.fptrunc bits))
    | _, .float bits => .ok (0, machine.fpext bits)
    | _, .double bits => .ok (0, bits)
    | _, _ => .error .illTyped
  | .integer _ | .boolean | .named _ => do
    let memberType ← expect (llvmType member)
    let value ← operand.withType memberType
    let bits ← value.extended (isUnsigned member)
    pure (0, bits)
  | _ => .ok (0, 0)

def extractScalar (payload : BitVec 64) (member : Ty) : Emit Operand :=
  match member with
  | .float .float32 => .ok (.float (machine.fptrunc payload))
  | .float .float64 => .ok (.double payload)
  | .boolean => .ok (.i1 (payload != 0))
  | .integer _ | .named _ => expect (llvmType member) >>= Operand.truncated payload
  | .notAvailable => .ok (.optionalFloat none)
  | .endOfFile => .ok (.ptr machine.eof)
  | _ => .ok (.ptr 0)

/-- The two words beside the tag. -/
def wrapFields (member : Ty) (operand : Operand) : Emit (Address × BitVec 64) :=
  if member = .string ∨ pointerMember member then
    match operand with
    | .ptr address => .ok (address, 0)
    | _ => .error .illTyped
  else if vectorMember member then
    match operand with
    | .vector pointer length => .ok (pointer, zext 64 length)
    | _ => .error .illTyped
  else if isErrorType member then
    match operand with
    | .handleResult _ record code => .ok (record, code)
    | _ => .error .illTyped
  else wrapScalar machine member operand

/-- From an alternative type that is a pointer or a result of the runtime to one with the general layout. -/
def widenDedicated (operand : Operand) (source : Option LlvmType) (members : List Ty) : Emit Operand :=
  if source = some .ptr then do
    let object ← expect (members.find? pointerMember)
    match operand with
    | .ptr address => do
      let code ← tag (if address = 0 then .null else object)
      pure (.general code address 0)
    | _ => .error .illTyped
  else if source = some .handleResult then
    let unit := members.find? isUnit
    match operand with
    | .handleResult error pointer payload => do
      let value ← expect ((members.find? fun member => !isErrorType member && !isUnit member).or unit)
      let errorMember ← expect (members.find? isErrorType)
      let valueTag ← tag value
      let valueTag ←
        match Sentinel.of members with
        | some sentinel => do
          let unitTag ← expect unit >>= tag
          pure (if pointer = sentinel.pointer machine then unitTag else valueTag)
        | none => pure valueTag
      let errorTag ← tag errorMember
      pure (.general (if error then errorTag else valueTag) pointer payload)
    | _ => .error .illTyped
  else .error .panic

def narrowLayout (operand : Operand) (members : List Ty) : Emit Operand :=
  match operand with
  | .general code pointer payload => do
    let errorTag ← expect (members.find? isErrorType) >>= tag
    let pointer ←
      match Sentinel.of members with
      | some sentinel => do
        let unit ← expect (members.find? fun member => member == .notAvailable || member == .endOfFile)
        let unitTag ← tag unit
        pure (if code = unitTag then sentinel.pointer machine else pointer)
      | none => pure pointer
    pure (.handleResult (code == errorTag) pointer payload)
  | _ => .error .illTyped

def wrap (operand : Operand) (source : Ty) (members : List Ty) : Emit Operand :=
  if (generalAlternative source).isSome then .ok operand
  else
    match source with
    | .alternative options => widenDedicated machine operand (llvmType source) options
    | _ => do
      let member ← storedMember source members
      let (pointer, payload) ← wrapFields machine member operand
      -- A text that `INPUT` read may be the sentinel of the end of the file.
      let code ← tag (if member = .string ∧ .endOfFile ∈ members ∧ pointer = machine.eof then .endOfFile else member)
      pure (.general code pointer payload)

/-- The member that an operand of the general layout holds, which is known. -/
def extract (operand : Operand) (member : Ty) : Emit Operand :=
  match operand with
  | .general _ pointer payload =>
    if member = .string ∨ pointerMember member then .ok (.ptr pointer)
    else if vectorMember member then .ok (.vector pointer (trunc 32 payload))
    else if isErrorType member then .ok (.handleResult true pointer payload)
    else extractScalar machine payload member
  | _ => .error .illTyped

/-! ### Construction -/

/-- A value as the success of a result of the runtime: a pointer beside a payload. -/
def wrapSuccess (operand : Operand) (source : Ty) : Emit Operand :=
  match operand with
  | .ptr address =>
    if isIntegerHandleType source then .ok (.handleResult false 0 address) else .ok (.handleResult false address 0)
  | .float bits => .ok (.handleResult false 0 (machine.fpext bits))
  | .double bits => .ok (.handleResult false 0 bits)
  | operand => (operand.extended (isUnsigned source)).map (.handleResult false 0)

def isIntegerType (ty : LlvmType) : Bool := ty == .i8 || ty == .i16 || ty == .i32 || ty == .i64

def isScalarType (ty : LlvmType) : Bool := ty == .i1 || isIntegerType ty || ty == .float || ty == .double

def construct (operand : Operand) (source target : Ty) : Emit (Option Operand) :=
  match target with
  | .alternative members =>
    match AlternativeLayout.of members with
    | some .general => (wrap machine operand source members).map some
    | some .status =>
      if (generalAlternative source).isSome then (narrowLayout machine operand members).map some
      else
        match Sentinel.of members with
        | some sentinel =>
          if source = sentinel.member then .ok (some (.handleResult false (sentinel.pointer machine) 0))
          else constructSuccess
        | none => constructSuccess
    | some .statusPointer =>
      if isErrorType source then
        match operand with
        | .handleResult _ record _ => .ok (some (.statusPointer true record))
        | _ => .error .illTyped
      else .ok none
    | some .statusEndpoint =>
      if isErrorType source then
        match operand with
        | .handleResult _ record _ => .ok (some (.statusEndpoint true record 0))
        | _ => .error .illTyped
      else .ok none
    | some .region => if source = .null then .ok (some (.vector 0 0)) else .ok none
    | some .sentinel | none => .ok none
  | _ => .ok none
where
  constructSuccess : Emit (Option Operand) :=
    match llvmType source with
    | some ty =>
      if isScalarType ty || source == .string || (match source with | .alternative options => stringOrEof options | _ => false)
          || ty == .ptr then
        (wrapSuccess machine operand source).map some
      else .ok none
    | none => .ok none

/-- A result of the runtime as the value in it. -/
def unwrapResult (source target : Ty) (targetType : LlvmType) (operand : Operand) : Emit Operand :=
  match operand with
  | .handleResult _ pointer payload =>
    match targetType with
    | .ptr =>
      .ok (.ptr (if isIntegerHandleType source || isIntegerHandleType target then payload else pointer))
    | .float => .ok (.float (machine.fptrunc payload))
    | .double => .ok (.double payload)
    | targetType => Operand.truncated payload targetType
  | _ => .error .illTyped

/-- The conversions outside of alternative types; an operand that nothing converts stays as it is. -/
def coercePlain (source target : Ty) (sourceType targetType : LlvmType) (operand : Operand) : Emit Operand :=
  match operand, targetType with
  | .statusEndpoint _ pointer port, .vector => .ok (.vector pointer port)
  | .vector pointer length, .region =>
    match source with
    | .pointer element _ => .ok (.region pointer length (BitVec.ofNat 32 ((memberCode element).getD 0)))
    | _ => .ok (.region pointer length 0)
  | .float bits, .double => .ok (.double (machine.fpext bits))
  | .double bits, .float => .ok (.float (machine.fptrunc bits))
  | operand, targetType =>
    -- Integers are extended and truncated.
    if isIntegerType sourceType ∧ isIntegerType targetType then do
      let bits ← operand.extended (isUnsigned target || isUnsigned source)
      Operand.truncated bits targetType
    else .ok operand

/-- `coerce_to_type` -/
def coerceOperand (source target : Ty) (operand : Operand) : Emit Operand := do
  let sourceType ← expect (llvmType source)
  let targetType ← expect (llvmType target)
  if sourceType = targetType then .ok operand
  else if sourceType = .handleResult ∧
      (targetType = .ptr ∨ isIntegerType targetType ∨ targetType = .float ∨ targetType = .double) then
    unwrapResult machine source target targetType operand
  else
    let constructed ← construct machine operand source target
    match constructed with
    | some constructed => .ok constructed
    | none => coercePlain machine source target sourceType targetType operand

def stored (source target : Ty) (operand : Operand) : Emit Operand := do
  let coerced ← coerceOperand machine source target operand
  if llvmType target = some coerced.type then .ok coerced else .error .illTyped

/-! ### Loads -/

/-- `Endpoint OR Error` as an `Endpoint`. -/
def narrowsToEndpoint (slot loaded : Ty) : Bool :=
  llvmType slot == some .statusEndpoint && llvmType loaded == some .vector &&
    match slot with
    | .alternative members => decide (loaded ∈ members)
    | _ => false

/-- An `Error` in an alternative type that does not have its form. -/
def narrowsToError (slot loaded : Ty) : Bool :=
  isErrorType loaded && (llvmType slot == some .statusPointer || llvmType slot == some .statusEndpoint) &&
    match slot with
    | .alternative members => members.any isErrorType
    | _ => false

def narrows (slot loaded : Ty) : Bool :=
  match generalAlternative slot with
  | some members => decide (loaded ∈ members)
  | none =>
    ((loaded == .string || isInteger loaded || loaded == .boolean || isFloat loaded || llvmType loaded == some .ptr) &&
        llvmType slot == some .handleResult &&
        match slot with
        | .alternative members => decide (loaded ∈ members)
        | _ => false)
      || narrowsToError slot loaded || narrowsToEndpoint slot loaded

/-- The type that a load yields; a binding keeps its form where no member is taken out of it. -/
def loadedType (slot ty : Ty) : Ty :=
  if (llvmType slot).isSome ∧ llvmType slot ≠ llvmType ty ∧ narrows slot ty = false then slot else ty

/-- The value that a result of the runtime has beside its flag. -/
def narrowedValue (loaded : Ty) (pointer : Address) (payload : BitVec 64) : Emit Operand :=
  if loaded = .string then .ok (.ptr pointer)
  else if llvmType loaded = some .ptr then .ok (.ptr payload)
  else
    match loaded with
    | .boolean => .ok (.i1 (payload != 0))
    | .float .float64 => .ok (.double payload)
    | .float .float32 => .ok (.float (machine.fptrunc payload))
    | loaded => expect (llvmType loaded) >>= Operand.truncated payload

def emitNarrowedLoad (slot loaded : Ty) (held : Operand) : Emit Operand :=
  if (generalAlternative slot).isSome then extract machine held loaded
  else if narrowsToEndpoint slot loaded then
    match held with
    | .statusEndpoint _ pointer port => .ok (.vector pointer port)
    | _ => .error .illTyped
  else if narrowsToError slot loaded then
    match held with
    | .statusPointer _ record => .ok (.handleResult true record (machine.errorCode record))
    | .statusEndpoint _ record _ => .ok (.handleResult true record (machine.errorCode record))
    | _ => .error .illTyped
  else
    match held with
    | .handleResult _ pointer payload => narrowedValue machine loaded pointer payload
    | _ => .error .illTyped

def loadAlternative (slot loaded : Ty) (held : Operand) : Emit Operand :=
  if narrows slot loaded then emitNarrowedLoad machine slot loaded held
  else if llvmType loaded = some held.type then .ok held
  else .error .illTyped

/-! ### The values of a type -/

/-- The operands that are values of a type. Texts lie apart from the two sentinels, an object is not null and an
`Error` has its code in its record. -/
def Holds (ty : Ty) (operand : Operand) : Prop :=
  llvmType ty = some operand.type ∧ match operand with
    | .ptr address =>
      match ty with
      | .null => address = 0
      | .endOfFile => address = machine.eof
      | _ => address ≠ 0 ∧ address ≠ machine.na ∧ address ≠ machine.eof
    | .optionalFloat number => ty = .notAvailable → number = none
    | .handleResult error record code =>
      if isErrorType ty then error = true ∧ code = machine.errorCode record else error = false
    | .statusPointer error _ => error = false
    | _ => True

end

end BasicNext.Native
