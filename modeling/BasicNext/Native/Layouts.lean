import BasicNext.Semantic.Compatible

/-!
# Layouts of alternative types

The LLVM type of a language type and the form in which native code keeps an alternative type
(`bn_llvm::llvm::layout`). Results of the runtime keep the form in which it returns them, a class or `NULL`
is a pointer, and every other alternative type has the code of its member beside two words. What has no form
is refused.
-/

namespace BasicNext.Native

open Semantic (isVoid)

/-- The LLVM types of values; a structure goes by the function that builds it. -/
inductive LlvmType where
  | i1 | i8 | i16 | i32 | i64 | float | double | ptr
  /-- `{ i1, double }` -/
  | optionalFloat
  /-- `{ i1, ptr, i64 }` -/
  | handleResult
  /-- `{ i1, ptr }` -/
  | statusPointer
  /-- `{ i1, ptr, i32 }` -/
  | statusEndpoint
  /-- `{ ptr, i32 }` -/
  | vector
  /-- `{ ptr, i32, i32 }` -/
  | region
  /-- `{ i32, ptr, i64 }` -/
  | general
deriving DecidableEq, Repr

/-- How native code keeps an alternative type. -/
inductive AlternativeLayout where
  | sentinel | status | statusPointer | statusEndpoint | general | region
deriving DecidableEq, Repr

def AlternativeLayout.llvm : AlternativeLayout → LlvmType
  | sentinel => .ptr
  | status => .handleResult
  | statusPointer => .statusPointer
  | statusEndpoint => .statusEndpoint
  | general => .general
  | region => .vector

/-! ### Kinds of members -/

def isErrorType : Ty → Bool
  | .named name | .importedNamed _ name => name == "Error"
  | _ => false

/-- A type of `HOST.Net`, by its full name or by its last part, imported by its last part. -/
def isNetType (short : String) : Ty → Bool
  | .named name => name == "HOST.Net." ++ short || name == short
  | .importedNamed _ name => name == short
  | _ => false

def isNetAddressType : Ty → Bool := isNetType "Address"

def isNetPingReplyType : Ty → Bool := isNetType "PingReply"

def isNetCidrType : Ty → Bool := isNetType "CIDR"

def isNetAddressesType : Ty → Bool := isNetType "Addresses"

def isNetEndpointType : Ty → Bool := isNetType "Endpoint"

def netHandleName (name : String) : Bool :=
  name == "TCPStream" || name == "TCPListener" || name == "UDPSocket" || name == "UDPPacket"

def fullNetHandleName (name : String) : Bool :=
  name == "HOST.Net.TCPStream" || name == "HOST.Net.TCPListener" || name == "HOST.Net.UDPSocket"
    || name == "HOST.Net.UDPPacket"

def isNetHandleType : Ty → Bool
  | .named name => fullNetHandleName name
  | .importedNamed _ name => netHandleName name
  | _ => false

def dispatchHandleName (name : String) : Bool :=
  name == "Queue" || name == "Ticket" || name == "Group" || name == "Barrier" || name == "Semaphore" || name == "Mutex"

def isInteger : Ty → Bool
  | .integer _ => true
  | _ => false

def isFloat : Ty → Bool
  | .float _ => true
  | _ => false

def isVector : Ty → Bool
  | .vector _ _ => true
  | _ => false

def isPointer : Ty → Bool
  | .pointer _ _ => true
  | _ => false

/-- `DATE` and `TIME`, which are numbers of 32 bits. -/
def isDateOrTime : Ty → Bool
  | .named name => name == "DATE" || name == "TIME"
  | _ => false

/-! ### Two and three members -/

section

variable (members : List Ty)

/-- `T OR Error`. -/
def orError (value : Ty → Bool) : Bool := members.length == 2 && members.any value && members.any isErrorType

/-- `T OR U OR Error`, with a unit `U`. -/
def unitOrError (value : Ty → Bool) (unit : Ty) : Bool :=
  members.length == 3 && members.any value && members.any (· == unit) && members.any isErrorType

def netOrError : Bool :=
  orError members fun ty =>
    isNetAddressType ty || isNetCidrType ty || isNetPingReplyType ty || isNetAddressesType ty || isNetEndpointType ty
      || isNetHandleType ty || ty == .string

def voidOrError : Bool := orError members isVoid

def integerOrError : Bool := orError members isInteger

def booleanOrError : Bool := orError members (· == .boolean)

def floatOrError : Bool := orError members isFloat

def stringOrError : Bool := orError members (· == .string)

def errorOrNa : Bool := orError members (· == .notAvailable)

def stringNaOrError : Bool := unitOrError members (· == .string) .notAvailable

def scalarNaOrError : Bool := unitOrError members (fun ty => isInteger ty || isFloat ty || ty == .boolean) .notAvailable

def stringEofOrError : Bool := unitOrError members (· == .string) .endOfFile

def integerEofOrError : Bool := unitOrError members isInteger .endOfFile

def importedOrError : Bool :=
  members.length == 2 && members.any (· == .named "Error") && members.any fun
    | .importedNamed _ _ | .importedTypeName _ _ => true
    | _ => false

/-- The result of `INPUT`. -/
def stringOrEof : Bool := members.length == 2 && decide (.string ∈ members) && decide (.endOfFile ∈ members)

end

/-! ### The layout, by the types of the members -/

/-- A class of this program: a plain name. -/
def pointerMemberOf : Ty × Option LlvmType → Bool
  | (.named name, ty) =>
    !(name.toList.any fun character => character == '.' || character == '#') && !isErrorType (.named name)
      && !isDateOrTime (.named name) && ty == some .ptr
  | _ => false

def vectorMemberOf (member : Ty × Option LlvmType) : Bool := isVector member.1 && member.2 == some .vector

def stageOneMember (member : Ty) : Bool :=
  isInteger member || isFloat member || member == .boolean || member == .string || member == .null
    || member == .notAvailable || member == .endOfFile || isErrorType member || isDateOrTime member

def memberCodes (members : List Ty) : Option (List Nat) := members.mapM memberCode

def distinctCodes (members : List Ty) : Bool :=
  match memberCodes members with
  | some codes => decide codes.Nodup
  | none => false

def generalMembersOf (typed : List (Ty × Option LlvmType)) : Bool :=
  distinctCodes (typed.map Prod.fst) && !stringOrEof (typed.map Prod.fst)
    && typed.all fun member => stageOneMember member.1 || pointerMemberOf member || vectorMemberOf member

/-- A handle of a host or a module, in the form the runtime returns it. -/
def opaqueOrErrorOf (typed : List (Ty × Option LlvmType)) : Bool :=
  typed.length == 2 && typed.any (fun member => member.1 == .named "Error") && typed.any fun member =>
    !isErrorType member.1 && !pointerMemberOf member &&
      match member.1 with
      | .named _ | .importedNamed _ _ | .importedTypeName _ _ => true
      | _ => false

/-- `Class OR NULL` and `STRING OR EOF`. -/
def sentinelOf (typed : List (Ty × Option LlvmType)) : Bool :=
  (typed.length == 2 && typed.any (fun member => member.1 == .null) && typed.any fun
      | (.named name, _) => name != "Error"
      | (.importedNamed _ name, ty) => name != "Error" && ty == some .ptr
      | _ => false)
    || stringOrEof (typed.map Prod.fst)

def layoutOf (typed : List (Ty × Option LlvmType)) : Option AlternativeLayout :=
  let members := typed.map Prod.fst
  if sentinelOf typed then some .sentinel
  else if stringOrError members || stringNaOrError members || stringEofOrError members || scalarNaOrError members
      || errorOrNa members || floatOrError members || booleanOrError members then some .status
  else if netOrError members then
    if members.any isNetAddressesType then some .statusPointer
    else if members.any isNetEndpointType then some .statusEndpoint
    else some .status
  else if voidOrError members || integerOrError members || integerEofOrError members || importedOrError members
      || opaqueOrErrorOf typed then some .status
  else if generalMembersOf typed then some .general
  else if members.length == 2 && decide (.null ∈ members) && members.any isPointer then some .region
  else none

/-! ### LLVM types -/

/-- The type of a `Named`. -/
def namedType (name : String) : Option LlvmType :=
  if name == "DATE" || name == "TIME" then some .i32
  else if name == "Error" || isNetCidrType (.named name) || name == "HOST.Net.Address" || name == "HOST.Net.PingReply" then
    some .handleResult
  else if name == "HOST.Net.Addresses" then some .statusPointer
  else if name == "HOST.Net.Endpoint" then some .vector
  else if name == "FS.File" || fullNetHandleName name then some .handleResult
  else if name == "POINTER" then some .vector
  else if name == "VOID" then none
  else some .ptr

/-- The type of an `ImportedNamed`. -/
def importedType (name : String) : LlvmType :=
  if name == "CIDR" || name == "Address" || name == "PingReply" || name == "Error" then .handleResult
  else if name == "Addresses" then .statusPointer
  else if name == "Endpoint" then .vector
  else if netHandleName name || dispatchHandleName name then .handleResult
  else .ptr

mutual

def llvmType : Ty → Option LlvmType
  | .boolean => some .i1
  | .integer .byte | .integer .int8 => some .i8
  | .integer .int16 | .integer .uint16 => some .i16
  | .integer .int32 | .integer .uint32 => some .i32
  | .integerLiteral _ | .integer .int64 | .integer .uint64 => some .i64
  | .float .float32 => some .float
  | .float .float64 | .floatLiteral => some .double
  | .string | .null | .endOfFile | .function _ _ => some .ptr
  | .notAvailable => some .optionalFloat
  | .alternative members => (layoutOf (typedMembers members)).map AlternativeLayout.llvm
  | .named name => namedType name
  | .importedNamed _ name => some (importedType name)
  | .importedTypeName _ name => some (if dispatchHandleName name then .handleResult else .ptr)
  | .vector element dimensions =>
    if dimensions.isEmpty then none else (llvmType element).map fun _ => .vector
  | .pointer element _ => if isVoid element then some .region else (llvmType element).map fun _ => .vector
  | _ => none

def typedMembers : List Ty → List (Ty × Option LlvmType)
  | [] => []
  | member :: members => (member, llvmType member) :: typedMembers members

end

theorem typedMembers_eq (members : List Ty) : typedMembers members = members.map fun member => (member, llvmType member) := by
  induction members with
  | nil => rfl
  | cons member members ih => rw [typedMembers, ih, List.map_cons]

@[simp]
theorem map_fst_typedMembers (members : List Ty) : (typedMembers members).map Prod.fst = members := by
  rw [typedMembers_eq, List.map_map]
  exact List.map_id members

/-! ### The layout -/

/-- The layout of an alternative type; none when native code refuses it. -/
def AlternativeLayout.of (members : List Ty) : Option AlternativeLayout := layoutOf (typedMembers members)

theorem llvmType_alternative (members : List Ty) :
    llvmType (.alternative members) = (AlternativeLayout.of members).map AlternativeLayout.llvm := by
  rw [llvmType, AlternativeLayout.of]

def pointerMember (member : Ty) : Bool := pointerMemberOf (member, llvmType member)

def vectorMember (member : Ty) : Bool := vectorMemberOf (member, llvmType member)

def generalMembers (members : List Ty) : Bool := generalMembersOf (typedMembers members)

def opaqueOrError (members : List Ty) : Bool := opaqueOrErrorOf (typedMembers members)

def generalAlternative : Ty → Option (List Ty)
  | .alternative members => if AlternativeLayout.of members = some .general then some members else none
  | _ => none

def comparableAlternative : Ty → Option (List Ty)
  | .alternative members =>
    if AlternativeLayout.of members = some .general ∨ AlternativeLayout.of members = some .status then some members
    else none
  | _ => none

def integerUnionPayload : Ty → Option Ty
  | .alternative members =>
    if integerOrError members || integerEofOrError members then members.find? isInteger else none
  | _ => none

end BasicNext.Native
