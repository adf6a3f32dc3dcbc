import BasicNext.Semantic.TypeTests
import BasicNext.Interp.Value

/-!
# The values of a type

What the types of semantic analysis say about runtime values. A value of a class is an object of the class,
of one derived from it or of one that declares it as an interface; the types of literals and names are not
types of values, and neither is the type of a place that cannot be reached.
-/

namespace BasicNext.Semantic

open Frontend Interp

/-- Where values are looked at: the module whose code runs, the names of the standard modules, the classes
and the lengths of the allocations. -/
structure World where
  lowering : LoweringScope := {}
  standardNames : ModuleId → Option String := fun _ => none
  classes : ClassModel := {}
  lengths : ObjectHandle → Option Nat := fun _ => none

/-- A declared type: the module that declares it, none for the entry module and for types of the language
and its hosts, and its name there. -/
structure Nominal where
  module : Option ModuleId
  name : String
deriving DecidableEq, Repr

namespace Nominal

/-- The name that objects and records of the type carry. -/
def identity (nominal : Nominal) : String :=
  match nominal.module with
  | some module => "#" ++ toString module ++ "." ++ nominal.name
  | none => nominal.name

end Nominal

/-- The type that a name denotes in the running module; `Net.Name` is short for `HOST.Net.Name`. -/
def World.nominal (world : World) (name : String) : Nominal :=
  if world.lowering.module.isSome ∧ name ∈ world.lowering.declared then ⟨world.lowering.module, name⟩
  else if "Net.".toList.isPrefixOf name.toList then ⟨none, "HOST." ++ name⟩
  else ⟨none, name⟩

/-- The standard module that a resource belongs to, none for the host, and the name of its type. -/
def resourceType : Resource → Option String × String
  | .tcpStream => (none, "HOST.Net.TCPStream")
  | .tcpListener => (none, "HOST.Net.TCPListener")
  | .udpSocket => (none, "HOST.Net.UDPSocket")
  | .file => (none, "FS.File")
  | .logFields => (some "BNLog", "Fields")
  | .logEntry => (some "BNLog", "Entry")
  | .logLogger => (some "BNLog", "Logger")
  | .json => (some "BNJson", "Json")
  | .cryptoBytes => (some "BNCrypto", "Bytes")
  | .cryptoKey => (some "BNCrypto", "Key")
  | .compressBytes => (some "BNCompress", "Bytes")
  | .compressZip => (some "BNCompress", "ZipArchive")
  | .dispatchQueue => (some "BNDispatch", "Queue")
  | .dispatchTicket => (some "BNDispatch", "Ticket")
  | .dispatchGroup => (some "BNDispatch", "Group")
  | .dispatchBarrier => (some "BNDispatch", "Barrier")
  | .dispatchSemaphore => (some "BNDispatch", "Semaphore")
  | .dispatchMutex => (some "BNDispatch", "Mutex")
  | .dataFrame => (some "BNData", "DataFrame")

variable (world : World)

/-- The values of a declared type. -/
def InhabitsNominal (value : Value) (nominal : Nominal) : Prop :=
  match value with
  | .error .. => nominal = ⟨none, "Error"⟩
  | .date _ => nominal = ⟨none, "DATE"⟩
  | .time _ => nominal = ⟨none, "TIME"⟩
  | .timeZone _ => nominal = ⟨none, "TIMEZONE"⟩
  | .object _ className => world.classes.InstanceOf className nominal.identity
  | .record typeName _ => typeName = nominal.identity
  | .resource kind _ => resourceType kind = (nominal.module.bind world.standardNames, nominal.name)
  | _ => False

/-- A vector of the shape: nested vectors with the values of `element` at the bottom. -/
def OfShape (element : Value → Prop) : List Nat → Value → Prop
  | [], value => element value
  | dimension :: dimensions, value =>
    ∃ elements, value = .vector elements ∧ (dimension = 2 ^ 64 - 1 ∨ elements.length = dimension) ∧
      ∀ value ∈ elements, OfShape element dimensions value

/-- The length that a pointer type gives its allocations. -/
def OfLength (length : Option Nat) : PointerLength → Prop
  | .one => length = some 1
  | .fixed expected => length = some expected
  | .dynamic => length.isSome

mutual

def Inhabits (value : Value) (ty : Ty) : Prop :=
  match ty with
  | .boolean => ∃ truth, value = .boolean truth
  | .integer kind => ∃ number, value = .integer number kind
  | .float kind => ∃ number, value = .float number kind
  | .string => ∃ text, value = .string text
  | .null => value = .null
  | .notAvailable => value = .notAvailable
  | .endOfFile => value = .endOfFile
  | .hostConsole => value = .hostConsole
  | .hostArgs => value = .hostArgs
  | .named name => InhabitsNominal world value (world.nominal name)
  | .importedNamed module name => InhabitsNominal world value ⟨some module, name⟩
  | .function _ _ => ∃ name, value = .function name
  | .vector element dimensions =>
    ∃ elements, value = .vector elements ∧ OfShape (fun value => Inhabits value element) dimensions value
  | .pointer element length =>
    ∃ handle code, value = .pointer handle code ∧ if isVoid element then (world.lengths handle).isSome = true
      else memberCode element = some code ∧ OfLength (world.lengths handle) length
  | .alternative members => InhabitsAny value members
  | _ => False
termination_by structural ty

def InhabitsAny (value : Value) (members : List Ty) : Prop :=
  match members with
  | [] => False
  | member :: members => Inhabits value member ∨ InhabitsAny value members
termination_by structural members

end

variable {world}

theorem inhabitsAny_iff {value : Value} {members : List Ty} :
    InhabitsAny world value members ↔ ∃ member ∈ members, Inhabits world value member := by
  induction members with
  | nil =>
    rw [InhabitsAny]
    simp
  | cons member members ih => rw [InhabitsAny, ih, List.exists_mem_cons_iff]

theorem inhabits_alternative {value : Value} {members : List Ty} :
    Inhabits world value (.alternative members) ↔ ∃ member ∈ members, Inhabits world value member := by
  rw [Inhabits, inhabitsAny_iff]

end BasicNext.Semantic
