import BasicNext.Interp.Executor
import BasicNext.Lib.Utf8Order

/-!
# Vectors and regions of the interpreter

How the interpreter creates a vector or a region of a length that it computes, and how it reads and writes what an index
names (`bn_interp::executor`). A length and an index are integers of 128 bits.
-/

namespace BasicNext.Interp

inductive FailureId where
  | invalidVectorDimension | numericOverflow | allocationSizeInvalid | allocationSizeOverflow | allocationTooLarge
  | indexOutOfBounds | nullPointerAccess | useAfterRelease | typeMismatch | invalidIr | uninitializedValue | inputError
deriving DecidableEq, Repr

/-- What a diagnostic tells, by its name in the catalog. -/
inductive Fact where
  | text (text : String)
  | number (value : Int)
deriving DecidableEq, Repr

/-- A diagnostic of a program that stops, without its place in the source. -/
structure Failure where
  id : FailureId
  facts : List (String × Fact)
deriving DecidableEq, Repr

/-- The name of the fact of a diagnostic with one of them. -/
def FailureId.argument : FailureId → String
  | numericOverflow => "operation"
  | allocationSizeInvalid | allocationSizeOverflow | allocationTooLarge | useAfterRelease | invalidIr | inputError => "detail"
  | _ => "message"

def runtimeError (id : FailureId) (message : String) : Failure := ⟨id, [(id.argument, .text message)]⟩

def indexOutOfBounds (index bound : Int) (context : String) : Failure :=
  ⟨.indexOutOfBounds, [("index", .number index), ("bound", .number bound), ("context", .text context)]⟩

def typeMismatch (expected actual context : String) : Failure :=
  ⟨.typeMismatch, [("expected", .text expected), ("actual", .text actual), ("context", .text context)]⟩

/-- The greatest `isize`. -/
def isizeMax : Nat := 2 ^ 63 - 1

/-- A number of 64 bits without a sign. -/
def u64 (n : Nat) : Option Nat := if n < 2 ^ 64 then some n else none

/-! ### Sizes -/

def integerByteSize : IntegerType → Nat
  | .byte | .int8 => 1
  | .int16 | .uint16 => 2
  | .int32 | .uint32 => 4
  | .int64 | .uint64 => 8

/-- None for a dimension that is not known, which is the greatest number. -/
def dimensionProduct (dimensions : List Nat) : Option Nat :=
  if 2 ^ 64 - 1 ∈ dimensions then none
  else dimensions.foldlM (fun product dimension => u64 (product * dimension)) 1

def staticSizeOf : Ty → Option Nat
  | .boolean => some 1
  | .integer kind => some (integerByteSize kind)
  | .integerLiteral _ | .float .float32 => some 4
  | .float .float64 | .floatLiteral => some 8
  | .named name => if name = "DATE" ∨ name = "TIME" then some 4 else none
  | .vector element dimensions => do
    let size ← staticSizeOf element
    let product ← dimensionProduct dimensions
    u64 (product * size)
  | _ => none

/-! ### Vectors -/

/-- The functions of a program that give a default, and the values of names without one. -/
structure Defaults where
  emptyNamed : String → Value
  function : String → Option (Except Failure Value)

def Defaults.named (defaults : Defaults) (name : String) : Except Failure Value :=
  (defaults.function name).getD (.ok (defaults.emptyNamed name))

def defaultFunctionOwner : Ty → Option String
  | .named name | .typeName name => some name
  | .importedNamed module name | .importedTypeName module name => some ("#" ++ toString module ++ "." ++ name)
  | _ => none

def filled (value : Value) (dimensions : List Nat) : Value :=
  dimensions.foldr (fun length value => .vector (List.replicate length value)) value

/-- The arm of `default_value` for a vector, with the default of the element. -/
def defaultVector (element : Ty) (elementDefault : Except Failure Value) (dimensions : List Nat) : Except Failure Value :=
  if dimensions = [] then .error (runtimeError .invalidIr "vector default is missing its dimension")
  else
    let total := dimensions.foldlM (fun size length => u64 (size * length)) ((staticSizeOf element).getD 1)
    match total with
    | some size =>
      if isizeMax < size then .error (runtimeError .numericOverflow "vector allocation size overflowed")
      else elementDefault.map fun value => filled value dimensions
    | none => .error (runtimeError .numericOverflow "vector allocation size overflowed")

def defaultValue (defaults : Defaults) : Ty → List Nat → Except Failure Value
  | .boolean, _ => .ok (.boolean false)
  | .integer kind, _ => .ok (.integer 0 kind)
  | .float kind, _ => .ok (.float 0 kind)
  | .string, _ => .ok (.string "")
  | .vector element declared, dimensions =>
    defaultVector element
      (match defaultFunctionOwner element with
      | some name => defaults.named name
      | none => defaultValue defaults element [])
      (if dimensions = [] then declared else dimensions)
  | .alternative (.null :: _), _ => .ok .null
  | .alternative (.notAvailable :: _), _ => .ok .notAvailable
  | .alternative (.endOfFile :: _), _ => .ok .endOfFile
  | .alternative (first :: _), dimensions => defaultValue defaults first dimensions
  | .alternative [], _ => .error (runtimeError .invalidIr "empty alternative type")
  | .named name, _ | .typeName name, _ => .ok (defaults.emptyNamed name)
  | .importedNamed module name, _ | .importedTypeName module name, _ =>
    .ok (defaults.emptyNamed ("#" ++ toString module ++ "." ++ name))
  | .hostClock, _ => .ok (.type "HOST.Clock")
  | .hostRandom, _ => .ok (.type "HOST.Random")
  | .hostFileSystem, _ => .ok (.type "HOST.FileSystem")
  | .hostNet, _ => .ok (.type "HOST.Net")
  | .hostExec, _ => .ok (.type "HOST.Exec")
  | .hostEnv, _ => .ok (.type "HOST.Env")
  | _, _ => .error (runtimeError .uninitializedValue "type has no default value")

def elementDefault (defaults : Defaults) (element : Ty) : Except Failure Value :=
  match defaultFunctionOwner element with
  | some name => defaults.named name
  | none => defaultValue defaults element []

theorem defaultValue_vector (defaults : Defaults) (element : Ty) (declared dimensions : List Nat) :
    defaultValue defaults (.vector element declared) dimensions =
      defaultVector element (elementDefault defaults element) (if dimensions = [] then declared else dimensions) := by
  rw [defaultValue, elementDefault]

/-- `integer` -/
def integerOperand : Value → Except Failure Int
  | .integer value _ => .ok value
  | _ => .error (typeMismatch "integral value" "non-integral value" "integer operation")

/-- A computed dimension, as a `usize`. -/
def evaluateDimension (operand : Value) : Except Failure Nat := do
  let value ← integerOperand operand
  if value < 0 then .error (runtimeError .invalidVectorDimension "vector dimension must be a non-negative size")
  else if 2 ^ 64 ≤ value then .error (runtimeError .numericOverflow "vector dimension must be a non-negative size")
  else .ok value.toNat

/-- `Instruction::Default` -/
def executeDefault (defaults : Defaults) (ty : Ty) (dimensions : List Nat) (dynamicDimensions : List Value) :
    Except Failure Value := do
  let evaluated ← dynamicDimensions.mapM evaluateDimension
  defaultValue defaults ty (dimensions ++ evaluated)

theorem executeDefault_eq {defaults : Defaults} {element : Ty} {value : Value} (has : elementDefault defaults element = .ok value)
    (declared : List Nat) {n : Int} (kind : IntegerType) (small : n < 2 ^ 64) :
    executeDefault defaults (.vector element declared) [] [.integer n kind] =
      if n < 0 then .error (runtimeError .invalidVectorDimension "vector dimension must be a non-negative size")
      else if isizeMax < (staticSizeOf element).getD 1 * n.toNat then
        .error (runtimeError .numericOverflow "vector allocation size overflowed")
      else .ok (.vector (List.replicate n.toNat value)) := by
  rw [executeDefault, List.mapM_cons, List.mapM_nil, evaluateDimension, integerOperand]
  by_cases negative : n < 0
  · rw [if_pos negative]
    simp [negative, bind, Except.bind]
  · rw [if_neg negative]
    have within : ¬2 ^ 64 ≤ n := by omega
    simp only [bind, Except.bind, if_neg negative, if_neg within, pure, Except.pure, List.nil_append]
    have product (size : Nat) :
        [n.toNat].foldlM (fun size length => u64 (size * length)) size = u64 (size * n.toNat) := by simp
    rw [defaultValue_vector, if_neg (List.cons_ne_nil _ _), defaultVector, if_neg (List.cons_ne_nil _ _), has, product, u64]
    generalize (staticSizeOf element).getD 1 * n.toNat = total
    by_cases fits : total < 2 ^ 64
    · rw [if_pos fits]
      simp [Except.map, filled]
    · have beyond : isizeMax < total := by
        rw [isizeMax]
        omega
      rw [if_neg fits, if_pos beyond]

/-! ### Regions -/

def pointerElementSize : Ty → Option Nat
  | .integer kind => some (integerByteSize kind)
  | .float .float32 => some 4
  | .float .float64 => some 8
  | _ => none

def pointerElementDefault : Ty → Except Failure Value
  | .integer kind => .ok (.integer 0 kind)
  | .float kind => .ok (.float 0 kind)
  | _ => .error (typeMismatch "numeric pointer element" "non-numeric type" "pointer allocation")

def regionLength : List Value → Except Failure Nat
  | [] => .ok 1
  | argument :: _ => do
    let count ← integerOperand argument
    if count < 0 then .error (runtimeError .allocationSizeInvalid "numeric NEW length cannot be negative")
    else if 2 ^ 64 ≤ count then .error (runtimeError .allocationSizeOverflow "allocation length does not fit the host")
    else .ok count.toNat

/-- `allocate_region`: the elements of the region that the heap keeps under its handle. The host says of which lengths
it reserves the memory. -/
def allocateRegion (reserves : Nat → Bool) (element : Ty) (arguments : List Value) : Except Failure (List Value) := do
  let count ← regionLength arguments
  let size ←
    match pointerElementSize element with
    | some size => .ok size
    | none => .error (typeMismatch "numeric pointer element" "non-numeric type" "pointer allocation")
  let bytes ←
    match u64 (count * size) with
    | some bytes => .ok bytes
    | none => .error (runtimeError .allocationSizeOverflow "allocation byte size overflowed")
  if isizeMax < bytes then .error (runtimeError .allocationTooLarge "allocation exceeds the host limit")
  let initial ← pointerElementDefault element
  if reserves count then .ok (List.replicate count initial)
  else .error (runtimeError .allocationTooLarge "allocation payload cannot be reserved")

theorem allocateRegion_eq {reserves : Nat → Bool} {element : Ty} {size : Nat} {initial : Value}
    (numeric : pointerElementSize element = some size) (has : pointerElementDefault element = .ok initial) {n : Int}
    (kind : IntegerType) (small : n < 2 ^ 32) (roomy : ∀ length < 2 ^ 32, reserves length = true) (few : size ≤ 8) :
    allocateRegion reserves element [.integer n kind] =
      if n < 0 then .error (runtimeError .allocationSizeInvalid "numeric NEW length cannot be negative")
      else .ok (List.replicate n.toNat initial) := by
  rw [allocateRegion, regionLength, integerOperand, numeric, has]
  by_cases negative : n < 0
  · simp [negative, bind, Except.bind]
  · have within : ¬2 ^ 64 ≤ n := by omega
    have product : n.toNat * size ≤ 2 ^ 32 * 8 := Nat.mul_le_mul (by omega) few
    have fits : n.toNat * size < 2 ^ 64 := by omega
    have allowed : ¬isizeMax < n.toNat * size := by
      rw [isizeMax]
      omega
    have room := roomy n.toNat (by omega)
    simp only [bind, Except.bind, if_neg negative, if_neg within, u64, if_pos fits, if_neg allowed]
    rw [if_pos room]

/-! ### Indices -/

/-- What a program reads besides its values: the elements of the live regions and the arguments. -/
structure Store where
  regions : ObjectHandle → Option (List Value)
  arguments : List String

/-- An index that is no `usize` is greater than every length. -/
def checkedIndex (index : Int) (length : Nat) (context : String) : Except Failure Nat :=
  if 0 ≤ index ∧ index < length then .ok index.toNat else .error (indexOutOfBounds index length context)

/-- `Heap::payload` -/
def Store.region (store : Store) (handle : ObjectHandle) : Except Failure (List Value) :=
  match store.regions handle with
  | some elements => .ok elements
  | none => .error (runtimeError .useAfterRelease "allocation handle refers to released memory")

def stringCharacter (text : String) (index : Int) : Except Failure Value :=
  if text.toList.all fun character => character.toNat < 128 then do
    let index ← checkedIndex index text.utf8ByteSize "string"
    return .string (String.ofList ((text.toList.drop index).take 1))
  else
    let character := if 0 ≤ index ∧ index < 2 ^ 64 then text.toList[index.toNat]? else none
    match character with
    | some character => .ok (.string (String.ofList [character]))
    | none => .error (indexOutOfBounds index text.toList.length "string")

def indexValue (store : Store) (object : Value) (index : Int) : Except Failure Value :=
  match object with
  | .null => .error (runtimeError .nullPointerAccess "cannot index a NULL pointer")
  | .vector elements => do
    let index ← checkedIndex index elements.length "vector"
    return elements.getD index .null
  | .pointer handle _ => do
    let elements ← store.region handle
    let index ← checkedIndex index elements.length "region"
    return elements.getD index .null
  | .string text => stringCharacter text index
  | .hostArgs => do
    let index ← checkedIndex index store.arguments.length "HOST.Args"
    return .string (store.arguments.getD index "")
  | _ => .error (typeMismatch "indexable value" "non-indexable value" "index operation")

/-- A chain of `Instruction::Index`. -/
def indexPath (store : Store) (object : Value) (indices : List Int) : Except Failure Value :=
  indices.foldlM (indexValue store) object

/-- `set_index`: the target with the element replaced, and the store with the element of a region replaced. -/
def setIndex (store : Store) : Value → List Int → Value → Except Failure (Value × Store)
  | _, [], stored => .ok (stored, store)
  | target, index :: remaining, stored =>
    match target with
    | .null => .error (runtimeError .nullPointerAccess "cannot index a NULL pointer")
    | .pointer handle element =>
      if remaining ≠ [] then .error (indexOutOfBounds (remaining.length + 1) 1 "pointer indexing")
      else do
        let elements ← store.region handle
        let index ← checkedIndex index elements.length "region"
        let regions := fun other => if other = handle then some (elements.set index stored) else store.regions other
        return (.pointer handle element, { store with regions })
    | .vector elements => do
      let index ← checkedIndex index elements.length "vector"
      let changed ← setIndex store (elements.getD index .null) remaining stored
      return (.vector (elements.set index changed.1), changed.2)
    | _ => .error (typeMismatch "indexable value" "non-indexable value" "assignment index operation")

/-- `integer_from_count`: a length is an `INTEGER`. -/
def integerFromCount (count : Nat) : Except Failure Value :=
  if count < 2 ^ 31 then .ok (.integer count .int32)
  else .error (runtimeError .numericOverflow "converting a value to INTEGER")

theorem checkedIndex_of_inside {index : Int} {length : Nat} (inside : 0 ≤ index ∧ index < length) (context : String) :
    checkedIndex index length context = .ok index.toNat := if_pos inside

theorem checkedIndex_of_outside {index : Int} {length : Nat} (outside : ¬(0 ≤ index ∧ index < length)) (context : String) :
    checkedIndex index length context = .error (indexOutOfBounds index length context) := if_neg outside

theorem indexPath_vector (store : Store) (elements : List Value) (index : Int) (indices : List Int) :
    indexPath store (.vector elements) (index :: indices) =
      checkedIndex index elements.length "vector" >>= fun i => indexPath store (elements.getD i .null) indices := by
  rw [indexPath, List.foldlM_cons, indexValue, bind_assoc]
  rfl

theorem stringCharacter_eq {text : String} (addressable : text.utf8ByteSize < 2 ^ 64) (index : Int) :
    stringCharacter text index = if 0 ≤ index ∧ index < text.toList.length then
        .ok (.string (String.ofList ((text.toList.drop index.toNat).take 1)))
      else .error (indexOutOfBounds index text.toList.length "string") := by
  have fewer := Lib.length_toList_le_utf8ByteSize text
  rw [stringCharacter]
  split
  · next ascii =>
    have bytes : text.utf8ByteSize = text.toList.length := by
      rw [← Lib.length_utf8Bytes]
      apply Lib.length_utf8Bytes_of_ascii
      intro character member
      simpa using List.all_eq_true.1 ascii character member
    rw [bytes]
    by_cases inside : 0 ≤ index ∧ index < text.toList.length
    · rw [checkedIndex_of_inside inside, if_pos inside]
      rfl
    · rw [checkedIndex_of_outside inside, if_neg inside]
      rfl
  · by_cases inside : 0 ≤ index ∧ index < text.toList.length
    · have below : index.toNat < text.toList.length := by omega
      rw [if_pos inside, if_pos (by omega), List.getElem?_eq_getElem below, List.drop_eq_getElem_cons below]
      rfl
    · have nothing : (if 0 ≤ index ∧ index < 2 ^ 64 then text.toList[index.toNat]? else none) = none := by
        split
        · exact List.getElem?_eq_none (by omega)
        · rfl
      rw [if_neg inside, nothing]

end BasicNext.Interp
