import BasicNext.Ir.Validate
import BasicNext.Native.AlternativeEquality
import BasicNext.Native.Casts
import BasicNext.Native.ClassInitialization

/-!
# Symbol names

The LLVM names that native code gives to functions, dispatch trampolines, `STATIC` fields, class-initialisation flags
and the buffers of returned vectors (`bn_llvm::llvm::functions`, `helpers`, `statics`, `preamble`). The preamble gets
the functions that `Start` reaches; the fields and flags come from every function of the module.
-/

namespace BasicNext.Native

open Ir

/-! ### Functions -/

/-- `byte.is_ascii_alphanumeric() || byte == b'_'` -/
def plain (byte : UInt8) : Bool := (Char.ofUInt8 byte).isAlphanum || Char.ofUInt8 byte == '_'

/-- `{byte:02x}` -/
def twoDigits (byte : UInt8) : List Char := [Nat.digitChar (byte.toNat / 16), Nat.digitChar (byte.toNat % 16)]

def escapeByte (byte : UInt8) : List Char := if plain byte then [Char.ofUInt8 byte] else '_' :: twoDigits byte

def llvmFunctionSymbol (name : String) : String :=
  if name = "Start" then "main" else "bn_" ++ String.ofList ((stringBytes name).flatMap escapeByte)

def dispatchTrampolineSymbol (name : String) : String := "bn_dispatch_trampoline_" ++ llvmFunctionSymbol name

/-- A reachable function is defined as `main` if it is the entry, whatever its name (`emit_function`). -/
def definedSymbol (kind : FunctionKind) (name : String) : String :=
  if kind = .entry then "main" else llvmFunctionSymbol name

/-! ### Fields, flags and buffers -/

def staticGlobalName (className field : String) : String :=
  "@bn_st_" ++ sanitizeSymbol className ++ "_" ++ sanitizeSymbol field

/-- `trim_start_matches('@')` -/
def withoutSigil (global : String) : String := String.ofList (global.toList.dropWhile (· == '@'))

/-- `trim_start_matches("bn_st_")` -/
def withoutSlotMark : List Char → List Char
  | 'b' :: 'n' :: '_' :: 's' :: 't' :: '_' :: rest => withoutSlotMark rest
  | text => text

def slotName (className field : String) : String := withoutSigil (staticGlobalName className field)

def slotSuffix (className field : String) : String := String.ofList (withoutSlotMark (slotName className field).toList)

def storageName (className field : String) : String := "bn_sv_" ++ slotSuffix className field

def keptName (className field : String) : String := "bn_svp_" ++ slotSuffix className field

def flagName (className : String) : String := withoutSigil (classInitFlag className)

/-- The buffer of a returned vector. -/
def bufferName (functionName : String) : String := "bn_vret_" ++ sanitizeSymbol functionName

/-- What a module gives a name to. Functions and their buffers carry the position of the function. -/
inductive Item where
  | function (position : Nat) (kind : FunctionKind) (name : String)
  | trampoline (task : String)
  | slot (className field : String)
  /-- The elements of a fixed vector, or the block of a `STRUCT`. -/
  | storage (className field : String)
  /-- The copy of the replaced elements. -/
  | kept (className field : String)
  | flag (className : String)
  | buffer (position : Nat) (name : String)
deriving DecidableEq, Repr

namespace Item

def symbol : Item → String
  | function _ kind name => definedSymbol kind name
  | trampoline task => dispatchTrampolineSymbol task
  | slot className field => slotName className field
  | storage className field => storageName className field
  | kept className field => keptName className field
  | flag className => flagName className
  | buffer _ name => bufferName name

def isEntry : Item → Bool
  | function _ kind _ => kind == .entry
  | _ => false

end Item

/-! ### The items of a module -/

/-- `fixed_vector_array(ty).is_some()`; several dimensions have the storage of `nest`. -/
def fixedVectorArray : Ty → Bool
  | .vector element [count] => count != 2 ^ 64 - 1 && (llvmType element).isSome
  | .vector element dimensions =>
    decide (2 ≤ dimensions.length) && !dimensions.contains (2 ^ 64 - 1) && (llvmType element).isSome
  | _ => false

def returnedVector : Ty → Option Ty
  | .alternative members => (generalAlternative (.alternative members)).bind fun members => members.find? fixedVectorArray
  | ty => if fixedVectorArray ty then some ty else none

section

variable (module : Module)

def fieldGlobals (className field : String) (ty : Ty) : Option (List Item) := do
  let _ ← llvmType ty
  if fixedVectorArray ty then
    some [.storage className field, .kept className field, .slot className field]
  else if (structOwner module ty).isSome then some [.storage className field, .slot className field]
  else some [.slot className field]

/-- One instruction of `StaticState::collect`; the flags share the table of the fields. -/
def collectStatic (fields : String × String → List Item) : Instruction → String × String → List Item
  | .loadStatic _ className field ty _ | .storeStatic className field _ _ ty _ =>
    match fieldGlobals module className field ty with
    | some globals => Function.update fields (className, field) globals
    | none => fields
  | .ensureClass className _ => Function.update fields (className, "") [.flag className]
  | _ => fields

def staticKey : Instruction → Option (String × String)
  | .loadStatic _ className field _ _ | .storeStatic className field _ _ _ _ => some (className, field)
  | .ensureClass className _ => some (className, "")
  | _ => none

def staticState : String × String → List Item :=
  (module.functions.flatMap Function.instructions).foldl (collectStatic module) fun _ => []

def staticItems : List Item :=
  ((module.functions.flatMap Function.instructions).filterMap staticKey).flatMap (staticState module)

end

section

variable (functions : List Function)

/-- The names of the functions among the values of a function (`LoweringAnalysis::functions`). -/
def functionValues (function : Function) : ValueId → Option String :=
  function.instructions.foldl
    (fun values instruction =>
      match instruction with
      | .constant destination (.function name) _ _ => Function.update values destination (some name)
      | _ => values)
    fun _ => none

/-- The task of a `DispatchSubmit` -/
def submittedTask : Instruction → Option ValueId
  | .dispatchSubmit _ _ _ task _ _ _ => some task
  | _ => none

/-- Every `DispatchSubmit` is read with the values of the one function (`emit_preamble`). -/
def tasksOf (function : Function) : List String :=
  (functions.flatMap fun submitter => submitter.instructions.filterMap submittedTask).filterMap (functionValues function)

def trampolines : List Item :=
  ((functions.flatMap (tasksOf functions)).filter fun name =>
    !name.startsWith "@super:" && functions.any (·.name == name)).map .trampoline

def functionItems : List Item :=
  functions.zipIdx.map fun (function, position) => .function position function.kind function.name

def bufferItems : List Item :=
  functions.zipIdx.filterMap fun (function, position) =>
    if (returnedVector function.returnType).any fixedVectorArray then some (.buffer position function.name)
    else none

end

/-- What a native program of the module names, given its reachable functions. -/
def items (module : Module) (functions : List Function) : List Item :=
  functionItems functions ++ bufferItems functions ++ staticItems module ++ trampolines functions

end BasicNext.Native

/-!
## Escaped and sanitised names

When two names are given the same letters. `llvm_function_symbol` leaves the underscores of a name as they are, so
that a name may hold the escape of another name's byte; `sanitize_symbol` maps all other characters to one.
-/

namespace BasicNext.Native

/-! ### Characters -/

theorem underscore_not_alphanum : '_'.isAlphanum = false := by decide

theorem digitChar_alphanum : ∀ digit < 16, (Nat.digitChar digit).isAlphanum = true := by decide

theorem digitChar_injective : ∀ digit < 16, ∀ other < 16, Nat.digitChar digit = Nat.digitChar other → digit = other := by
  decide

@[simp]
theorem toNat_ofUInt8 (byte : UInt8) : (Char.ofUInt8 byte).toNat = byte.toNat := rfl

theorem ofUInt8_inj {byte other : UInt8} : Char.ofUInt8 byte = Char.ofUInt8 other ↔ byte = other := by
  refine ⟨fun equal => ?_, congrArg _⟩
  have numbers := congrArg Char.toNat equal
  rwa [toNat_ofUInt8, toNat_ofUInt8, UInt8.toNat_inj] at numbers

theorem ofUInt8_ofNat (character : Char) (small : character.toNat < 256) :
    Char.ofUInt8 (UInt8.ofNat character.toNat) = character := by
  rw [← Char.toNat_inj, toNat_ofUInt8, UInt8.toNat_ofNat']
  exact Nat.mod_eq_of_lt small

theorem plain_iff (byte : UInt8) :
    plain byte = true ↔ (Char.ofUInt8 byte).isAlphanum = true ∨ Char.ofUInt8 byte = '_' := by
  simp [plain]

variable {byte : UInt8}

theorem plain_of_alphanum (alphanum : (Char.ofUInt8 byte).isAlphanum = true) : plain byte = true :=
  (plain_iff byte).2 (.inl alphanum)

theorem high_lt (byte : UInt8) : byte.toNat / 16 < 16 := by
  have := byte.toNat_lt
  omega

theorem low_lt (byte : UInt8) : byte.toNat % 16 < 16 := Nat.mod_lt _ (by decide)

theorem twoDigits_alphanum : ∀ digit ∈ twoDigits byte, digit.isAlphanum = true := by
  intro digit member
  simp only [twoDigits, List.mem_cons, List.not_mem_nil, or_false] at member
  obtain rfl | rfl := member
  · exact digitChar_alphanum _ (high_lt byte)
  · exact digitChar_alphanum _ (low_lt byte)

theorem twoDigits_inj {byte other : UInt8} (equal : twoDigits byte = twoDigits other) : byte = other := by
  simp only [twoDigits, List.cons.injEq, and_true] at equal
  have high := digitChar_injective _ (high_lt byte) _ (high_lt other) equal.1
  have low := digitChar_injective _ (low_lt byte) _ (low_lt other) equal.2
  rw [← UInt8.toNat_inj]
  omega

/-! ### Escaped names -/

def escape (name : List UInt8) : List Char := name.flatMap escapeByte

@[simp]
theorem escape_nil : escape [] = [] := rfl

theorem escape_cons (byte : UInt8) (name : List UInt8) : escape (byte :: name) = escapeByte byte ++ escape name :=
  List.flatMap_cons

theorem escape_append (name other : List UInt8) : escape (name ++ other) = escape name ++ escape other :=
  List.flatMap_append

theorem escapeByte_plain (plain : plain byte = true) : escapeByte byte = [Char.ofUInt8 byte] :=
  if_pos plain

theorem escapeByte_special (special : plain byte = false) : escapeByte byte = '_' :: twoDigits byte :=
  if_neg (Bool.eq_false_iff.1 special)

variable {name : List UInt8}

theorem escape_plain (plain : ∀ byte ∈ name, plain byte = true) :
    escape name = name.map Char.ofUInt8 := by
  induction name with
  | nil => rfl
  | cons byte name ih =>
    rw [escape_cons, escapeByte_plain (plain byte List.mem_cons_self),
      ih fun byte member => plain byte (List.mem_cons_of_mem _ member)]
    rfl

theorem escape_eq_nil : escape name = [] ↔ name = [] := by
  cases name with
  | nil => simp
  | cons byte name =>
    cases special : plain byte <;> simp [escape_cons, escapeByte, special]

variable {rest : List Char}

theorem escape_eq_alphanum {letter : Char} (equal : escape name = letter :: rest) (alphanum : letter.isAlphanum = true) :
    ∃ byte tail, name = byte :: tail ∧ Char.ofUInt8 byte = letter ∧ escape tail = rest := by
  cases name with
  | nil => simp at equal
  | cons byte tail =>
    rw [escape_cons] at equal
    cases special : plain byte with
    | false =>
      rw [escapeByte_special special, List.cons_append, List.cons.injEq] at equal
      rw [← equal.1] at alphanum
      exact absurd alphanum (by simp [underscore_not_alphanum])
    | true =>
      rw [escapeByte_plain special, List.cons_append, List.cons.injEq] at equal
      exact ⟨byte, tail, rfl, equal⟩

theorem escape_eq_alphanums {letters rest : List Char} (equal : escape name = letters ++ rest)
    (alphanum : ∀ letter ∈ letters, letter.isAlphanum = true) :
    ∃ text tail, name = text ++ tail ∧ text.map Char.ofUInt8 = letters ∧ escape tail = rest := by
  induction letters generalizing name with
  | nil => exact ⟨[], name, rfl, rfl, equal⟩
  | cons letter letters ih =>
    obtain ⟨byte, tail, rfl, first, others⟩ := escape_eq_alphanum equal (alphanum letter List.mem_cons_self)
    obtain ⟨text, tail, rfl, second, last⟩ := ih others fun letter member => alphanum letter (List.mem_cons_of_mem _ member)
    exact ⟨byte :: text, tail, rfl, by rw [List.map_cons, first, second], last⟩

theorem escape_eq_special (equal : escape name = '_' :: twoDigits byte ++ rest) :
    (∃ tail, name = byte :: tail ∧ escape tail = rest) ∨
      ∃ text tail, name = text ++ tail ∧ text.map Char.ofUInt8 = '_' :: twoDigits byte ∧ escape tail = rest := by
  cases name with
  | nil => simp at equal
  | cons head tail =>
    rw [escape_cons] at equal
    cases special : plain head with
    | false =>
      rw [escapeByte_special special, List.cons_append, List.cons_append, List.cons.injEq] at equal
      obtain ⟨digits, rest⟩ := List.append_inj equal.2 rfl
      obtain rfl := twoDigits_inj digits
      exact .inl ⟨tail, rfl, rest⟩
    | true =>
      rw [escapeByte_plain special, List.cons_append, List.cons_append, List.cons.injEq] at equal
      obtain ⟨text, tail, rfl, letters, last⟩ := escape_eq_alphanums equal.2 twoDigits_alphanum
      exact .inr ⟨head :: text, tail, rfl, by rw [List.map_cons, letters, equal.1], last⟩

/-- The bytes write out the escape of a byte that is no letter, digit or underscore. -/
def WritesOut (text : List UInt8) (byte : UInt8) : Prop :=
  plain byte = false ∧ text.map Char.ofUInt8 = '_' :: twoDigits byte

/-- One name comes from the other by writing out escapes, in either direction at each place. -/
inductive SameSpelling : List UInt8 → List UInt8 → Prop
  | nil : SameSpelling [] []
  | same (byte : UInt8) {name other : List UInt8} : SameSpelling name other → SameSpelling (byte :: name) (byte :: other)
  | left {byte : UInt8} {text name other : List UInt8} : WritesOut text byte → SameSpelling name other →
    SameSpelling (byte :: name) (text ++ other)
  | right {byte : UInt8} {text name other : List UInt8} : WritesOut text byte → SameSpelling name other →
    SameSpelling (text ++ name) (byte :: other)

theorem WritesOut.escape {text : List UInt8} (writes : WritesOut text byte) :
    escape text = escapeByte byte := by
  obtain ⟨special, letters⟩ := writes
  rw [escapeByte_special special, escape_plain, letters]
  intro letter member
  have written := List.mem_map_of_mem (f := Char.ofUInt8) member
  rw [letters, List.mem_cons] at written
  exact (plain_iff letter).2 (written.symm.imp_left (twoDigits_alphanum _))

theorem WritesOut.length_pos {text : List UInt8} (writes : WritesOut text byte) : 0 < text.length := by
  have := congrArg List.length writes.2
  simp only [List.length_map, List.length_cons] at this
  omega

variable {name other : List UInt8}

theorem SameSpelling.escape_eq (same : SameSpelling name other) : escape name = escape other := by
  induction same with
  | nil => rfl
  | same byte _ ih => rw [escape_cons, escape_cons, ih]
  | left writes _ ih => rw [escape_cons, escape_append, writes.escape, ih]
  | right writes _ ih => rw [escape_cons, escape_append, writes.escape, ih]

theorem sameSpelling_of_escape_eq (equal : escape name = escape other) :
    SameSpelling name other := by
  -- On the length of both names: what a byte of one is written out to in the other is longer.
  induction size : name.length + other.length using Nat.strong_induction_on generalizing name other with
  | _ size ih =>
    cases name with
    | nil =>
      rw [escape_nil, eq_comm, escape_eq_nil] at equal
      exact equal ▸ .nil
    | cons byte name =>
      cases special : plain byte with
      | false =>
        rw [escape_cons, escapeByte_special special, eq_comm] at equal
        obtain ⟨tail, rfl, rest⟩ | ⟨text, tail, rfl, letters, rest⟩ := escape_eq_special equal
        · exact .same byte (ih _ (by simp only [List.length_cons] at size; omega) rest.symm rfl)
        · refine .left ⟨special, letters⟩ (ih _ ?_ rest.symm rfl)
          simp only [List.length_cons, List.length_append] at size
          omega
      | true =>
        cases other with
        | nil =>
          rw [escape_nil, escape_eq_nil] at equal
          exact absurd equal (List.cons_ne_nil _ _)
        | cons head tail =>
          cases other : plain head with
          | true =>
            rw [escape_cons, escape_cons, escapeByte_plain special, escapeByte_plain other, List.cons_append,
              List.cons_append, List.cons.injEq, ofUInt8_inj] at equal
            obtain ⟨rfl, rest⟩ := equal
            exact .same byte (ih _ (by simp only [List.length_cons] at size; omega) rest rfl)
          | false =>
            rw [escape_cons head, escapeByte_special other] at equal
            obtain ⟨rest, same, equal⟩ | ⟨text, rest, split, letters, equal⟩ := escape_eq_special equal
            · obtain ⟨rfl, rfl⟩ := List.cons.inj same
              exact absurd special (by simp [other])
            · rw [split]
              have longer := congrArg List.length split
              refine .right ⟨other, letters⟩ (ih _ ?_ equal rfl)
              simp only [List.length_cons, List.length_append] at size longer
              have := WritesOut.length_pos ⟨other, letters⟩
              omega

theorem escape_eq_iff : escape name = escape other ↔ SameSpelling name other :=
  ⟨sameSpelling_of_escape_eq, SameSpelling.escape_eq⟩

theorem exists_escaped (name : List UInt8) :
    ∃ text : List UInt8, (∀ byte ∈ text, plain byte = true) ∧ text.map Char.ofUInt8 = escape name := by
  induction name with
  | nil => exact ⟨[], by simp, rfl⟩
  | cons byte name ih =>
    obtain ⟨text, ascii, letters⟩ := ih
    cases special : plain byte with
    | true =>
      refine ⟨byte :: text, ?_, by rw [escape_cons, escapeByte_plain special, List.map_cons, letters]; rfl⟩
      simpa [special] using ascii
    | false =>
      have written (digit : Nat) (small : digit < 16) :
          Char.ofUInt8 (UInt8.ofNat (Nat.digitChar digit).toNat) = Nat.digitChar digit :=
        ofUInt8_ofNat _ ((by decide : ∀ digit < 16, (Nat.digitChar digit).toNat < 256) digit small)
      have high := written _ (high_lt byte)
      have low := written _ (low_lt byte)
      refine ⟨95 :: UInt8.ofNat (Nat.digitChar (byte.toNat / 16)).toNat ::
        UInt8.ofNat (Nat.digitChar (byte.toNat % 16)).toNat :: text, ?_, ?_⟩
      · intro letter member
        simp only [List.mem_cons] at member
        obtain rfl | rfl | rfl | member := member
        · rfl
        · exact plain_of_alphanum (by rw [high]; exact digitChar_alphanum _ (high_lt byte))
        · exact plain_of_alphanum (by rw [low]; exact digitChar_alphanum _ (low_lt byte))
        · exact ascii letter member
      · rw [escape_cons, escapeByte_special special, twoDigits, List.map_cons, List.map_cons, List.map_cons, high, low,
          letters]
        rfl

/-! ### Sanitised names -/

def sanitize (character : Char) : Char := if character.isAlphanum || character == '_' then character else '_'

theorem toList_sanitizeSymbol (name : String) : (sanitizeSymbol name).toList = name.toList.map sanitize := String.toList_map

variable {character : Char}

theorem sanitize_alphanum (alphanum : character.isAlphanum = true) : sanitize character = character := by
  simp [sanitize, alphanum]

theorem sanitize_other (other : character.isAlphanum = false) : sanitize character = '_' := by
  simp only [sanitize, other, Bool.false_or, beq_iff_eq]
  split <;> simp_all

/-- One character for another that is sanitised in the same way. -/
def Indistinct (character other : Char) : Prop :=
  character = other ∨ character.isAlphanum = false ∧ other.isAlphanum = false

theorem sanitize_eq_iff {character other : Char} : sanitize character = sanitize other ↔ Indistinct character other := by
  rcases first : character.isAlphanum with _ | _ <;> rcases second : other.isAlphanum with _ | _
  · simp [sanitize_other, first, second, Indistinct]
  · rw [sanitize_other first, sanitize_alphanum second, Indistinct]
    constructor
    · rintro rfl
      exact absurd second (by simp [underscore_not_alphanum])
    · rintro (rfl | ⟨-, alphanum⟩)
      · exact absurd second (by simp [first])
      · exact absurd second (by simp [alphanum])
  · rw [sanitize_alphanum first, sanitize_other second, Indistinct]
    constructor
    · rintro rfl
      exact absurd first (by simp [underscore_not_alphanum])
    · rintro (rfl | ⟨alphanum, -⟩)
      · exact absurd first (by simp [second])
      · exact absurd first (by simp [alphanum])
  · simp [sanitize_alphanum, first, second, Indistinct]

theorem map_sanitize_eq_iff {text other : List Char} :
    text.map sanitize = other.map sanitize ↔ List.Forall₂ Indistinct text other := by
  rw [← List.forall₂_eq_eq_eq, List.forall₂_map_left_iff, List.forall₂_map_right_iff]
  simp only [sanitize_eq_iff]

theorem sanitize_eq_alphanum {character letter : Char} (alphanum : letter.isAlphanum = true) :
    sanitize character = letter ↔ character = letter := by
  have same := @sanitize_eq_iff character letter
  rw [sanitize_alphanum alphanum, Indistinct, alphanum] at same
  simpa using same

theorem sanitize_eq_underscore : sanitize character = '_' ↔ character.isAlphanum = false := by
  have same := @sanitize_eq_iff character '_'
  rw [sanitize_other underscore_not_alphanum, Indistinct] at same
  refine same.trans ⟨?_, ?_⟩
  · rintro (rfl | ⟨other, -⟩)
    · exact underscore_not_alphanum
    · exact other
  · exact fun other => .inr ⟨other, underscore_not_alphanum⟩

/-- The name is escaped to what the text is sanitised to. -/
inductive Spells : List UInt8 → List Char → Prop
  | nil : Spells [] []
  | plain {byte : UInt8} {character : Char} {name : List UInt8} {text : List Char} : plain byte = true →
    Indistinct character (Char.ofUInt8 byte) → Spells name text → Spells (byte :: name) (character :: text)
  | special {byte : UInt8} {mark : Char} {name : List UInt8} {text : List Char} : plain byte = false →
    mark.isAlphanum = false → Spells name text → Spells (byte :: name) (mark :: (twoDigits byte ++ text))

theorem sanitize_plain (ascii : plain byte = true) : sanitize (Char.ofUInt8 byte) = Char.ofUInt8 byte := by
  obtain alphanum | underscore := (plain_iff byte).1 ascii
  · exact sanitize_alphanum alphanum
  · rw [underscore]
    rfl

theorem map_sanitize_alphanum {letters : List Char} (alphanum : ∀ letter ∈ letters, letter.isAlphanum = true) :
    letters.map sanitize = letters := by
  rw [List.map_congr_left fun letter member => sanitize_alphanum (alphanum letter member)]
  exact List.map_id letters

theorem map_sanitize_eq_append {text letters : List Char}
    (equal : text.map sanitize = letters ++ rest) (alphanum : ∀ letter ∈ letters, letter.isAlphanum = true) :
    ∃ tail, text = letters ++ tail ∧ tail.map sanitize = rest := by
  obtain ⟨front, tail, rfl, first, second⟩ := List.map_eq_append_iff.1 equal
  refine ⟨tail, ?_, second⟩
  rw [← map_sanitize_alphanum alphanum, map_sanitize_eq_iff] at first
  have same : front = letters := by
    clear equal
    induction first with
    | nil => rfl
    | cons alike _ ih =>
      have letter := alphanum _ List.mem_cons_self
      rw [ih fun letter member => alphanum letter (List.mem_cons_of_mem _ member)]
      rw [← sanitize_eq_iff, sanitize_alphanum letter, sanitize_eq_alphanum letter] at alike
      rw [alike]
  rw [same]

theorem escape_eq_map_sanitize_iff {text : List Char} :
    escape name = text.map sanitize ↔ Spells name text := by
  constructor
  · intro equal
    induction name generalizing text with
    | nil =>
      rw [escape_nil, eq_comm, List.map_eq_nil_iff] at equal
      exact equal ▸ .nil
    | cons byte name ih =>
      rw [escape_cons] at equal
      cases special : plain byte with
      | true =>
        rw [escapeByte_plain special, List.singleton_append, eq_comm, List.map_eq_cons_iff] at equal
        obtain ⟨character, tail, rfl, first, rest⟩ := equal
        rw [← sanitize_plain special, sanitize_eq_iff] at first
        exact .plain special first (ih rest.symm)
      | false =>
        rw [escapeByte_special special, List.cons_append, eq_comm, List.map_eq_cons_iff] at equal
        obtain ⟨mark, digits, rfl, first, rest⟩ := equal
        obtain ⟨tail, rfl, others⟩ := map_sanitize_eq_append rest twoDigits_alphanum
        exact .special special (sanitize_eq_underscore.1 first) (ih others.symm)
  · intro spells
    induction spells with
    | nil => rfl
    | plain ascii alike _ ih =>
      rw [escape_cons, escapeByte_plain ascii, ih, List.map_cons, sanitize_eq_iff.2 alike, sanitize_plain ascii]
      rfl
    | special special mark _ ih =>
      rw [escape_cons, escapeByte_special special, ih, List.map_cons, List.map_append, sanitize_other mark,
        map_sanitize_alphanum twoDigits_alphanum]
      rfl

end BasicNext.Native
