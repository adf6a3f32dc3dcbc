import BasicNext.Ir.Model
import BasicNext.Native.AlternativeValues

/-!
# Native equality of alternative types

`=` and `<>` with an operand of an alternative type: which pairs of types validation lets through
(`bn_llvm::binary_supported`), the comparison of tag and payload
(`bn_llvm::llvm::general_alternative_equality`) and that of pointers (`bn_llvm::llvm::binary`). A comparison is
refused, has no code because an assertion of the emitter fails, or reads a text where none lies.
-/

namespace BasicNext.Native

open Semantic (NumericClass World InhabitsNominal)
open Interp (Value ObjectHandle)

/-! ### Classes -/

section

variable (module : Ir.Module)

/-- `struct_owner` -/
def structOwner (ty : Ty) : Option String := do
  let owner ←
    match ty with
    | .named name => some name
    | .importedNamed module name => some ("#" ++ toString module ++ "." ++ name)
    | _ => none
  if (module.functionOfKind .default owner).isSome then some owner else none

def isStructType (ty : Ty) : Bool := (structOwner module ty).isSome

/-- `class_name`: of `Class OR NULL` too. -/
def className : Ty → Option String
  | .named name => some name
  | .importedNamed module name => some ("#" ++ toString module ++ "." ++ name)
  | .alternative members =>
    if members.length = 2 ∧ .null ∈ members then
      members.findSome? fun
        | .named name => some name
        | .importedNamed module name => some ("#" ++ toString module ++ "." ++ name)
        | _ => none
    else none
  | _ => none

def isClassType (ty : Ty) : Bool :=
  match className ty with
  | some name => !isStructType module ty && (module.functionOfKind .fieldInit name).isSome
  | none => false

end

/-! ### Memory -/

/-- What lies at the addresses of a program: a text, an object or a record, each in a place of its own, and the
regions of the pointers. -/
structure Heap (machine : Machine) where
  value : Address → Option Value
  region : ObjectHandle → Address × BitVec 32
  value_null : value 0 = none
  value_eof : value machine.eof = none
  identity : ∀ {first second handle name name'}, value first = some (.object handle name) →
    value second = some (.object handle name') → first = second
  region_injective : ∀ {first second}, region first = region second → first = second

namespace Heap

variable {machine : Machine} (heap : Heap machine)

/-- The text at an address; a `TIMEZONE` is its name, and `.bn_eof` is a text. -/
def text (address : Address) : Option String :=
  if address = machine.eof then some "EOF"
  else
    match heap.value address with
    | some (.string text) | some (.timeZone text) => some text
    | _ => none

/-- `bn_rt_str_eq`: one address is one text, and a null pointer is none. What is no text is not compared. -/
def strEq (left right : Address) : Option Bool :=
  if left = right then some true
  else if left = 0 ∨ right = 0 then some false
  else do
    let left ← heap.text left
    let right ← heap.text right
    some (left == right)

end Heap

/-! ### Numbers -/

/-- `fcmp oeq` -/
def equalDouble (left right : BitVec 64) : Bool :=
  !Special.nan.holdsDouble left && !Special.nan.holdsDouble right &&
    (left == right || (left.extractLsb' 0 63 == 0 && right.extractLsb' 0 63 == 0))

/-! ### Tag and payload -/

section

variable {machine : Machine} (heap : Heap machine)

/-- The comparison of the payloads of a member; the text on the left is only read when the tags agree. -/
def payloadsEqual (member : Ty) (same : Bool) : Operand → Operand → Emit (Option Bool)
  | .general _ left payload, .general _ right payload' =>
    if pointerMember member then .ok (some (left == right))
    else
      match member with
      | .string => .ok (heap.strEq (if same then left else right) right)
      | .float _ => .ok (some (equalDouble payload payload'))
      | .null | .notAvailable | .endOfFile => .ok (some same)
      | _ => .ok (some (payload == payload'))
  | _, _ => .error .illTyped

/-- `general_alternative::emit_equals` -/
def emitEquals (members : List Ty) (leftTy rightTy : Ty) (left right : Operand) : Emit (Option Bool) := do
  let left ← (if (generalAlternative leftTy).isSome then .ok left else wrap machine left leftTy members)
  let other ← wrap machine right rightTy members
  let member ← storedMember rightTy members
  let code ← tag member
  match left with
  | .general leftTag pointer payload =>
    let same := leftTag == code
    let equal ← payloadsEqual heap member same (.general leftTag pointer payload) other
    .ok (equal.map (same && ·))
  | _ => .error .illTyped

end

/-! ### Pairs of types -/

def isFloatingType (ty : LlvmType) : Bool := ty == .float || ty == .double

def isAlternativeType : Ty → Bool
  | .alternative _ => true
  | _ => false

/-- `binary_supported` of `=` and `<>`, whose result is a `BOOLEAN`. -/
def equalitySupported (left right : Ty) : Bool :=
  match llvmType left, llvmType right with
  | some leftType, some rightType =>
    if (comparableAlternative left).isSome != (comparableAlternative right).isSome then
      !(isAlternativeType left && isAlternativeType right)
    else
      leftType == rightType || (isIntegerType leftType && isIntegerType rightType)
        || (isFloatingType leftType && isFloatingType rightType)
        || ((integerUnionPayload left).isSome && isIntegerType rightType)
        || ((integerUnionPayload right).isSome && isIntegerType leftType)
  | _, _ => false

section

variable {machine : Machine} (module : Ir.Module) (heap : Heap machine)

/-- `emit_runtime_binary` of `=` for two alternative types, of which none is a number, a STRUCT or a vector. -/
def emitRuntimeEquals (leftTy rightTy : Ty) : Operand → Operand → Emit (Option Bool)
  | .vector left length, .vector right length' => .ok (some (length == length' && left == right))
  | .ptr left, .ptr right =>
    if isClassType module leftTy || isClassType module rightTy then .ok (some (left == right))
    else .ok (heap.strEq left right)
  | _, _ => .error .panic

/-- The emission of `=` for two alternative types. The members are those of the first type that is comparable; the
operands stay in their places. -/
def emitEquality (leftTy rightTy : Ty) (left right : Operand) : Emit (Option Bool) :=
  match (comparableAlternative leftTy).or (comparableAlternative rightTy) with
  | some members => emitEquals heap members leftTy rightTy left right
  | none => emitRuntimeEquals module heap leftTy rightTy left right

/-- What the native code of `=`, or of `<>`, answers; none when there is no code or no answer. -/
def nativeEquality (leftTy rightTy : Ty) (notEqual : Bool) (left right : Operand) : Option Bool :=
  if equalitySupported leftTy rightTy then
    match emitEquality module heap leftTy rightTy left right with
    | .ok answer => answer.map (notEqual ^^ ·)
    | .error _ => none
  else none

end

/-! ### Values in memory -/

section

mutual

/-- Whether a value is equal to itself: `NAN` is not, and what only modules compare is not. -/
def isReflexive : Value → Bool
  | .float number _ => number == number
  | .record _ fields => areReflexive fields
  | .vector elements => areReflexive elements
  | .resource kind _ => kind == .file || kind == .dataFrame
  | .type _ | .hostArgs => false
  | _ => true

def areReflexive : List Value → Bool
  | [] => true
  | value :: values => isReflexive value && areReflexive values

end

mutual

theorem equals_self (value : Value) : value.equals value = isReflexive value := by
  cases value with
  | record name fields =>
    rw [Value.equals, isReflexive, equalsAll_self, beq_self_eq_true, Bool.true_and]
  | vector elements => rw [Value.equals, isReflexive, equalsAll_self]
  | resource kind id => cases kind <;> simp [Value.equals, isReflexive]
  | type _ | hostArgs => rfl
  | _ => simp [Value.equals, isReflexive]

theorem equalsAll_self (values : List Value) : Value.equalsAll values values = areReflexive values := by
  cases values with
  | nil => rfl
  | cons value values => rw [Value.equalsAll, areReflexive, equals_self value, equalsAll_self values]

end

variable {machine : Machine}

def Shows (heap : Heap machine) : Value → Operand → Prop
  | .null, .ptr address => address = 0
  | .endOfFile, .ptr address => address = machine.eof
  | .null, .vector address length => address = 0 ∧ length = 0
  | .pointer handle _, .vector address length => heap.region handle = (address, length)
  | value, .ptr address => heap.value address = some value
  | _, _ => True

def textOf : Value → Option String
  | .string text | .timeZone text => some text
  | .endOfFile => some "EOF"
  | _ => none

/-- Two texts are compared as such; of what is no text there is only the place, or `NULL`. -/
def TextsAgree (left right : Operand) (value value' : Value) : Prop :=
  if left = right then isReflexive value = true
  else
    value = .null ∨ value' = .null ∨
      ∃ text text', textOf value = some text ∧ textOf value' = some text' ∧ (text = text' → value = value')

/-- When native code compares two values of alternative types as the interpreter does: both types are a pointer with
a sentinel, or both are a region. -/
def EqualityAgrees (module : Ir.Module) (members members' : List Ty) (left right : Operand) (value value' : Value) : Prop :=
  match AlternativeLayout.of members, AlternativeLayout.of members' with
  | some .sentinel, some .sentinel =>
    isClassType module (.alternative members) = true ∨ isClassType module (.alternative members') = true ∨
      TextsAgree left right value value'
  | some .region, some .region => True
  | _, _ => False

/-- What has a field initialiser is a class, and its values are objects. -/
def KeepsObjects (module : Ir.Module) (world : World) : Prop :=
  ∀ nominal value, (module.functionOfKind .fieldInit nominal.identity).isSome = true →
    InhabitsNominal world value nominal → ∃ handle name, value = .object handle name

end

/-! ### What has no code -/

section

variable {machine : Machine} {module : Ir.Module} {heap : Heap machine} {members members' : List Ty} {left right : Operand}

theorem comparableAlternative_isSome : (comparableAlternative (.alternative members)).isSome = true ↔
      AlternativeLayout.of members = some .general ∨ AlternativeLayout.of members = some .status := by
  rw [comparableAlternative]
  split_ifs with known
  · exact iff_of_true rfl known
  · exact iff_of_false (by simp) known

theorem emitEquals_alternative (leftTy : Ty) {answer : Option Bool} :
    emitEquals heap members leftTy (.alternative members') left right ≠ .ok answer := by
  intro emitted
  simp only [emitEquals, Lib.bind_eq_ok] at emitted
  obtain ⟨_, -, _, -, member, stored, code, tagged, -⟩ := emitted
  rw [storedMember] at stored
  cases stored
  cases tagged

theorem nativeEquality_comparable {notEqual : Bool}
    (comparable : (comparableAlternative (.alternative members)).isSome = true ∨
      (comparableAlternative (.alternative members')).isSome = true) :
    nativeEquality module heap (.alternative members) (.alternative members') notEqual left right = none := by
  rw [nativeEquality]
  split_ifs with supported
  · have both : (comparableAlternative (.alternative members)).isSome = true := by
      by_contra none_
      rw [Bool.not_eq_true] at none_
      have other := comparable.resolve_left (by rw [none_]; exact Bool.false_ne_true)
      rw [equalitySupported] at supported
      split at supported
      · rw [none_, other] at supported
        cases supported
      · cases supported
    obtain ⟨options, found⟩ := Option.isSome_iff_exists.1 both
    have same : emitEquality module heap (.alternative members) (.alternative members') left right =
        emitEquals heap options (.alternative members) (.alternative members') left right := by
      rw [emitEquality, found, Option.some_or]
    rw [same]
    cases emitted : emitEquals heap options (.alternative members) (.alternative members') left right with
    | error refusal => rfl
    | ok answer => exact absurd emitted (emitEquals_alternative _)
  · rfl

theorem nativeEquality_runtime {layout layout' : AlternativeLayout} {notEqual : Bool}
    (found : AlternativeLayout.of members = some layout) (found' : AlternativeLayout.of members' = some layout')
    (plain : layout ≠ .general ∧ layout ≠ .status) (plain' : layout' ≠ .general ∧ layout' ≠ .status) :
    nativeEquality module heap (.alternative members) (.alternative members') notEqual left right =
      if layout.llvm = layout'.llvm then
        match emitRuntimeEquals module heap (.alternative members) (.alternative members') left right with
        | .ok answer => answer.map (notEqual ^^ ·)
        | .error _ => none
      else none := by
  have none_ : comparableAlternative (.alternative members) = none := by
    rw [comparableAlternative, if_neg]
    rintro (same | same) <;> rw [found, Option.some.injEq] at same
    · exact plain.1 same
    · exact plain.2 same
  have none_' : comparableAlternative (.alternative members') = none := by
    rw [comparableAlternative, if_neg]
    rintro (same | same) <;> rw [found', Option.some.injEq] at same
    · exact plain'.1 same
    · exact plain'.2 same
  have supported : equalitySupported (.alternative members) (.alternative members') = decide (layout.llvm = layout'.llvm) := by
    rw [equalitySupported, llvmType_alternative, llvmType_alternative, found, found', none_, none_']
    cases layout <;> cases layout' <;> simp [AlternativeLayout.llvm, isIntegerType, isFloatingType]
  have emitted : emitEquality module heap (.alternative members) (.alternative members') left right =
      emitRuntimeEquals module heap (.alternative members) (.alternative members') left right := by
    rw [emitEquality, none_, none_', Option.none_or]
  rw [nativeEquality, supported, emitted]
  by_cases same : layout.llvm = layout'.llvm
  · rw [if_pos same, if_pos (decide_eq_true same)]
  · rw [if_neg same, if_neg (by simpa using same)]

end

/-! ### Pointers -/

section

variable {machine : Machine} {module : Ir.Module} {heap : Heap machine} {value value' : Value} {left right : Address}

theorem shows_ptr (shows_ : Shows heap value (.ptr left)) :
    value = .null ∧ left = 0 ∨ value = .endOfFile ∧ left = machine.eof ∨
      value ≠ .null ∧ value ≠ .endOfFile ∧ heap.value left = some value := by
  cases value with
  | null => exact .inl ⟨rfl, shows_⟩
  | endOfFile => exact .inr (.inl ⟨rfl, shows_⟩)
  | _ => exact .inr (.inr ⟨by simp, by simp, shows_⟩)

theorem ne_zero_of_shows (shows_ : Shows heap value (.ptr left)) (other : value ≠ .null) : left ≠ 0 := by
  rintro rfl
  rcases shows_ptr shows_ with ⟨same, -⟩ | ⟨-, same⟩ | ⟨-, -, found⟩
  · exact other same
  · exact machine.eof_ne_zero same.symm
  · rw [heap.value_null] at found
    cases found

theorem text_of_shows (shows_ : Shows heap value (.ptr left)) (other : value ≠ .null) : heap.text left = textOf value := by
  rcases shows_ptr shows_ with ⟨same, -⟩ | ⟨rfl, rfl⟩ | ⟨-, noEof, found⟩
  · exact absurd same other
  · exact if_pos rfl
  · have apart : left ≠ machine.eof := by
      rintro rfl
      rw [heap.value_eof] at found
      cases found
    rw [Heap.text, if_neg apart, found]
    cases value <;> first | rfl | exact absurd rfl noEof

theorem value_unique (shows_ : Shows heap value (.ptr left)) (shows' : Shows heap value' (.ptr left)) : value = value' := by
  rcases shows_ptr shows_ with ⟨rfl, rfl⟩ | ⟨rfl, rfl⟩ | ⟨noNull, noEof, found⟩
  · by_contra other
    exact ne_zero_of_shows shows' (Ne.symm other) rfl
  · rcases shows_ptr shows' with ⟨-, same⟩ | ⟨rfl, -⟩ | ⟨-, -, found⟩
    · exact absurd same machine.eof_ne_zero
    · rfl
    · rw [heap.value_eof] at found
      cases found
  · rcases shows_ptr shows' with ⟨-, rfl⟩ | ⟨-, rfl⟩ | ⟨-, -, found'⟩
    · exact absurd rfl (ne_zero_of_shows shows_ noNull)
    · rw [heap.value_eof] at found
      cases found
    · exact Option.some.inj (found.symm.trans found')

theorem equals_null (other : value ≠ .null) : Value.equals .null value = false ∧ value.equals .null = false := by
  cases value <;> first | exact absurd rfl other | exact ⟨rfl, rfl⟩ | skip
  rename_i kind id
  cases kind <;> exact ⟨rfl, rfl⟩

theorem equals_text {text : String} (found : textOf value = some text) : value.equals value' = true ↔ value = value' := by
  cases value with
  | string _ | timeZone _ | endOfFile => cases value' <;> simp [Value.equals]
  | _ => cases found

theorem strEq_iff (first : Shows heap value (.ptr left)) (second : Shows heap value' (.ptr right)) :
    heap.strEq left right = some (value.equals value') ↔ TextsAgree (.ptr left) (.ptr right) value value' := by
  by_cases same : left = right
  · subst same
    obtain rfl := value_unique first second
    rw [Heap.strEq, if_pos rfl, TextsAgree, if_pos rfl, equals_self, Option.some.injEq, eq_comm]
  · have apart : Operand.ptr left ≠ .ptr right := fun equal => same (Operand.ptr.inj equal)
    rw [TextsAgree, if_neg apart, Heap.strEq, if_neg same]
    by_cases isNull : value = .null
    · subst isNull
      have other : value' ≠ .null := by
        rintro rfl
        exact same (Eq.trans first (Eq.symm second))
      rw [if_pos (.inl first), (equals_null other).1]
      exact iff_of_true rfl (.inl rfl)
    · by_cases isNull' : value' = .null
      · subst isNull'
        rw [if_pos (.inr second), (equals_null isNull).2]
        exact iff_of_true rfl (.inr (.inl rfl))
      · rw [if_neg (not_or.2 ⟨ne_zero_of_shows first isNull, ne_zero_of_shows second isNull'⟩), text_of_shows first isNull,
          text_of_shows second isNull', or_iff_right isNull, or_iff_right isNull']
        cases found : textOf value with
        | none => exact iff_of_false (by simp) (by simp)
        | some text =>
          cases found' : textOf value' with
          | none => exact iff_of_false (by simp) (by simp)
          | some text' =>
            show some (text == text') = some (value.equals value') ↔ _
            rw [Option.some.injEq, Bool.eq_iff_iff, beq_iff_eq, equals_text found]
            constructor
            · exact fun agrees => ⟨text, text', rfl, rfl, agrees.1⟩
            · rintro ⟨_, _, equal, equal', agrees⟩
              cases equal
              cases equal'
              refine ⟨agrees, fun equal => ?_⟩
              rw [equal, found', Option.some.injEq] at found
              exact found.symm

/-- An object or `NULL`. -/
def IsObject (value : Value) : Prop := value = .null ∨ ∃ handle name, value = .object handle name

theorem equals_object (isObject : IsObject value) (first : Shows heap value (.ptr left))
    (second : Shows heap value' (.ptr right)) : value.equals value' = (left == right) := by
  rw [Bool.eq_iff_iff, beq_iff_eq]
  constructor
  · intro equal
    rcases isObject with rfl | ⟨handle, name, rfl⟩
    · by_contra differ
      have other : value' ≠ .null := by
        rintro rfl
        exact differ (Eq.trans first (Eq.symm second))
      rw [(equals_null other).1] at equal
      cases equal
    · cases value' with
      | object handle' name' =>
        rw [Value.equals, beq_iff_eq] at equal
        subst equal
        exact heap.identity first second
      | _ => cases equal
  · rintro rfl
    obtain rfl := value_unique first second
    rw [equals_self]
    rcases isObject with rfl | ⟨handle, name, rfl⟩ <;> rfl

theorem equals_object_comm (isObject : IsObject value') : value.equals value' = value'.equals value := by
  rcases isObject with rfl | ⟨handle, name, rfl⟩
  · by_cases isNull : value = .null
    · rw [isNull]
    · rw [(equals_null isNull).1, (equals_null isNull).2]
  · cases value with
    | object handle' name' =>
      rw [Value.equals, Value.equals]
      exact BEq.comm
    | resource kind id => cases kind <;> rfl
    | _ => rfl

end

/-! ### Two alternative types -/

section

variable {world : World} {machine : FloatMachine} {module : Ir.Module} {heap : Heap machine.toMachine}
  {members members' : List Ty} {member member' : Ty} {value value' : Value} {operand operand' left right : Operand}

theorem isObject_of_class (keeps : KeepsObjects module world) (found : AlternativeLayout.of members = some .sentinel)
    (isClass : isClassType module (.alternative members) = true) (within : member ∈ members)
    (canonical : IsCanonical world member) (inhabits : Semantic.Inhabits world value member) : IsObject value := by
  rw [isClassType] at isClass
  rw [className] at isClass
  split_ifs at isClass with shape
  · cases named : members.findSome? fun
        | .named name => some name
        | .importedNamed module name => some ("#" ++ toString module ++ "." ++ name)
        | _ => none with
    | none =>
      simp only [named] at isClass
      cases isClass
    | some name =>
      simp only [named, Bool.and_eq_true] at isClass
      obtain ⟨ty, ty_mem, spelled⟩ := List.exists_of_findSome?_eq_some named
      rcases sentinel_form found with ⟨-, -, cover⟩ | ⟨nominal, -, isNominal_, -, -, cover⟩
      · rcases cover _ shape.2 with same | same <;> cases same
      · rcases cover member within with rfl | rfl
        · exact .inl inhabits
        · have same : ty = member := by
            refine (cover ty ty_mem).resolve_left ?_
            rintro rfl
            cases spelled
          subst same
          cases ty with
          | named plain =>
            rw [← Option.some.inj spelled] at isClass
            have known : InhabitsNominal world value (world.nominal plain) := inhabits
            rw [(canonical.named plain rfl).1] at known
            exact .inr (keeps ⟨none, plain⟩ value isClass.2 known)
          | importedNamed owner plain =>
            rw [← Option.some.inj spelled] at isClass
            exact .inr (keeps ⟨some owner, plain⟩ value isClass.2 inhabits)
          | _ => cases isNominal_

theorem held_type {layout : AlternativeLayout} (found : AlternativeLayout.of members = some layout) (other : layout ≠ .general)
    (alternative : IsAlternative members) (holds : HoldsValue world machine members member value operand left) :
    left.type = layout.llvm := represent_type (held_form found other alternative holds)

/-- The comparison of two alternative types, in the order of the operands. -/
structure Compared (world : World) (machine : FloatMachine) (module : Ir.Module) (heap : Heap machine.toMachine)
    (members : List Ty) (member : Ty) (value : Value) (operand left : Operand) : Prop where
  alternative : IsAlternative members
  canonical : ∀ ty ∈ members, IsCanonical world ty
  holds : HoldsValue world machine members member value operand left
  shows_ : Shows heap value left

theorem pointers_agree {notEqual : Bool} (keeps : KeepsObjects module world) (found : AlternativeLayout.of members = some .sentinel)
    (found' : AlternativeLayout.of members' = some .sentinel)
    (first : Compared world machine module heap members member value operand left)
    (second : Compared world machine module heap members' member' value' operand' right) :
    nativeEquality module heap (.alternative members) (.alternative members') notEqual left right =
        some (notEqual ^^ value.equals value') ↔
      (isClassType module (.alternative members) = true ∨ isClassType module (.alternative members') = true ∨
        TextsAgree left right value value') := by
  obtain ⟨address, rfl, -⟩ := held_pointer found first.alternative first.holds (first.canonical member first.holds.within)
  obtain ⟨address', rfl, -⟩ := held_pointer found' second.alternative second.holds (second.canonical member' second.holds.within)
  rw [nativeEquality_runtime found found' ⟨by decide, by decide⟩ ⟨by decide, by decide⟩, if_pos rfl]
  by_cases isClass : (isClassType module (.alternative members) || isClassType module (.alternative members')) = true
  · have emitted : emitRuntimeEquals module heap (.alternative members) (.alternative members') (.ptr address) (.ptr address') =
        .ok (some (address == address')) := if_pos isClass
    rw [emitted]
    rw [Bool.or_eq_true] at isClass
    refine iff_of_true ?_ (isClass.imp id .inl)
    show some (notEqual ^^ (address == address')) = _
    rcases isClass with isClass | isClass
    · rw [equals_object (isObject_of_class keeps found isClass first.holds.within (first.canonical _ first.holds.within)
        first.holds.represents.inhabits) first.shows_ second.shows_]
    · have isObject := isObject_of_class keeps found' isClass second.holds.within (second.canonical _ second.holds.within)
        second.holds.represents.inhabits
      rw [equals_object_comm isObject, equals_object isObject second.shows_ first.shows_]
      rw [show (address == address') = (address' == address) from BEq.comm]
  · have emitted : emitRuntimeEquals module heap (.alternative members) (.alternative members') (.ptr address) (.ptr address') =
        .ok (heap.strEq address address') := if_neg isClass
    rw [emitted]
    rw [Bool.or_eq_true, not_or] at isClass
    rw [or_iff_right isClass.1, or_iff_right isClass.2, ← strEq_iff first.shows_ second.shows_]
    show (heap.strEq address address').map (notEqual ^^ ·) = some (notEqual ^^ value.equals value') ↔ _
    cases heap.strEq address address' with
    | none => exact iff_of_false (by simp) (by simp)
    | some answer =>
      rw [Option.map_some, Option.some.injEq, Option.some.injEq]
      cases notEqual <;> cases answer <;> cases value.equals value' <;> decide

theorem regions_agree {notEqual : Bool} (found : AlternativeLayout.of members = some .region)
    (found' : AlternativeLayout.of members' = some .region)
    (first : Compared world machine module heap members member value operand left)
    (second : Compared world machine module heap members' member' value' operand' right) :
    nativeEquality module heap (.alternative members) (.alternative members') notEqual left right =
      some (notEqual ^^ value.equals value') := by
  have pointer {members : List Ty} {member : Ty} {value : Value} {operand left : Operand}
      (found : AlternativeLayout.of members = some .region)
      (first : Compared world machine module heap members member value operand left) :
      ∃ address length, left = .vector address length ∧ (value = .null ∧ address = 0 ∧ length = 0 ∨
          ∃ handle code, value = .pointer handle code ∧ address ≠ 0 ∧ heap.region handle = (address, length)) := by
    obtain ⟨address, length, rfl, isNull⟩ := held_region found first.alternative first.holds
    refine ⟨address, length, rfl, ?_⟩
    have inhabits := first.holds.represents.inhabits
    have shows_ := first.shows_
    rcases region_form found member first.holds.within with rfl | isPointer_
    · obtain rfl := inhabits
      exact .inl ⟨rfl, shows_⟩
    · cases member with
      | pointer element declared =>
        obtain ⟨handle, code, rfl, -⟩ := inhabits
        have some_ : address ≠ 0 := by
          intro same
          cases isNull.1 same
        exact .inr ⟨handle, code, rfl, some_, shows_⟩
      | _ => cases isPointer_
  obtain ⟨address, length, rfl, place⟩ := pointer found first
  obtain ⟨address', length', rfl, place'⟩ := pointer found' second
  rw [nativeEquality_runtime found found' ⟨by decide, by decide⟩ ⟨by decide, by decide⟩, if_pos rfl]
  show some (notEqual ^^ (length == length' && address == address')) = _
  congr 2
  rcases place with ⟨rfl, rfl, rfl⟩ | ⟨handle, code, rfl, some_, region⟩
  · rcases place' with ⟨rfl, rfl, rfl⟩ | ⟨handle', code', rfl, some_', region'⟩
    · rfl
    · rw [beq_eq_false_iff_ne.2 (Ne.symm some_'), Bool.and_false]
      rfl
  · rcases place' with ⟨rfl, rfl, rfl⟩ | ⟨handle', code', rfl, some_', region'⟩
    · rw [beq_eq_false_iff_ne.2 some_, Bool.and_false]
      rfl
    · rw [Value.equals, Bool.eq_iff_iff, Bool.and_eq_true, beq_iff_eq, beq_iff_eq, beq_iff_eq]
      constructor
      · rintro ⟨rfl, rfl⟩
        exact heap.region_injective (region.trans region'.symm)
      · rintro rfl
        rw [region, Prod.mk.injEq] at region'
        exact ⟨region'.2, region'.1⟩

/-- `=` and `<>` of two alternative types answer as in the interpreter, exactly for pointers with a sentinel that are
no two texts of one spelling, and for regions. -/
theorem equality_iff {notEqual : Bool} (keeps : KeepsObjects module world)
    (first : Compared world machine module heap members member value operand left)
    (second : Compared world machine module heap members' member' value' operand' right) :
    nativeEquality module heap (.alternative members) (.alternative members') notEqual left right =
        some (notEqual ^^ value.equals value') ↔ EqualityAgrees module members members' left right value value' := by
  have noTag (comparable : (comparableAlternative (.alternative members)).isSome = true ∨
      (comparableAlternative (.alternative members')).isSome = true) :
      nativeEquality module heap (.alternative members) (.alternative members') notEqual left right ≠
        some (notEqual ^^ value.equals value') := by
    rw [nativeEquality_comparable comparable]
    simp
  rw [EqualityAgrees]
  cases found : AlternativeLayout.of members with
  | none => exact absurd found (layout_of_holds first.holds)
  | some layout =>
    cases found' : AlternativeLayout.of members' with
    | none => exact absurd found' (layout_of_holds second.holds)
    | some layout' =>
      by_cases plain : layout ≠ .general ∧ layout ≠ .status
      · by_cases plain' : layout' ≠ .general ∧ layout' ≠ .status
        · by_cases same : layout.llvm = layout'.llvm
          · have one : layout = layout' := by cases layout <;> cases layout' <;> first | rfl | cases same
            subst one
            cases layout with
            | general => exact absurd rfl plain.1
            | status => exact absurd rfl plain.2
            | sentinel => exact pointers_agree keeps found found' first second
            | region => exact iff_of_true (regions_agree found found' first second) trivial
            | statusPointer =>
              have typed := held_type found (by decide) first.alternative first.holds
              rw [nativeEquality_runtime found found' plain plain', if_pos rfl]
              refine iff_of_false ?_ id
              cases left <;> first | (cases typed; done) | (intro known; cases known)
            | statusEndpoint =>
              have typed := held_type found (by decide) first.alternative first.holds
              rw [nativeEquality_runtime found found' plain plain', if_pos rfl]
              refine iff_of_false ?_ id
              cases left <;> first | (cases typed; done) | (intro known; cases known)
          · rw [nativeEquality_runtime found found' plain plain', if_neg same]
            refine iff_of_false (by simp) ?_
            cases layout <;> cases layout' <;> first | exact id | exact absurd rfl same
        · have known : AlternativeLayout.of members' = some .general ∨ AlternativeLayout.of members' = some .status := by
            rw [found']
            cases layout' <;> simp_all
          refine iff_of_false (noTag (.inr (comparableAlternative_isSome.2 known))) ?_
          cases layout <;> cases layout' <;> first | exact id | (exact absurd (by decide) plain')
      · have known : AlternativeLayout.of members = some .general ∨ AlternativeLayout.of members = some .status := by
          rw [found]
          cases layout <;> simp_all
        refine iff_of_false (noTag (.inl (comparableAlternative_isSome.2 known))) ?_
        cases layout <;> cases layout' <;> first | exact id | (exact absurd (by decide) plain)

/-! ### A text and the end of a file -/

/-- A text at one address; a pointer lies where its handle says. -/
def textHeap (text : String) : Heap floatMachine.toMachine where
  value address := if address = 48 then some (.string text) else none
  region handle := (BitVec.ofNat 64 handle.slot.toNat, BitVec.ofNat 32 handle.generation.toNat)
  value_null := if_neg (by decide)
  value_eof := if_neg (by decide)
  identity found _ := by
    split_ifs at found
    cases found
  region_injective {first second} same := by
    rw [Prod.mk.injEq] at same
    have slots := congrArg BitVec.toNat same.1
    have generations := congrArg BitVec.toNat same.2
    rw [BitVec.toNat_ofNat, BitVec.toNat_ofNat, Nat.mod_eq_of_lt (first.slot.toNat_lt.trans (by decide)),
      Nat.mod_eq_of_lt (second.slot.toNat_lt.trans (by decide))] at slots
    rw [BitVec.toNat_ofNat, BitVec.toNat_ofNat, Nat.mod_eq_of_lt first.generation.toNat_lt,
      Nat.mod_eq_of_lt second.generation.toNat_lt] at generations
    cases first
    cases second
    rw [ObjectHandle.mk.injEq]
    exact ⟨UInt32.toNat_inj.1 slots, UInt32.toNat_inj.1 generations⟩

theorem canonical_textOrEof (ty : Ty) (within : ty ∈ [Ty.string, .endOfFile]) : IsCanonical {} ty := by
  rcases List.mem_pair.1 within with rfl | rfl <;> exact isCanonical_plain (by simp) rfl (by simp)

theorem alternative_textOrEof : IsAlternative [.string, .endOfFile] := ⟨by decide, by decide, by simp [NumericClass.ofLiteral]⟩

theorem compared_text (module : Ir.Module) (text : String) :
    Compared {} floatMachine module (textHeap text) [.string, .endOfFile] .string (.string text) (.ptr 48) (.ptr 48) :=
  ⟨alternative_textOrEof, canonical_textOrEof,
    ⟨by simp, ⟨⟨text, rfl⟩, ⟨rfl, by decide⟩, trivial⟩, ⟨.ptr 48, by decide, .inl rfl⟩⟩, rfl⟩

theorem compared_eof (module : Ir.Module) (heap : Heap floatMachine.toMachine) :
    Compared {} floatMachine module heap [.string, .endOfFile] .endOfFile .endOfFile (.ptr 32) (.ptr 32) :=
  ⟨alternative_textOrEof, canonical_textOrEof, ⟨by simp, ⟨rfl, ⟨rfl, rfl⟩, trivial⟩, ⟨.ptr 32, by decide, .inl rfl⟩⟩, rfl⟩

theorem keepsObjects_empty (world : World) : KeepsObjects {} world := by
  intro nominal value isSome
  cases isSome

/-- Another text is not the end of a file. -/
theorem text_equality :
    nativeEquality {} (textHeap "A") (.alternative [.string, .endOfFile]) (.alternative [.string, .endOfFile]) true
      (.ptr 48) (.ptr 32) = some (true ^^ (Value.string "A").equals .endOfFile) :=
  (equality_iff (keepsObjects_empty {}) (compared_text {} "A") (compared_eof {} (textHeap "A"))).2
    (.inr (.inr (.inr (.inr ⟨"A", "EOF", rfl, rfl, fun same => absurd same (by decide)⟩))))

/-- The text `EOF` is natively the end of a file, and two values of `INTEGER OR STRING` are not compared. -/
theorem text_is_eof :
    (Compared {} floatMachine {} (textHeap "EOF") [.string, .endOfFile] .string (.string "EOF") (.ptr 48) (.ptr 48) ∧
      Compared {} floatMachine {} (textHeap "EOF") [.string, .endOfFile] .endOfFile .endOfFile (.ptr 32) (.ptr 32) ∧
      nativeEquality {} (textHeap "EOF") (.alternative [.string, .endOfFile]) (.alternative [.string, .endOfFile]) false
        (.ptr 48) (.ptr 32) = some true ∧
      (Value.string "EOF").equals .endOfFile = false) ∧
    ∀ left right, nativeEquality {} (textHeap "EOF") (.alternative [.integer .int32, .string])
      (.alternative [.integer .int32, .string]) false left right = none :=
  ⟨⟨compared_text {} "EOF", compared_eof {} _, by decide, rfl⟩, fun _ _ => nativeEquality_comparable (.inl (by decide))⟩

end

end BasicNext.Native
