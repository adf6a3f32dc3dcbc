import BasicNext.Native.AlternativeForms
import BasicNext.Lib.Except

/-!
# Conversions between alternative types

What a value of a member becomes in an alternative type, whether it is read back, and whether a wider type
takes the value as it would take that of the member.
-/

namespace BasicNext.Native

open Lib.Llvm (zext sext trunc)
open Semantic (NumericClass)

/-- The alternative types that the analyzer admits: distinct members, no literals and no alternatives. -/
structure IsAlternative (members : List Ty) : Prop where
  several : 2 ≤ members.length
  nodup : members.Nodup
  plain : ∀ ty ∈ members, NumericClass.ofLiteral ty = none ∧ ∀ options, ty ≠ .alternative options

section

variable {machine : Machine} {members : List Ty} {member : Ty} {operand : Operand}

/-! ### Types of members -/

@[simp]
theorem expect_some {α : Type} (value : α) : expect (some value) = .ok value := rfl

@[simp]
theorem ok_bind {α β : Type} (value : α) (next : α → Emit β) : (Except.ok value >>= next) = next value := rfl

theorem generalAlternative_plain (plain : ∀ options, member ≠ .alternative options) : generalAlternative member = none := by
  cases member with
  | alternative options => exact absurd rfl (plain options)
  | _ => rfl

theorem llvmType_plain (plain : ∀ options, member ≠ .alternative options) :
    llvmType member ≠ some .general ∧ llvmType member ≠ some .statusEndpoint := by
  cases member with
  | alternative options => exact absurd rfl (plain options)
  | integer kind => cases kind <;> simp [llvmType]
  | float kind => cases kind <;> simp [llvmType]
  | named name =>
    rw [llvmType, namedType]
    split_ifs <;> simp
  | importedNamed module name =>
    rw [llvmType, importedType]
    split_ifs <;> simp
  | importedTypeName module name =>
    rw [llvmType]
    split_ifs <;> simp
  | vector element dimensions =>
    rw [llvmType]
    split_ifs <;> simp
  | pointer element length =>
    rw [llvmType]
    split_ifs <;> simp
  | _ => simp [llvmType]

/-! ### The form of a value -/

section

variable (machine)

/-- The form that a layout gives to a value of a member. -/
def represent (layout : AlternativeLayout) (member : Ty) (operand : Operand) : Emit Operand :=
  match layout with
  | .general => do
    let (pointer, payload) ← wrapFields machine member operand
    let code ← tag member
    pure (.general code pointer payload)
  | .status =>
    if operand.type = .handleResult then .ok operand
    else if member = .notAvailable then .ok (.handleResult false machine.na 0)
    else if member = .endOfFile then .ok (.handleResult false machine.eof 0)
    else if isScalarType operand.type ∨ operand.type = .ptr then wrapSuccess machine operand member
    else .error .illTyped
  | .sentinel =>
    match operand with
    | .ptr address => .ok (.ptr address)
    | .handleResult _ pointer payload => .ok (.ptr (if isIntegerHandleType member then payload else pointer))
    | _ => .error .illTyped
  | .statusPointer =>
    match operand with
    | .statusPointer error pointer => .ok (.statusPointer error pointer)
    | .handleResult _ record _ => if isErrorType member then .ok (.statusPointer true record) else .error .illTyped
    | _ => .error .illTyped
  | .statusEndpoint =>
    match operand with
    | .handleResult _ record _ => if isErrorType member then .ok (.statusEndpoint true record 0) else .error .illTyped
    | _ => .error .illTyped
  | .region =>
    if member = .null then .ok (.vector 0 0)
    else
      match operand with
      | .vector pointer length => .ok (.vector pointer length)
      | _ => .error .illTyped

end

theorem wrap_plain (plain : ∀ options, member ≠ .alternative options) :
    wrap machine operand member members = (do
      let member ← storedMember member members
      let (pointer, payload) ← wrapFields machine member operand
      let code ← tag (if member = .string ∧ .endOfFile ∈ members ∧ pointer = machine.eof then .endOfFile else member)
      pure (.general code pointer payload)) := by
  rw [wrap.eq_def, generalAlternative_plain plain]
  cases member with
  | alternative options => exact absurd rfl (plain options)
  | _ => rfl

theorem coerceOperand_construct {source target : Ty} {sourceType targetType : LlvmType}
    (first : llvmType source = some sourceType) (second : llvmType target = some targetType) (differ : sourceType ≠ targetType)
    (kept : ¬(sourceType = .handleResult ∧
      (targetType = .ptr ∨ isIntegerType targetType ∨ targetType = .float ∨ targetType = .double))) :
    coerceOperand machine source target operand = (construct machine operand source target).bind fun
      | some constructed => .ok constructed
      | none => coercePlain machine source target sourceType targetType operand := by
  rw [coerceOperand, first, second, expect_some, expect_some, ok_bind, ok_bind, if_neg differ, if_neg kept]
  rfl

theorem coerceOperand_same {source target : Ty} {ty : LlvmType} (first : llvmType source = some ty)
    (second : llvmType target = some ty) : coerceOperand machine source target operand = .ok operand := by
  rw [coerceOperand, first, second, expect_some, ok_bind, ok_bind, if_pos rfl]

theorem wrapSuccess_type {source : Ty} {form : Operand} (wrapped : wrapSuccess machine operand source = .ok form) :
    form.type = .handleResult := by
  cases operand with
  | ptr address =>
    rw [wrapSuccess] at wrapped
    split_ifs at wrapped <;> cases wrapped <;> rfl
  | i1 bit | i8 bits | i16 bits | i32 bits | i64 bits | float bits | double bits =>
    cases wrapped
    rfl
  | _ => cases wrapped

theorem represent_type {layout : AlternativeLayout} {form : Operand}
    (represented : represent machine layout member operand = .ok form) : form.type = layout.llvm := by
  cases layout with
  | general =>
    rw [represent, Lib.bind_eq_ok] at represented
    obtain ⟨⟨pointer, payload⟩, -, represented⟩ := represented
    rw [Lib.bind_eq_ok] at represented
    obtain ⟨code, -, represented⟩ := represented
    cases represented
    rfl
  | status =>
    rw [represent] at represented
    split_ifs at represented with same na eof scalar
    · cases represented
      exact same
    · cases represented
      rfl
    · cases represented
      rfl
    · exact wrapSuccess_type represented
  | sentinel =>
    cases operand with
    | ptr address | handleResult error pointer payload =>
      cases represented
      rfl
    | _ => cases represented
  | statusPointer =>
    cases operand with
    | statusPointer error pointer =>
      cases represented
      rfl
    | handleResult error record code =>
      rw [represent] at represented
      split_ifs at represented
      cases represented
      rfl
    | _ => cases represented
  | statusEndpoint =>
    cases operand with
    | handleResult error record code =>
      rw [represent] at represented
      split_ifs at represented
      cases represented
      rfl
    | _ => cases represented
  | region =>
    rw [represent.eq_def] at represented
    by_cases isNull : member = .null
    · rw [if_pos isNull] at represented
      cases represented
      rfl
    · rw [if_neg isNull] at represented
      cases operand with
      | vector pointer length =>
        cases represented
        rfl
      | _ => cases represented

theorem stored_of_coerced {source target : Ty} {ty : LlvmType} {emitted : Emit Operand} (second : llvmType target = some ty)
    (coerced : coerceOperand machine source target operand = emitted) (typed : ∀ form, emitted = .ok form → form.type = ty) :
    stored machine source target operand = emitted := by
  rw [stored, coerced]
  cases emitted with
  | error refusal => rfl
  | ok form => rw [ok_bind, second, typed form rfl, if_pos rfl]

theorem stored_general (layout : AlternativeLayout.of members = some .general)
    (plain : NumericClass.ofLiteral member = none ∧ ∀ options, member ≠ .alternative options)
    (holds : Holds machine member operand) :
    stored machine member (.alternative members) operand = represent machine .general member operand := by
  have target : llvmType (.alternative members) = some .general := by rw [llvmType_alternative, layout]; rfl
  have differ : operand.type ≠ .general := by
    have differ := (llvmType_plain plain.2).1
    rw [holds.1] at differ
    simpa using differ
  have wrapped : wrap machine operand member members = represent machine .general member operand := by
    rw [wrap_plain plain.2, storedMember, plain.1, ok_bind, represent]
    cases fields : wrapFields machine member operand with
    | error refusal => rfl
    | ok pair =>
      obtain ⟨pointer, payload⟩ := pair
      simp only [ok_bind]
      rw [if_neg]
      rintro ⟨rfl, -, sentinel⟩
      rw [wrapFields.eq_def, if_pos (.inl rfl)] at fields
      cases operand with
      | ptr address =>
        cases fields
        exact holds.2.2.2 sentinel
      | _ => cases fields
  have coerced : coerceOperand machine member (.alternative members) operand = represent machine .general member operand := by
    rw [coerceOperand_construct holds.1 target differ (by simp [isIntegerType])]
    simp only [construct, layout, wrapped]
    cases represent machine .general member operand with
    | error refusal => rfl
    | ok form => rfl
  exact stored_of_coerced target coerced fun form represented => represent_type represented

theorem sentinel_of_unit {value : Option Ty} {sentinel : Option Sentinel} (form : StatusForm members value sentinel)
    (within : member ∈ members) (isUnit_ : isUnit member = true) : sentinel.map Sentinel.member = some member := by
  rcases form.cover member within with same | same | isError
  · rw [(form.value_mem member same).2.noUnit] at isUnit_
    cases isUnit_
  · exact same
  · cases member <;> first | cases isError | cases isUnit_

theorem stored_of_mismatch {source target : Ty} {ty : LlvmType} {left : Operand} (second : llvmType target = some ty)
    (coerced : coerceOperand machine source target operand = .ok left) (mismatch : left.type ≠ ty) :
    stored machine source target operand = .error .illTyped := by
  rw [stored, coerced, ok_bind, second, if_neg fun same => mismatch (Option.some.inj same).symm]

theorem constructSuccess_plain (plain : ∀ options, member ≠ .alternative options)
    (typed : llvmType member = some operand.type) :
    construct.constructSuccess machine operand member =
      if isScalarType operand.type ∨ operand.type = .ptr then (wrapSuccess machine operand member).map some else .ok none := by
  rw [construct.constructSuccess.eq_def, typed]
  cases member with
  | alternative options => exact absurd rfl (plain options)
  | string =>
    have text : operand.type = .ptr := (Option.some.inj typed).symm
    simp [text]
  | _ => simp

theorem coercePlain_left {source target : Ty} {sourceType targetType : LlvmType}
    (apart : targetType ≠ .vector ∧ targetType ≠ .region ∧ isScalarType targetType = false) :
    coercePlain machine source target sourceType targetType operand = .ok operand := by
  obtain ⟨vector, region, scalar⟩ := apart
  cases targetType <;> first | exact absurd rfl vector | exact absurd rfl region | cases scalar
  all_goals cases operand <;> simp [coercePlain, isIntegerType]

theorem construct_status (layout : AlternativeLayout.of members = some .status)
    (plain : ∀ options, member ≠ .alternative options) (typed : llvmType member = some operand.type)
    (noUnit : member ≠ .notAvailable ∧ member ≠ .endOfFile) :
    construct machine operand member (.alternative members) =
      if isScalarType operand.type ∨ operand.type = .ptr then (wrapSuccess machine operand member).map some
      else .ok none := by
  rw [← constructSuccess_plain plain typed]
  simp only [construct, layout, generalAlternative_plain plain, Option.isSome_none, Bool.false_eq_true, if_false]
  cases Sentinel.of members with
  | none => rfl
  | some sentinel =>
    cases sentinel with
    | notAvailable => exact if_neg noUnit.1
    | endOfFile => exact if_neg noUnit.2

theorem stored_status (layout : AlternativeLayout.of members = some .status) (within : member ∈ members)
    (plain : ∀ options, member ≠ .alternative options) (holds : Holds machine member operand) :
    stored machine member (.alternative members) operand = represent machine .status member operand := by
  have target : llvmType (.alternative members) = some .handleResult := by rw [llvmType_alternative, layout]; rfl
  by_cases same : operand.type = .handleResult
  · rw [represent, if_pos same]
    refine stored_of_coerced target (coerceOperand_same (same ▸ holds.1) target) fun form equal => ?_
    cases equal
    exact same
  have construct_ := @coerceOperand_construct machine operand _ _ _ _ holds.1 target same (by simp [same])
  obtain ⟨value, sentinel, form⟩ := status_form layout
  -- A unit is the sentinel that its alternative type has.
  have unit (ty : Sentinel) (isMember : member = ty.member) :
      construct machine operand member (.alternative members) = .ok (some (.handleResult false (ty.pointer machine) 0)) := by
    have known := sentinel_of_unit form within (isMember ▸ isUnit_member ty)
    simp only [construct, layout, generalAlternative_plain plain, form.sentinel_of, Option.isSome_none, Bool.false_eq_true,
      if_false]
    cases sentinel with
    | none => cases known
    | some other =>
      have equal : other.member = ty.member := (Option.some.inj known).trans isMember
      have other_eq : other = ty := by cases other <;> cases ty <;> first | rfl | cases equal
      rw [other_eq]
      exact if_pos isMember
  by_cases na : member = .notAvailable
  · rw [represent, if_neg same, if_pos na]
    rw [unit .notAvailable na] at construct_
    exact stored_of_coerced target construct_ fun form equal => by cases equal; rfl
  by_cases eof : member = .endOfFile
  · rw [represent, if_neg same, if_neg na, if_pos eof]
    rw [unit .endOfFile eof] at construct_
    exact stored_of_coerced target construct_ fun form equal => by cases equal; rfl
  rw [construct_status layout plain holds.1 ⟨na, eof⟩] at construct_
  rw [represent, if_neg same, if_neg na, if_neg eof]
  by_cases scalar : isScalarType operand.type ∨ operand.type = .ptr
  · rw [if_pos scalar] at construct_ ⊢
    refine stored_of_coerced target ?_ fun form wrapped => wrapSuccess_type wrapped
    rw [construct_]
    cases wrapSuccess machine operand member with
    | error refusal => rfl
    | ok form => rfl
  · rw [if_neg scalar] at construct_ ⊢
    exact stored_of_mismatch target (construct_.trans (coercePlain_left (by decide))) same

theorem anyIntegerHandle_eq (types : List Ty) : anyIntegerHandle types = types.any isIntegerHandleType := by
  induction types with
  | nil => rfl
  | cons ty types ih => rw [anyIntegerHandle, ih, List.any_cons]

theorem integerHandle_sentinel (layout : AlternativeLayout.of members = some .sentinel) (within : member ∈ members)
    (result : llvmType member = some .handleResult) :
    isIntegerHandleType (.alternative members) = isIntegerHandleType member := by
  rw [isIntegerHandleType, anyIntegerHandle_eq]
  rcases sentinel_form layout with ⟨-, -, texts⟩ | ⟨nominal, -, -, -, -, cover⟩
  · rcases texts member within with rfl | rfl <;> cases result
  · obtain rfl | rfl := cover member within
    · cases result
    · rw [Bool.eq_iff_iff, List.any_eq_true]
      constructor
      · rintro ⟨ty, ty_mem, handle⟩
        obtain rfl | rfl := cover ty ty_mem
        · cases handle
        · exact handle
      · exact fun handle => ⟨member, within, handle⟩

theorem stored_sentinel (layout : AlternativeLayout.of members = some .sentinel) (within : member ∈ members)
    (holds : Holds machine member operand) :
    stored machine member (.alternative members) operand = represent machine .sentinel member operand := by
  have target : llvmType (.alternative members) = some .ptr := by rw [llvmType_alternative, layout]; rfl
  by_cases same : operand.type = .ptr
  · cases operand with
    | ptr address =>
      exact stored_of_coerced target (coerceOperand_same holds.1 target) fun form equal => by cases equal; rfl
    | _ => cases same
  by_cases result : operand.type = .handleResult
  · cases operand with
    | handleResult error pointer payload =>
      refine stored_of_coerced target ?_ fun form represented => represent_type represented
      rw [coerceOperand, holds.1, target, expect_some, expect_some, ok_bind, ok_bind, if_neg same, if_pos ⟨rfl, .inl rfl⟩,
        unwrapResult.eq_def, integerHandle_sentinel layout within holds.1, Bool.or_self]
      rfl
    | _ => cases result
  · have left : coerceOperand machine member (.alternative members) operand = .ok operand := by
      rw [coerceOperand_construct holds.1 target same (by simp [result])]
      simp only [construct, layout]
      exact coercePlain_left (by decide)
    rw [stored_of_mismatch target left same]
    cases operand <;> first | rfl | exact absurd rfl same | exact absurd rfl result

theorem stored_statusPointer (layout : AlternativeLayout.of members = some .statusPointer)
    (holds : Holds machine member operand) :
    stored machine member (.alternative members) operand = represent machine .statusPointer member operand := by
  have target : llvmType (.alternative members) = some .statusPointer := by rw [llvmType_alternative, layout]; rfl
  by_cases same : operand.type = .statusPointer
  · cases operand with
    | statusPointer error pointer =>
      exact stored_of_coerced target (coerceOperand_same holds.1 target) fun form equal => by cases equal; rfl
    | _ => cases same
  have construct_ := @coerceOperand_construct machine operand _ _ _ _ holds.1 target same (by simp [isIntegerType])
  simp only [construct, layout] at construct_
  by_cases isError : isErrorType member = true
  · rw [if_pos isError] at construct_
    cases operand with
    | handleResult error record code =>
      rw [represent, if_pos isError]
      exact stored_of_coerced target construct_ fun form equal => by cases equal; rfl
    | statusPointer error pointer => exact absurd rfl same
    | _ =>
      rw [represent.eq_def]
      exact stored_of_coerced target construct_ fun form equal => by cases equal
  · rw [if_neg isError] at construct_
    rw [stored_of_mismatch target (construct_.trans (coercePlain_left (by decide))) same, represent.eq_def]
    cases operand <;> first | rfl | exact absurd rfl same | exact (if_neg isError).symm

theorem stored_statusEndpoint (layout : AlternativeLayout.of members = some .statusEndpoint)
    (plain : ∀ options, member ≠ .alternative options) (holds : Holds machine member operand) :
    stored machine member (.alternative members) operand = represent machine .statusEndpoint member operand := by
  have target : llvmType (.alternative members) = some .statusEndpoint := by rw [llvmType_alternative, layout]; rfl
  have same : operand.type ≠ .statusEndpoint := by
    have differ := (llvmType_plain plain).2
    rw [holds.1] at differ
    simpa using differ
  have construct_ := @coerceOperand_construct machine operand _ _ _ _ holds.1 target same (by simp [isIntegerType])
  simp only [construct, layout] at construct_
  by_cases isError : isErrorType member = true
  · rw [if_pos isError] at construct_
    cases operand with
    | handleResult error record code =>
      rw [represent, if_pos isError]
      exact stored_of_coerced target construct_ fun form equal => by cases equal; rfl
    | _ =>
      rw [represent.eq_def]
      exact stored_of_coerced target construct_ fun form equal => by cases equal
  · rw [if_neg isError] at construct_
    rw [stored_of_mismatch target (construct_.trans (coercePlain_left (by decide))) same, represent.eq_def]
    cases operand <;> first | rfl | exact (if_neg isError).symm

theorem stored_region (layout : AlternativeLayout.of members = some .region) (plain : ∀ options, member ≠ .alternative options)
    (holds : Holds machine member operand) :
    stored machine member (.alternative members) operand = represent machine .region member operand := by
  have target : llvmType (.alternative members) = some .vector := by rw [llvmType_alternative, layout]; rfl
  by_cases same : operand.type = .vector
  · cases operand with
    | vector pointer length =>
      have notNull : member ≠ .null := by
        rintro rfl
        cases holds.1
      rw [represent.eq_def]
      simp only [if_neg notNull]
      exact stored_of_coerced target (coerceOperand_same holds.1 target) fun form equal => by cases equal; rfl
    | _ => cases same
  have construct_ := @coerceOperand_construct machine operand _ _ _ _ holds.1 target same (by simp [isIntegerType])
  simp only [construct, layout] at construct_
  by_cases isNull : member = .null
  · rw [if_pos isNull] at construct_
    rw [represent.eq_def]
    simp only [if_pos isNull]
    exact stored_of_coerced target construct_ fun form equal => by cases equal; rfl
  · rw [if_neg isNull] at construct_
    rw [represent.eq_def]
    simp only [if_neg isNull]
    have notEndpoint : operand.type ≠ .statusEndpoint := by
      have differ := (llvmType_plain plain).2
      rw [holds.1] at differ
      simpa using differ
    cases operand <;> first
      | exact absurd rfl same
      | exact absurd rfl notEndpoint
      | exact stored_of_mismatch target construct_ same

theorem stored_eq {layout : AlternativeLayout} (found : AlternativeLayout.of members = some layout)
    (alternative : IsAlternative members) (within : member ∈ members) (holds : Holds machine member operand) :
    stored machine member (.alternative members) operand = represent machine layout member operand := by
  have plain := alternative.plain member within
  cases layout with
  | general => exact stored_general found plain holds
  | status => exact stored_status found within plain.2 holds
  | sentinel => exact stored_sentinel found within holds
  | statusPointer => exact stored_statusPointer found holds
  | statusEndpoint => exact stored_statusEndpoint found plain.2 holds
  | region => exact stored_region found plain.2 holds

/-! ### Words -/

theorem trunc_zext {width wide : Nat} (wider : width ≤ wide) (bits : BitVec width) : trunc width (zext wide bits) = bits := by
  apply BitVec.eq_of_getLsbD_eq
  intro i inside
  simp only [trunc, zext, BitVec.getLsbD_setWidth]
  simp [inside]
  omega

theorem trunc_sext {width wide : Nat} (wider : width ≤ wide) (bits : BitVec width) : trunc width (sext wide bits) = bits := by
  apply BitVec.eq_of_getLsbD_eq
  intro i inside
  simp only [trunc, sext, BitVec.getLsbD_setWidth, BitVec.getLsbD_signExtend]
  simp [inside]
  omega

theorem truncated_extended {unsigned : Bool} {bits : BitVec 64} (integer : isIntegerType operand.type = true)
    (extended : operand.extended unsigned = .ok bits) : Operand.truncated bits operand.type = .ok operand := by
  cases operand with
  | i8 word | i16 word | i32 word =>
    cases unsigned with
    | true =>
      cases extended
      exact congrArg Except.ok (congrArg _ (trunc_zext (by decide) word))
    | false =>
      cases extended
      exact congrArg Except.ok (congrArg _ (trunc_sext (by decide) word))
  | i64 word =>
    cases extended
    rfl
  | _ => cases integer

theorem extended_ok (unsigned : Bool) (scalar : isIntegerType operand.type = true ∨ operand.type = .i1) :
    ∃ bits, operand.extended unsigned = .ok bits := by
  cases operand with
  | i1 _ | i8 _ | i16 _ | i32 _ | i64 _ => exact ⟨_, rfl⟩
  | _ => rcases scalar with integer | bit <;> contradiction

end

end BasicNext.Native
