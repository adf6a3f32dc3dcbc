import BasicNext.Native.AlternativeReads

/-!
# Widening

A value of an alternative type in a wider one. Two types of one layout share their values. Otherwise the wider
type has the general layout, or it is a result of the runtime with a unit.
-/

namespace BasicNext.Native

open Lib.Llvm (zext trunc)
open Semantic (NumericClass)

/-! ### The order of the members -/

section

variable {members others : List Ty}

theorem distinctCodes_iff : distinctCodes members = true ↔
    (∀ member ∈ members, ∃ code, memberCode member = some code) ∧ (members.map memberCode).Nodup := by
  rw [distinctCodes]
  cases found : memberCodes members with
  | none =>
    refine iff_of_false Bool.false_ne_true fun known => ?_
    obtain ⟨all, -⟩ := known
    suffices total : ∀ list : List Ty, (∀ member ∈ list, ∃ code, memberCode member = some code) → memberCodes list ≠ none from
      total members all found
    intro list
    induction list with
    | nil => exact fun _ missing => Option.some_ne_none _ missing
    | cons member list ih =>
      intro coded missing
      obtain ⟨code, first⟩ := coded member (by simp)
      have rest := ih fun other within => coded other (by simp [within])
      obtain ⟨codes, others⟩ := Option.ne_none_iff_exists'.1 rest
      rw [memberCodes] at others
      rw [memberCodes, List.mapM_cons, first, others] at missing
      exact Option.some_ne_none _ missing
  | some codes =>
    have mapped := memberCodes_eq found
    rw [decide_eq_true_eq]
    constructor
    · intro distinct
      refine ⟨fun member within => ?_, mapped ▸ distinct.map (Option.some_injective _)⟩
      have image : memberCode member ∈ codes.map some := mapped ▸ List.mem_map_of_mem within
      obtain ⟨code, -, equal⟩ := List.mem_map.1 image
      exact ⟨code, equal.symm⟩
    · rintro ⟨-, distinct⟩
      rw [mapped] at distinct
      exact distinct.of_map some

theorem layout_of_perm (same : members.Perm others) : AlternativeLayout.of members = AlternativeLayout.of others := by
  have typed : (typedMembers members).Perm (typedMembers others) := by
    rw [typedMembers_eq, typedMembers_eq]
    exact same.map _
  have any (p : Ty → Bool) : members.any p = others.any p := same.any_eq
  have typedAny (p : Ty × Option LlvmType → Bool) : (typedMembers members).any p = (typedMembers others).any p := typed.any_eq
  have typedAll (p : Ty × Option LlvmType → Bool) : (typedMembers members).all p = (typedMembers others).all p := typed.all_eq
  have mem (ty : Ty) : ty ∈ members ↔ ty ∈ others := same.mem_iff
  have codes : distinctCodes members = distinctCodes others := by
    rw [Bool.eq_iff_iff, distinctCodes_iff, distinctCodes_iff, (same.map memberCode).nodup_iff]
    simp only [mem]
  simp only [AlternativeLayout.of, layoutOf, map_fst_typedMembers, sentinelOf, stringOrEof, stringOrError, stringNaOrError,
    stringEofOrError, scalarNaOrError, errorOrNa, floatOrError, booleanOrError, netOrError, voidOrError, integerOrError,
    integerEofOrError, importedOrError, opaqueOrErrorOf, generalMembersOf, orError, unitOrError, any, typedAny, typedAll, mem,
    codes, same.length_eq, typed.length_eq]

theorem two_members {layout : AlternativeLayout} (found : AlternativeLayout.of members = some layout)
    (few : layout ≠ .general ∧ layout ≠ .status) : members.length = 2 := by
  have known := layoutSays found
  cases layout with
  | general => exact absurd rfl few.1
  | status => exact absurd rfl few.2
  | region => exact known.1
  | statusPointer | statusEndpoint =>
    have net := known.1
    simp only [netOrError, orError, Bool.and_eq_true, beq_iff_eq] at net
    exact net.1.1
  | sentinel =>
    simp only [LayoutSays, sentinelOf, Bool.or_eq_true, map_fst_typedMembers] at known
    rcases known with pointer | text
    · simp only [typedMembers_eq, List.length_map, Bool.and_eq_true, beq_iff_eq] at pointer
      exact pointer.1.1
    · simp only [stringOrEof, Bool.and_eq_true, beq_iff_eq] at text
      exact text.1.1

theorem wider_layout {narrow wide : List Ty} {source target : AlternativeLayout}
    (found : AlternativeLayout.of narrow = some source) (found' : AlternativeLayout.of wide = some target)
    (alternative : IsAlternative narrow) (within : ∀ ty ∈ narrow, ty ∈ wide) (differ : source ≠ target) :
    target = .general ∨ target = .status ∧ wide.length ≠ 2 := by
  have short (two : wide.length = 2) : False := by
    have same := (List.subperm_of_subset alternative.nodup within).perm_of_length_le (two ▸ alternative.several)
    rw [layout_of_perm same, found', Option.some.injEq] at found
    exact differ found.symm
  by_cases general : target = .general
  · exact .inl general
  · by_cases status : target = .status
    · exact .inr ⟨status, short⟩
    · exact absurd (two_members found' ⟨general, status⟩) short

end

section

variable {machine : Machine} {narrow wide : List Ty} {member : Ty} {operand : Operand}

/-! ### Conversions -/

/-- Two forms of a value; what a unit has beside its code is never read. -/
def SameForm (member : Ty) (first second : Operand) : Prop :=
  first = second ∨ isUnit member = true ∧ ∃ code pointer payload otherPointer otherPayload,
    first = .general code pointer payload ∧ second = .general code otherPointer otherPayload

/-- A value of a member in one alternative type becomes what a wider one has for it. -/
def Carries (same : Operand → Operand → Prop) (machine : Machine) (narrow wide : List Ty) (member : Ty) (operand : Operand) :
    Prop :=
  ∀ form, stored machine member (.alternative narrow) operand = .ok form →
    ∃ direct, stored machine member (.alternative wide) operand = .ok direct ∧
      ∃ converted, stored machine (.alternative narrow) (.alternative wide) form = .ok converted ∧ same converted direct

theorem Carries.mono {same other : Operand → Operand → Prop} (weaker : ∀ first second, same first second → other first second)
    (converts : Carries same machine narrow wide member operand) : Carries other machine narrow wide member operand := by
  intro form formed
  obtain ⟨direct, stored_, converted, conversion, equal⟩ := converts form formed
  exact ⟨direct, stored_, converted, conversion, weaker converted direct equal⟩

theorem carries_same {layout : AlternativeLayout} (found : AlternativeLayout.of narrow = some layout)
    (found' : AlternativeLayout.of wide = some layout) (alternative : IsAlternative narrow) (alternative' : IsAlternative wide)
    (within : member ∈ narrow) (within' : member ∈ wide) (holds : Holds machine member operand) :
    Carries Eq machine narrow wide member operand := by
  intro form formed
  rw [stored_eq found alternative within holds] at formed
  refine ⟨form, (stored_eq found' alternative' within' holds).trans formed, form, ?_, rfl⟩
  refine stored_of_coerced (slot_type found') (coerceOperand_same (slot_type found) (slot_type found')) fun other equal => ?_
  cases equal
  exact represent_type formed

/-! ### Codes -/

def codeOf (member : Ty) : BitVec 32 := BitVec.ofNat 32 ((memberCode member).getD 0)

theorem tag_eq {code : Nat} (coded : memberCode member = some code) : tag member = .ok (codeOf member) := by
  rw [tag, codeOf, coded]
  rfl

theorem memberCode_error (isError : isErrorType member = true) : memberCode member = some 0x10 := by
  cases member with
  | named name | importedNamed module name =>
    rw [isErrorType, beq_iff_eq] at isError
    subst isError
    rfl
  | _ => cases isError

theorem codeOf_error (isError : isErrorType member = true) : codeOf member = 0x10 := by
  rw [codeOf, memberCode_error isError]
  rfl

theorem memberCode_lt {code : Nat} (coded : memberCode member = some code) : code < 1024 := by
  have named (name : String) : namedCode name < 1024 := by
    rw [namedCode]
    split_ifs <;> decide
  have imported (name : String) : (if name = "Error" then 0x10 else objectCode) < 1024 := by
    split_ifs <;> decide
  cases member with
  | integer kind =>
    cases coded
    cases kind <;> decide
  | float kind => cases kind <;> cases coded <;> decide
  | named name | typeName name =>
    cases coded
    exact named name
  | importedNamed module name | importedTypeName module name =>
    cases coded
    exact imported name
  | boolean | string | null | notAvailable | endOfFile | function parameters returnType =>
    cases coded
    decide
  | vector element dimensions | pointer element length =>
    simp only [memberCode, Option.map_eq_some_iff, Option.filter_eq_some_iff, decide_eq_true_eq] at coded
    obtain ⟨inner, ⟨-, small⟩, rfl⟩ := coded
    simp only [vectorCode, pointerCode] at small ⊢
    omega
  | _ => cases coded

theorem toNat_codeOf {code : Nat} (coded : memberCode member = some code) : (codeOf member).toNat = code := by
  have small := memberCode_lt coded
  rw [codeOf, coded, Option.getD_some, BitVec.toNat_ofNat, Nat.mod_eq_of_lt (by omega)]

theorem tag_injective {members : List Ty} (layout : AlternativeLayout.of members = some .general) {first second : Ty}
    (first_mem : first ∈ members) (second_mem : second ∈ members) (same : codeOf first = codeOf second) : first = second := by
  obtain ⟨code, coded⟩ := (memberCode_distinct layout).1 first first_mem
  obtain ⟨code', coded'⟩ := (memberCode_distinct layout).1 second second_mem
  have equal : code = code' := by rw [← toNat_codeOf coded, ← toNat_codeOf coded', same]
  exact (memberCode_distinct layout).2 first first_mem second second_mem (coded.trans (equal ▸ coded'.symm))

/-! ### Results of the runtime and the general layout -/

theorem wrapFields_text (text : member = .string ∨ pointerMember member = true) (address : Address) :
    wrapFields machine member (.ptr address) = .ok (address, 0) := by
  rw [wrapFields.eq_def, if_pos text]

theorem wrapFields_error (isError : isErrorType member = true) (error : Bool) (record : Address) (code : BitVec 64) :
    wrapFields machine member (.handleResult error record code) = .ok (record, code) := by
  have noText : ¬(member = .string ∨ pointerMember member = true) := by
    rintro (rfl | isPointer)
    · cases isError
    · have typed := (pointerMember_type isPointer).symm.trans (isErrorType_type isError)
      cases typed
  have noVector : ¬vectorMember member = true := fun isVector_ => by
    have typed := (vectorMember_type isVector_).symm.trans (isErrorType_type isError)
    cases typed
  rw [wrapFields.eq_def, if_neg noText, if_neg noVector, if_pos isError]

theorem wrapFields_scalar (noText : ¬(member = .string ∨ pointerMember member = true)) (noVector : vectorMember member = false)
    (noError : isErrorType member = false) : wrapFields machine member operand = wrapScalar machine member operand := by
  rw [wrapFields.eq_def, if_neg noText, if_neg (by simp [noVector]), if_neg (by simp [noError])]

theorem wrapSuccess_fields (general : IsGeneral member) (value : IsValue member) (holds : Holds machine member operand)
    (kind : isScalarType operand.type = true ∨ operand.type = .ptr) :
    ∃ pointer payload, wrapFields machine member operand = .ok (pointer, payload) ∧
      wrapSuccess machine operand member = .ok (.handleResult false pointer payload) ∧
      pointer ≠ machine.na ∧ pointer ≠ machine.eof := by
  have typed := holds.1
  by_cases text : member = .string ∨ pointerMember member = true
  · have pointer : llvmType member = some .ptr := by
      rcases text with rfl | isPointer
      · rfl
      · exact pointerMember_type isPointer
    obtain ⟨address, rfl⟩ := holds_ptr pointer holds
    have noHandle : isIntegerHandleType member = false := by
      rcases text with rfl | isPointer
      · rfl
      · exact value.noHandle isPointer
    have apart : address ≠ machine.na ∧ address ≠ machine.eof := by
      have known := holds.2
      cases member with
      | string | named name => exact known.2
      | _ => rcases text with text | text <;> cases text
    refine ⟨address, 0, wrapFields_text text address, ?_, apart⟩
    rw [wrapSuccess, if_neg (by simp [noHandle])]
  have zero : (0 : Address) ≠ machine.na ∧ (0 : Address) ≠ machine.eof := ⟨machine.na_ne_zero.symm, machine.eof_ne_zero.symm⟩
  -- An integer is extended to 64 bits in both.
  have integer (scalar : isIntegerType operand.type = true ∨ operand.type = .i1) (noVector : vectorMember member = false)
      (wraps : wrapScalar machine member operand = (do
        let memberType ← expect (llvmType member)
        let value ← operand.withType memberType
        let bits ← value.extended (isUnsigned member)
        pure (0, bits))) :
      ∃ pointer payload, wrapFields machine member operand = .ok (pointer, payload) ∧
        wrapSuccess machine operand member = .ok (.handleResult false pointer payload) ∧
        pointer ≠ machine.na ∧ pointer ≠ machine.eof := by
    obtain ⟨bits, extended⟩ := extended_ok (isUnsigned member) scalar
    refine ⟨0, bits, ?_, ?_, zero⟩
    · rw [wrapFields_scalar text noVector value.noError, wraps, typed, expect_some, ok_bind, Operand.withType.eq_def, if_pos rfl,
        ok_bind, extended]
      rfl
    · have wrapped : wrapSuccess machine operand member = (operand.extended (isUnsigned member)).map (.handleResult false 0) := by
        cases operand <;> first | rfl | (rcases scalar with integer | bit <;> contradiction)
      rw [wrapped, extended]
      rfl
  cases member with
  | integer kind =>
    refine integer (.inl ?_) rfl rfl
    cases kind <;> rw [llvmType, Option.some.injEq] at typed <;> rw [← typed] <;> rfl
  | boolean => exact integer (.inr (Option.some.inj typed).symm) rfl rfl
  | named name =>
    refine integer (.inl ?_) rfl rfl
    have days : (name == "DATE" || name == "TIME") = true := by
      have stage := general.2
      have noPointer : pointerMember (.named name) = false := by simpa using fun isPointer => text (.inr isPointer)
      have noVector : vectorMember (.named name) = false := rfl
      rw [noPointer, noVector] at stage
      simpa [stageOneMember, isDateOrTime, isInteger, isFloat, value.noError] using stage
    rw [llvmType, namedType, if_pos days, Option.some.injEq] at typed
    rw [← typed]
    rfl
  | float kind =>
    cases kind with
    | float32 =>
      cases operand with
      | float bits => exact ⟨0, machine.fpext bits, rfl, rfl, zero⟩
      | _ => cases typed
    | float64 =>
      cases operand with
      | double bits => exact ⟨0, bits, rfl, rfl, zero⟩
      | _ => cases typed
  | string => exact absurd (.inl rfl) text
  | null | notAvailable | endOfFile => cases value.noUnit
  | vector element dimensions =>
    rcases general.2 with stage | isPointer | isVector_
    · cases stage
    · cases isPointer
    · rw [vectorMember_type isVector_, Option.some.injEq] at typed
      rw [← typed] at kind
      rcases kind with kind | kind <;> cases kind
  | importedNamed module name =>
    have noError := value.noError
    rcases general.2 with stage | isPointer | isVector_
    · simp [stageOneMember, isInteger, isFloat, isDateOrTime, noError] at stage
    · cases isPointer
    · cases isVector_
  | _ => rcases general.2 with stage | isPointer | isVector_ <;> contradiction

theorem widenDedicated_type {form widened : Operand} {source : Option LlvmType}
    (found : widenDedicated machine form source narrow = .ok widened) : widened.type = .general := by
  rw [widenDedicated.eq_def] at found
  split_ifs at found
  · rw [Lib.bind_eq_ok] at found
    obtain ⟨object, -, found⟩ := found
    cases form with
    | ptr address =>
      rw [Lib.bind_eq_ok] at found
      obtain ⟨code, -, found⟩ := found
      cases found
      rfl
    | _ => cases found
  · cases form with
    | handleResult error pointer payload =>
      simp only [Lib.bind_eq_ok] at found
      obtain ⟨_, -, _, -, _, -, found⟩ := found
      cases sentinel : Sentinel.of narrow with
      | none =>
        simp only [sentinel, Lib.bind_eq_ok] at found
        obtain ⟨_, -, _, -, found⟩ := found
        cases found
        rfl
      | some unit =>
        simp only [sentinel, Lib.bind_eq_ok] at found
        obtain ⟨_, -, _, -, _, -, found⟩ := found
        cases found
        rfl
    | _ => cases found

theorem stored_widen {layout : AlternativeLayout} {form : Operand} (found : AlternativeLayout.of narrow = some layout)
    (found' : AlternativeLayout.of wide = some .general) (other : layout ≠ .general) :
    stored machine (.alternative narrow) (.alternative wide) form = widenDedicated machine form (some layout.llvm) narrow := by
  have differ : layout.llvm ≠ .general := by
    intro same
    cases layout <;> first | exact other rfl | cases same
  refine stored_of_coerced (slot_type found') ?_ fun widened equal => widenDedicated_type equal
  rw [coerceOperand_construct (slot_type found) (slot_type found') differ (by simp [isIntegerType, AlternativeLayout.llvm])]
  simp only [construct, found']
  rw [wrap.eq_def, generalAlternative_of found, if_neg other, slot_type found]
  show (Except.map some (widenDedicated machine form (some layout.llvm) narrow)).bind _ = _
  cases widenDedicated machine form (some layout.llvm) narrow with
  | error refusal => rfl
  | ok widened => rfl

theorem find_only {p : Ty → Bool} {list : List Ty} (within : member ∈ list) (holds : p member = true)
    (only : ∀ ty ∈ list, p ty = true → ty = member) : list.find? p = some member := by
  cases found : list.find? p with
  | none => exact absurd holds (by simpa using List.find?_eq_none.1 found member within)
  | some ty => rw [only ty (List.mem_of_find?_eq_some found) (List.find?_some found)]

section

variable {value : Option Ty} {sentinel : Option Sentinel}

theorem StatusForm.find_value (form : StatusForm narrow value sentinel) :
    narrow.find? (fun member => !isErrorType member && !isUnit member) = value := by
  have only (ty : Ty) (within : ty ∈ narrow) (plain : (!isErrorType ty && !isUnit ty) = true) : value = some ty := by
    simp only [Bool.and_eq_true, Bool.not_eq_true'] at plain
    rcases form.cover ty within with same | unit | isError
    · exact same
    · cases sentinel with
      | none => cases unit
      | some known =>
        cases unit
        rw [isUnit_member] at plain
        cases plain.2
    · rw [plain.1] at isError
      cases isError
  cases value with
  | none =>
    refine List.find?_eq_none.2 fun ty within plain => ?_
    cases only ty within plain
  | some ty =>
    obtain ⟨within, isValue⟩ := form.value_mem ty rfl
    refine find_only within (by simp [isValue.noError, isValue.noUnit]) fun other within plain => ?_
    exact (Option.some.inj (only other within plain)).symm

theorem StatusForm.unit_eq (form : StatusForm narrow value sentinel) {unit : Sentinel} (same : sentinel = some unit) :
    ∀ ty ∈ narrow, isUnit ty = true → ty = unit.member := by
  intro ty within isUnit_
  have known := sentinel_of_unit form within isUnit_
  rw [same] at known
  exact (Option.some.inj known).symm

theorem StatusForm.find_unit (form : StatusForm narrow value sentinel) :
    narrow.find? isUnit = sentinel.map Sentinel.member := by
  cases sentinel with
  | none =>
    refine List.find?_eq_none.2 fun ty within isUnit_ => ?_
    cases sentinel_of_unit form within isUnit_
  | some unit => exact find_only (form.sentinel_mem unit rfl) (isUnit_member unit) (form.unit_eq rfl)

theorem StatusForm.find_error (form : StatusForm narrow value sentinel) :
    ∃ error ∈ narrow, narrow.find? isErrorType = some error ∧ isErrorType error = true := by
  obtain ⟨error, within, isError⟩ := form.error_mem
  cases found : narrow.find? isErrorType with
  | none => exact absurd isError (by simpa using List.find?_eq_none.1 found error within)
  | some other => exact ⟨other, List.mem_of_find?_eq_some found, rfl, List.find?_some found⟩

/-- The code of what a result of the runtime holds. -/
def statusCode (machine : Machine) (sentinel : Option Sentinel) (value : Ty) (error : Bool) (pointer : Address) : BitVec 32 :=
  if error then 0x10
  else
    match sentinel with
    | some unit => if pointer = unit.pointer machine then codeOf unit.member else codeOf value
    | none => codeOf value

theorem widenDedicated_status (form : StatusForm narrow value sentinel) (coded : ∀ ty ∈ narrow, tag ty = .ok (codeOf ty))
    {ty : Ty} (first : value.or (sentinel.map Sentinel.member) = some ty) (within : ty ∈ narrow) (error : Bool)
    (pointer : Address) (payload : BitVec 64) :
    widenDedicated machine (.handleResult error pointer payload) (some .handleResult) narrow =
      .ok (.general (statusCode machine sentinel ty error pointer) pointer payload) := by
  obtain ⟨errorMember, error_mem, found, isError⟩ := form.find_error
  rw [widenDedicated.eq_def, if_neg (by decide), if_pos rfl]
  simp only [form.find_value, form.find_unit, found, form.sentinel_of, first, expect_some, ok_bind, coded ty within,
    coded errorMember error_mem, codeOf_error isError]
  cases sentinel with
  | none => rfl
  | some unit =>
    simp only [Option.map_some, expect_some, ok_bind, coded _ (form.sentinel_mem unit rfl)]
    rfl

end

theorem coded_of_general (found : AlternativeLayout.of wide = some .general) (within : member ∈ wide) :
    tag member = .ok (codeOf member) := by
  obtain ⟨code, coded⟩ := (memberCode_distinct found).1 member within
  exact tag_eq coded

theorem stored_of_fields {pointer : Address} {payload : BitVec 64} (found : AlternativeLayout.of wide = some .general)
    (alternative : IsAlternative wide) (within : member ∈ wide) (holds : Holds machine member operand)
    (fields : wrapFields machine member operand = .ok (pointer, payload)) :
    stored machine member (.alternative wide) operand = .ok (.general (codeOf member) pointer payload) := by
  rw [stored_eq found alternative within holds, represent, fields, ok_bind, coded_of_general found within]
  rfl

theorem wrapFields_unit (isUnit_ : isUnit member = true) : wrapFields machine member operand = .ok (0, 0) := by
  cases member <;> first | rfl | cases isUnit_

theorem represent_status_unit (unit : Sentinel) (holds : Holds machine unit.member operand) :
    represent machine .status unit.member operand = .ok (.handleResult false (unit.pointer machine) 0) := by
  have other : operand.type ≠ .handleResult := by
    intro same
    have typed := holds.1
    rw [same] at typed
    cases unit <;> cases typed
  rw [represent, if_neg other]
  cases unit with
  | notAvailable => exact if_pos rfl
  | endOfFile => exact (if_neg (by decide)).trans (if_pos rfl)

theorem represent_status_value {form : Operand} (value : IsValue member) (general : IsGeneral member)
    (holds : Holds machine member operand) (represented : represent machine .status member operand = .ok form) :
    ∃ pointer payload, form = .handleResult false pointer payload ∧
      wrapFields machine member operand = .ok (pointer, payload) ∧ pointer ≠ machine.na ∧ pointer ≠ machine.eof := by
  have noNa : member ≠ .notAvailable := by
    rintro rfl
    cases value.noUnit
  have noEof : member ≠ .endOfFile := by
    rintro rfl
    cases value.noUnit
  have other : operand.type ≠ .handleResult := by
    intro same
    have typed := holds.1
    rw [same] at typed
    rcases general.2 with stage | isPointer | isVector_
    · cases member with
      | named name =>
        have days : (name == "DATE" || name == "TIME") = true := by
          simpa [stageOneMember, isDateOrTime, isInteger, isFloat, value.noError] using stage
        rw [llvmType, namedType, if_pos days] at typed
        cases typed
      | importedNamed module name => simp [stageOneMember, isInteger, isFloat, isDateOrTime, value.noError] at stage
      | integer kind => cases kind <;> cases typed
      | float kind => cases kind <;> cases typed
      | boolean | string | null | notAvailable | endOfFile => cases typed
      | _ => cases stage
    · rw [pointerMember_type isPointer] at typed
      cases typed
    · rw [vectorMember_type isVector_] at typed
      cases typed
  rw [represent, if_neg other, if_neg noNa, if_neg noEof] at represented
  by_cases kind : isScalarType operand.type ∨ operand.type = .ptr
  · rw [if_pos kind] at represented
    obtain ⟨pointer, payload, fields, wrapped, apart⟩ := wrapSuccess_fields general value holds kind
    rw [wrapped] at represented
    cases represented
    exact ⟨pointer, payload, rfl, fields, apart⟩
  · rw [if_neg kind] at represented
    cases represented

theorem holds_error (isError : isErrorType member = true) (holds : Holds machine member operand) :
    ∃ record, operand = .handleResult true record (machine.errorCode record) := by
  have typed := isErrorType_type isError
  rw [holds.1] at typed
  cases operand with
  | handleResult error record code =>
    have known := holds.2
    simp only [if_pos isError] at known
    obtain ⟨rfl, rfl⟩ := known
    exact ⟨record, rfl⟩
  | _ => cases typed

theorem represent_status_error (error : Bool) (record : Address) (code : BitVec 64) :
    represent machine .status member (.handleResult error record code) = .ok (.handleResult error record code) := by
  rw [represent]
  exact if_pos rfl

theorem carries_status (found : AlternativeLayout.of narrow = some .status) (found' : AlternativeLayout.of wide = some .general)
    (alternative : IsAlternative narrow) (alternative' : IsAlternative wide) (subset : ∀ ty ∈ narrow, ty ∈ wide)
    (within : member ∈ narrow) (holds : Holds machine member operand) :
    Carries (SameForm member) machine narrow wide member operand ∧
      (Carries Eq machine narrow wide member operand ↔ isUnit member = false) := by
  obtain ⟨value, sentinel, form⟩ := status_form found
  have coded (ty : Ty) (within : ty ∈ narrow) : tag ty = .ok (codeOf ty) := coded_of_general found' (subset ty within)
  have first : ∃ ty ∈ narrow, value.or (sentinel.map Sentinel.member) = some ty := by
    cases value with
    | some ty => exact ⟨ty, (form.value_mem ty rfl).1, rfl⟩
    | none =>
      cases sentinel with
      | some unit => exact ⟨unit.member, form.sentinel_mem unit rfl, rfl⟩
      | none =>
        -- Two errors would have one code.
        have errors (ty : Ty) (within : ty ∈ narrow) : isErrorType ty = true := by
          rcases form.cover ty within with same | same | isError
          · cases same
          · cases same
          · exact isError
        obtain ⟨first, second, first_mem, second_mem, differ⟩ :
            ∃ first second, first ∈ narrow ∧ second ∈ narrow ∧ first ≠ second := by
          have several := alternative.several
          have distinct := alternative.nodup
          match narrow, several, distinct with
          | first :: second :: rest, _, distinct =>
            refine ⟨first, second, by simp, by simp, ?_⟩
            rintro rfl
            simp at distinct
        refine absurd (tag_injective found' (subset _ first_mem) (subset _ second_mem) ?_) differ
        rw [codeOf_error (errors _ first_mem), codeOf_error (errors _ second_mem)]
  obtain ⟨ty, ty_mem, first⟩ := first
  have widened (error : Bool) (pointer : Address) (payload : BitVec 64) :
      stored machine (.alternative narrow) (.alternative wide) (.handleResult error pointer payload) =
        .ok (.general (statusCode machine sentinel ty error pointer) pointer payload) :=
    (stored_widen found found' (by decide)).trans (widenDedicated_status form coded first ty_mem error pointer payload)
  have direct {pointer : Address} {payload : BitVec 64} (fields : wrapFields machine member operand = .ok (pointer, payload)) :=
    stored_of_fields found' alternative' (subset _ within) holds fields
  -- What is no unit is the same in both.
  have exact_ (noUnit : isUnit member = false) : Carries Eq machine narrow wide member operand := by
    intro formed stored_
    rw [stored_eq found alternative within holds] at stored_
    rcases form.cover member within with same | same | isError
    · obtain ⟨pointer, payload, rfl, fields, apart⟩ :=
        represent_status_value (form.value_mem member same).2 (isGeneral_of_layout found' (subset _ within)) holds stored_
      refine ⟨_, direct fields, _, widened false pointer payload, ?_⟩
      have isFirst : ty = member := by
        rw [same] at first
        exact (Option.some.inj first).symm
      have code : statusCode machine sentinel ty false pointer = codeOf member := by
        rw [isFirst]
        cases sentinel with
        | none => rfl
        | some unit =>
          have other : pointer ≠ unit.pointer machine := by
            cases unit with
            | notAvailable => exact apart.1
            | endOfFile => exact apart.2
          exact if_neg other
      rw [code]
    · cases sentinel with
      | none => cases same
      | some unit =>
        rw [Option.map_some, Option.some.injEq] at same
        rw [← same, isUnit_member] at noUnit
        cases noUnit
    · obtain ⟨record, rfl⟩ := holds_error isError holds
      rw [represent_status_error] at stored_
      cases stored_
      refine ⟨_, direct (wrapFields_error isError _ _ _), _, widened true record _, ?_⟩
      rw [codeOf_error isError]
      rfl
  cases isUnit_ : isUnit member with
  | false =>
    refine ⟨(exact_ isUnit_).mono fun first second same => .inl same, iff_of_true (exact_ isUnit_) rfl⟩
  | true =>
    have known := sentinel_of_unit form within isUnit_
    cases sentinel with
    | none => cases known
    | some unit =>
      rw [Option.map_some, Option.some.injEq] at known
      subst known
      have formed := (stored_eq found alternative within holds).trans (represent_status_unit unit holds)
      have code : statusCode machine (some unit) ty false (unit.pointer machine) = codeOf unit.member := if_pos rfl
      have conversion := widened false (unit.pointer machine) 0
      rw [code] at conversion
      have straight := direct (wrapFields_unit (isUnit_member unit))
      refine ⟨fun other stored_ => ?_, iff_of_false (fun converts => ?_) (by simp)⟩
      · rw [formed] at stored_
        cases stored_
        exact ⟨_, straight, _, conversion, .inr ⟨isUnit_, _, _, _, _, _, rfl, rfl⟩⟩
      · obtain ⟨there, stored_, here, converted, equal⟩ := converts _ formed
        rw [straight] at stored_
        rw [conversion] at converted
        cases stored_
        cases converted
        have same : unit.pointer machine = 0 := by
          injection equal
        cases unit with
        | notAvailable => exact machine.na_ne_zero same
        | endOfFile => exact machine.eof_ne_zero same

/-! ### Pointers and the general layout -/

theorem carries_pointer (found : AlternativeLayout.of narrow = some .sentinel) (found' : AlternativeLayout.of wide = some .general)
    (alternative : IsAlternative narrow) (alternative' : IsAlternative wide) (subset : ∀ ty ∈ narrow, ty ∈ wide)
    (hasClass : narrow.any pointerMember = true) (within : member ∈ narrow) (holds : Holds machine member operand) :
    Carries Eq machine narrow wide member operand := by
  obtain ⟨object, object_mem, isPointer⟩ := List.any_eq_true.1 hasClass
  have cover : ∀ ty ∈ narrow, ty = .null ∨ ty = object := by
    rcases sentinel_form found with ⟨-, -, cover⟩ | ⟨nominal, -, -, -, -, cover⟩
    · rcases cover object object_mem with rfl | rfl <;> cases isPointer
    · intro ty ty_mem
      rcases cover object object_mem with rfl | rfl
      · cases isPointer
      · exact cover ty ty_mem
  have findObject : narrow.find? pointerMember = some object := by
    refine find_only object_mem isPointer fun ty ty_mem other => ?_
    rcases cover ty ty_mem with rfl | same
    · cases other
    · exact same
  have widened (address : Address) : stored machine (.alternative narrow) (.alternative wide) (.ptr address) =
      .ok (.general (codeOf (if address = 0 then .null else object)) address 0) := by
    rw [stored_widen found found' (by decide), widenDedicated.eq_def, AlternativeLayout.llvm, if_pos rfl, findObject, expect_some,
      ok_bind]
    show (tag (if address = 0 then .null else object) >>= _) = _
    have known : tag (if address = 0 then .null else object) = .ok (codeOf (if address = 0 then .null else object)) := by
      split_ifs
      · rfl
      · exact coded_of_general found' (subset _ object_mem)
    rw [known, ok_bind]
    rfl
  intro form stored_
  rw [stored_eq found alternative within holds] at stored_
  rcases cover member within with rfl | rfl
  · obtain ⟨address, rfl⟩ := holds_ptr rfl holds
    cases stored_
    have isNull : address = 0 := holds.2
    subst isNull
    exact ⟨_, stored_of_fields found' alternative' (subset _ within) holds (wrapFields_unit rfl), _, widened 0, rfl⟩
  · obtain ⟨address, rfl⟩ := holds_ptr (pointerMember_type isPointer) holds
    cases stored_
    have notNull : address ≠ 0 := by
      have known := holds.2
      cases member with
      | named name => exact known.1
      | _ => cases isPointer
    refine ⟨_, stored_of_fields found' alternative' (subset _ within) holds (wrapFields_text (.inr isPointer) address), _,
      widened address, ?_⟩
    rw [if_neg notNull]

theorem not_carries_of_error {same : Operand → Operand → Prop} {form : Operand} {refusal : Refusal}
    (stored_ : stored machine member (.alternative narrow) operand = .ok form)
    (refused : stored machine (.alternative narrow) (.alternative wide) form = .error refusal) :
    ¬Carries same machine narrow wide member operand := by
  intro converts
  obtain ⟨-, -, converted, conversion, -⟩ := converts form stored_
  rw [refused] at conversion
  cases conversion

theorem holds_null : Holds machine .null (.ptr 0) := ⟨rfl, rfl⟩

theorem holds_endOfFile : Holds machine .endOfFile (.ptr machine.eof) := ⟨rfl, rfl⟩

theorem holds_of_error (isError : isErrorType member = true) :
    Holds machine member (.handleResult true 0 (machine.errorCode 0)) := by
  refine ⟨isErrorType_type isError, ?_⟩
  show if isErrorType member = true then true = true ∧ machine.errorCode 0 = machine.errorCode 0 else true = false
  rw [if_pos isError]
  exact ⟨rfl, rfl⟩

theorem not_carries_pointer (found : AlternativeLayout.of narrow = some .sentinel)
    (found' : AlternativeLayout.of wide = some .general) (alternative : IsAlternative narrow)
    (noClass : narrow.any pointerMember = false) :
    ∃ member ∈ narrow, ∃ operand, Holds machine member operand ∧ ∀ same, ¬Carries same machine narrow wide member operand := by
  have refused (address : Address) : stored machine (.alternative narrow) (.alternative wide) (.ptr address) = .error .panic := by
    have missing : narrow.find? pointerMember = none := by
      simpa [List.find?_eq_none] using List.any_eq_false.1 noClass
    rw [stored_widen found found' (by decide), widenDedicated.eq_def, AlternativeLayout.llvm, if_pos rfl, missing]
    rfl
  rcases sentinel_form found with ⟨-, eof_mem, -⟩ | ⟨-, -, -, -, null_mem, -⟩
  · exact ⟨.endOfFile, eof_mem, .ptr machine.eof, holds_endOfFile, fun same =>
      not_carries_of_error (stored_eq found alternative eof_mem holds_endOfFile) (refused _)⟩
  · exact ⟨.null, null_mem, .ptr 0, holds_null, fun same =>
      not_carries_of_error (stored_eq found alternative null_mem holds_null) (refused _)⟩

theorem not_carries_net {layout : AlternativeLayout}
    (found : AlternativeLayout.of narrow = some layout) (kind : layout = .statusPointer ∨ layout = .statusEndpoint)
    (found' : AlternativeLayout.of wide = some .general) (alternative : IsAlternative narrow) :
    ∃ member ∈ narrow, ∃ operand, Holds machine member operand ∧ ∀ same, ¬Carries same machine narrow wide member operand := by
  have net : netOrError narrow = true := by
    have known := layoutSays found
    rcases kind with rfl | rfl <;> exact known.1
  simp only [netOrError, orError, Bool.and_eq_true, List.any_eq_true] at net
  obtain ⟨-, error, error_mem, isError⟩ := net
  refine ⟨error, error_mem, _, holds_of_error isError, fun same => ?_⟩
  have formed := stored_eq found alternative error_mem (@holds_of_error machine error isError)
  rcases kind with rfl | rfl
  · rw [represent, if_pos isError] at formed
    exact not_carries_of_error formed (stored_widen found found' (by decide))
  · rw [represent, if_pos isError] at formed
    exact not_carries_of_error formed (stored_widen found found' (by decide))

theorem not_region (found : AlternativeLayout.of narrow = some .region) (found' : AlternativeLayout.of wide = some .general)
    (subset : ∀ ty ∈ narrow, ty ∈ wide) : False := by
  obtain ⟨-, -, pointer⟩ := layoutSays found
  obtain ⟨ty, within, isPointer_⟩ := List.any_eq_true.1 pointer
  have general := (isGeneral_of_layout found' (subset ty within)).2
  cases ty with
  | pointer element length => rcases general with stage | isClass | isVector_ <;> contradiction
  | _ => cases isPointer_

/-! ### Into a result of the runtime -/

theorem codeOf_textOrNumber (kind : isTextOrNumber member = true) :
    codeOf member ≠ 0x10 ∧ ∀ unit : Sentinel, codeOf member ≠ codeOf unit.member := by
  cases member with
  | integer integer => cases integer <;> exact ⟨by decide, fun unit => by cases unit <;> decide⟩
  | float float => cases float <;> exact ⟨by decide, fun unit => by cases unit <;> decide⟩
  | boolean | string => exact ⟨by decide, fun unit => by cases unit <;> decide⟩
  | _ => cases kind

theorem isGeneral_of_textOrNumber (kind : isTextOrNumber member = true) : IsGeneral member := by
  cases member with
  | integer _ | boolean | string => exact ⟨⟨_, rfl⟩, .inl rfl⟩
  | float float => cases float <;> exact ⟨⟨_, rfl⟩, .inl rfl⟩
  | _ => cases kind

section

variable {value : Option Ty} {unit : Sentinel}

theorem narrowLayout_eq (form : StatusForm wide value (some unit)) (code : BitVec 32) (pointer : Address) (payload : BitVec 64) :
    narrowLayout machine (.general code pointer payload) wide =
      .ok (.handleResult (code == 0x10) (if code = codeOf unit.member then unit.pointer machine else pointer) payload) := by
  obtain ⟨error, -, found, isError⟩ := form.find_error
  have errorTag : tag error = .ok 0x10 := by
    rw [tag, memberCode_error isError]
    rfl
  have findUnit : wide.find? (fun member => member == .notAvailable || member == .endOfFile) = some unit.member := by
    refine find_only (form.sentinel_mem unit rfl) (by cases unit <;> rfl) fun ty within isUnit_ => form.unit_eq rfl ty within ?_
    simp only [Bool.or_eq_true, beq_iff_eq] at isUnit_
    rcases isUnit_ with rfl | rfl <;> rfl
  have unitTag : tag unit.member = .ok (codeOf unit.member) := by cases unit <;> rfl
  rw [narrowLayout.eq_def]
  simp only [found, expect_some, ok_bind, errorTag, form.sentinel_of, findUnit, unitTag]
  rfl

theorem carries_narrowed (form : StatusForm wide value (some unit)) (found : AlternativeLayout.of narrow = some .general)
    (found' : AlternativeLayout.of wide = some .status) (alternative : IsAlternative narrow) (alternative' : IsAlternative wide)
    (subset : ∀ ty ∈ narrow, ty ∈ wide) (within : member ∈ narrow) (holds : Holds machine member operand) :
    Carries Eq machine narrow wide member operand := by
  have narrowed (code : BitVec 32) (pointer : Address) (payload : BitVec 64) :
      stored machine (.alternative narrow) (.alternative wide) (.general code pointer payload) =
        .ok (.handleResult (code == 0x10) (if code = codeOf unit.member then unit.pointer machine else pointer) payload) := by
    refine stored_of_coerced (slot_type found') ?_ fun other equal => by cases equal; rfl
    rw [coerceOperand_construct (slot_type found) (slot_type found') (by decide) (by decide)]
    simp only [construct, found', generalAlternative_of found, if_pos, Option.isSome_some, narrowLayout_eq form]
    rfl
  have direct := stored_eq found' alternative' (subset member within) holds
  intro formed stored_
  rcases form.cover member (subset member within) with same | same | isError
  · have text := form.textOrNumber rfl member same
    have isValue := (form.value_mem member same).2
    have scalar : isScalarType operand.type = true ∨ operand.type = .ptr := by
      have typed := holds.1
      cases member with
      | integer kind => cases kind <;> rw [llvmType, Option.some.injEq] at typed <;> rw [← typed] <;> exact .inl rfl
      | float kind => cases kind <;> rw [llvmType, Option.some.injEq] at typed <;> rw [← typed] <;> exact .inl rfl
      | boolean => rw [← Option.some.inj typed]; exact .inl rfl
      | string => exact .inr (Option.some.inj typed).symm
      | _ => cases text
    obtain ⟨pointer, payload, fields, wrapped, -⟩ := wrapSuccess_fields (isGeneral_of_textOrNumber text) isValue holds scalar
    have represented : represent machine .status member operand = .ok (.handleResult false pointer payload) := by
      have noResult : operand.type ≠ .handleResult := by
        intro result
        rw [result] at scalar
        rcases scalar with scalar | scalar <;> cases scalar
      have noNa : member ≠ .notAvailable := by
        rintro rfl
        cases text
      have noEof : member ≠ .endOfFile := by
        rintro rfl
        cases text
      rw [represent, if_neg noResult, if_neg noNa, if_neg noEof, if_pos scalar, wrapped]
    rw [stored_of_fields found alternative within holds fields] at stored_
    cases stored_
    obtain ⟨noError, noUnit⟩ := codeOf_textOrNumber text
    refine ⟨_, direct.trans represented, _, narrowed _ pointer payload, ?_⟩
    rw [if_neg (noUnit unit), beq_eq_false_iff_ne.2 noError]
  · rw [Option.map_some, Option.some.injEq] at same
    subst same
    rw [stored_of_fields found alternative within holds (wrapFields_unit (isUnit_member unit))] at stored_
    cases stored_
    refine ⟨_, direct.trans (represent_status_unit unit holds), _, narrowed _ 0 0, ?_⟩
    rw [if_pos rfl]
    cases unit <;> rfl
  · obtain ⟨record, rfl⟩ := holds_error isError holds
    rw [stored_of_fields found alternative within holds (wrapFields_error isError _ _ _)] at stored_
    cases stored_
    refine ⟨_, direct.trans (represent_status_error true record _), _, narrowed _ record _, ?_⟩
    have noUnit : (0x10 : BitVec 32) ≠ codeOf unit.member := by cases unit <;> decide
    rw [codeOf_error isError, if_neg noUnit]
    rfl

theorem carries_input (form : StatusForm wide value (some unit)) (found : AlternativeLayout.of narrow = some .sentinel)
    (found' : AlternativeLayout.of wide = some .status) (alternative : IsAlternative narrow) (alternative' : IsAlternative wide)
    (subset : ∀ ty ∈ narrow, ty ∈ wide) (within : member ∈ narrow) (holds : Holds machine member operand) :
    Carries Eq machine narrow wide member operand := by
  rcases sentinel_form found with ⟨-, eof_mem, cover⟩ | ⟨-, -, -, -, null_mem, -⟩
  · have isEnd : unit = .endOfFile := by
      have equal := form.unit_eq rfl .endOfFile (subset _ eof_mem) rfl
      cases unit with
      | notAvailable => cases equal
      | endOfFile => rfl
    subst isEnd
    have noHandle : isIntegerHandleType (.alternative narrow) = false := by
      rw [isIntegerHandleType, anyIntegerHandle_eq, List.any_eq_false]
      intro ty ty_mem
      rcases cover ty ty_mem with rfl | rfl <;> simp [isIntegerHandleType]
    have converted (address : Address) :
        stored machine (.alternative narrow) (.alternative wide) (.ptr address) = .ok (.handleResult false address 0) := by
      refine stored_of_coerced (slot_type found') ?_ fun other equal => by cases equal; rfl
      rw [coerceOperand_construct (slot_type found) (slot_type found') (by decide) (by decide)]
      have constructed : construct machine (.ptr address) (.alternative narrow) (.alternative wide) =
          (wrapSuccess machine (.ptr address) (.alternative narrow)).map some := by
        simp only [construct, found', generalAlternative_of found, form.sentinel_of]
        rw [construct.constructSuccess.eq_def, slot_type found]
        simp [AlternativeLayout.llvm, Sentinel.member]
      rw [constructed, wrapSuccess, if_neg (by simp [noHandle])]
      rfl
    intro formed stored_
    rw [stored_eq found alternative within holds] at stored_
    have direct := stored_eq found' alternative' (subset member within) holds
    rcases cover member within with rfl | rfl
    · obtain ⟨address, rfl⟩ := holds_ptr rfl holds
      cases stored_
      have represented : represent machine .status .string (.ptr address) = .ok (.handleResult false address 0) := by
        rw [represent, if_neg (fun same => by cases same), if_neg (by decide), if_neg (by decide), if_pos (.inr rfl), wrapSuccess]
        rfl
      exact ⟨_, direct.trans represented, _, converted address, rfl⟩
    · obtain ⟨address, rfl⟩ := holds_ptr rfl holds
      cases stored_
      have isEnd : address = machine.eof := holds.2
      subst isEnd
      exact ⟨_, direct.trans (represent_status_unit .endOfFile holds), _, converted _, rfl⟩
  · have equal := form.unit_eq rfl .null (subset _ null_mem) rfl
    cases unit <;> cases equal

theorem not_in_status {layout : AlternativeLayout} (form : StatusForm wide value (some unit))
    (found : AlternativeLayout.of narrow = some layout)
    (kind : layout = .statusPointer ∨ layout = .statusEndpoint ∨ layout = .region) (subset : ∀ ty ∈ narrow, ty ∈ wide) :
    False := by
  have kinds (ty : Ty) (within : ty ∈ narrow) : isTextOrNumber ty = true ∨ ty = unit.member ∨ isErrorType ty = true := by
    rcases form.cover ty (subset ty within) with same | same | isError
    · exact .inl (form.textOrNumber rfl ty same)
    · exact .inr (.inl (Option.some.inj same).symm)
    · exact .inr (.inr isError)
  -- No type of the network is one of these.
  have net (short : String) (other : short ≠ "Error") (full : "HOST.Net." ++ short ≠ "Error")
      (present : narrow.any (isNetType short) = true) : False := by
    obtain ⟨ty, within, isNet⟩ := List.any_eq_true.1 present
    rcases kinds ty within with text | rfl | isError
    · cases ty <;> first | exact absurd text Bool.false_ne_true | exact absurd isNet Bool.false_ne_true
    · cases unit <;> cases isNet
    · cases ty with
      | named name =>
        simp only [isNetType, Bool.or_eq_true, beq_iff_eq] at isNet
        simp only [isErrorType, beq_iff_eq] at isError
        subst isError
        rcases isNet with same | same
        · exact full same.symm
        · exact other same.symm
      | importedNamed module name =>
        simp only [isNetType, beq_iff_eq] at isNet
        simp only [isErrorType, beq_iff_eq] at isError
        exact other (isNet.symm.trans isError)
      | _ => cases isNet
  have known := layoutSays found
  rcases kind with rfl | rfl | rfl
  · exact net "Addresses" (by decide) (by decide) known.2
  · exact net "Endpoint" (by decide) (by decide) known.2
  · rcases kinds .null known.2.1 with text | same | isError
    · cases text
    · cases unit <;> cases same
    · cases isError

end

/-! ### What is kept -/

/-- The layouts that the general one takes the values of: a pointer needs a class of this program. -/
def Widens (source target : AlternativeLayout) (members : List Ty) : Prop :=
  target = .general → match source with
    | .sentinel => members.any pointerMember = true
    | .statusPointer | .statusEndpoint => False
    | .status | .general | .region => True

/-- The unit of a result of the runtime keeps its pointer in the general layout. -/
def KeepsUnits (source target : AlternativeLayout) (members : List Ty) : Prop :=
  target = .general → source = .status → Sentinel.of members = none

/-- Every value of every member is converted. -/
def CarriesAll (same : Ty → Operand → Operand → Prop) (machine : Machine) (narrow wide : List Ty) : Prop :=
  ∀ member ∈ narrow, ∀ operand, Holds machine member operand → Carries (same member) machine narrow wide member operand

theorem holds_unit (unit : Sentinel) : ∃ operand, Holds machine unit.member operand := by
  cases unit with
  | notAvailable => exact ⟨.optionalFloat none, rfl, fun _ => rfl⟩
  | endOfFile => exact ⟨.ptr machine.eof, holds_endOfFile⟩

/-- A conversion between two layouts keeps every value or lacks code; only the words of a unit may differ. -/
theorem carriesAll_iff {source target : AlternativeLayout} (found : AlternativeLayout.of narrow = some source)
    (found' : AlternativeLayout.of wide = some target) (alternative : IsAlternative narrow) (alternative' : IsAlternative wide)
    (subset : ∀ ty ∈ narrow, ty ∈ wide) :
    (CarriesAll SameForm machine narrow wide ↔ Widens source target narrow) ∧
      (CarriesAll (fun _ => Eq) machine narrow wide ↔ Widens source target narrow ∧ KeepsUnits source target narrow) := by
  -- What converts to the same form converts up to the words of a unit.
  have kept (widens : Widens source target narrow) (units : KeepsUnits source target narrow)
      (all : CarriesAll (fun _ => Eq) machine narrow wide) :
      (CarriesAll SameForm machine narrow wide ↔ Widens source target narrow) ∧
        (CarriesAll (fun _ => Eq) machine narrow wide ↔ Widens source target narrow ∧ KeepsUnits source target narrow) := by
    refine ⟨iff_of_true (fun member within operand holds => ?_) widens, iff_of_true all ⟨widens, units⟩⟩
    exact (all member within operand holds).mono fun first second same => .inl same
  have lost (widens : ¬Widens source target narrow)
      (some_ : ∃ member ∈ narrow, ∃ operand, Holds machine member operand ∧
        ∀ same, ¬Carries same machine narrow wide member operand) :
      (CarriesAll SameForm machine narrow wide ↔ Widens source target narrow) ∧
        (CarriesAll (fun _ => Eq) machine narrow wide ↔ Widens source target narrow ∧ KeepsUnits source target narrow) := by
    obtain ⟨member, within, operand, holds, never⟩ := some_
    exact ⟨iff_of_false (fun all => never _ (all member within operand holds)) widens,
      iff_of_false (fun all => never _ (all member within operand holds)) fun known => widens known.1⟩
  by_cases differ : source = target
  · subst differ
    refine kept (fun general => ?_) (fun general status => ?_) fun member within operand holds =>
      carries_same found found' alternative alternative' within (subset member within) holds
    · subst general
      trivial
    · rw [general] at status
      cases status
  rcases wider_layout found found' alternative subset differ with rfl | ⟨rfl, several⟩
  · cases source with
    | general => exact absurd rfl differ
    | region => exact (not_region found found' subset).elim
    | statusPointer => exact lost (fun widens => widens rfl) (not_carries_net found (.inl rfl) found' alternative)
    | statusEndpoint => exact lost (fun widens => widens rfl) (not_carries_net found (.inr rfl) found' alternative)
    | sentinel =>
      cases hasClass : narrow.any pointerMember with
      | true =>
        refine kept (fun _ => hasClass) (fun _ status => by cases status) fun member within operand holds => ?_
        exact carries_pointer found found' alternative alternative' subset hasClass within holds
      | false =>
        refine lost (fun widens => ?_) (not_carries_pointer found found' alternative hasClass)
        have known : narrow.any pointerMember = true := widens rfl
        rw [hasClass] at known
        cases known
    | status =>
      have each {member : Ty} (within : member ∈ narrow) {operand : Operand} (holds : Holds machine member operand) :=
        carries_status found found' alternative alternative' subset within holds
      refine ⟨iff_of_true (fun member within operand holds => (each within holds).1) fun _ => trivial, ?_⟩
      obtain ⟨value, sentinel, form⟩ := status_form found
      constructor
      · intro all
        refine ⟨fun _ => trivial, fun _ _ => ?_⟩
        rw [form.sentinel_of]
        cases sentinel with
        | none => rfl
        | some unit =>
          obtain ⟨operand, holds⟩ := @holds_unit machine unit
          have within := form.sentinel_mem unit rfl
          have known := (each within holds).2.1 (all unit.member within operand holds)
          rw [isUnit_member] at known
          cases known
      · rintro ⟨-, units⟩ member within operand holds
        refine (each within holds).2.2 ?_
        cases isUnit_ : isUnit member with
        | false => rfl
        | true =>
          have known := sentinel_of_unit form within isUnit_
          rw [← form.sentinel_of, units rfl rfl] at known
          cases known
  · obtain ⟨value, sentinel, form⟩ := status_form found'
    cases sentinel with
    | none => exact absurd (form.two rfl) several
    | some unit =>
      have widens : Widens source .status narrow := fun general => by cases general
      have units : KeepsUnits source .status narrow := fun general => by cases general
      cases source with
      | status => exact absurd rfl differ
      | general => exact kept widens units fun member within operand holds =>
          carries_narrowed form found found' alternative alternative' subset within holds
      | sentinel => exact kept widens units fun member within operand holds =>
          carries_input form found found' alternative alternative' subset within holds
      | statusPointer => exact (not_in_status form found (.inl rfl) subset).elim
      | statusEndpoint => exact (not_in_status form found (.inr (.inl rfl)) subset).elim
      | region => exact (not_in_status form found (.inr (.inr rfl)) subset).elim

end

/-! ### What native code keeps of an alternative type -/

/-- Distinct members have distinct tags. A member is read back where its layout has words for it, and a value is
converted where the layouts say how. -/
theorem alternative_kept_iff (machine : Machine) :
    (∀ members, AlternativeLayout.of members = some .general → ∀ first ∈ members, ∀ second ∈ members,
      ∃ code other, tag first = .ok code ∧ tag second = .ok other ∧ (code = other → first = second)) ∧
    (∀ members layout, AlternativeLayout.of members = some layout → IsAlternative members → ∀ member ∈ members,
      ∀ operand, Holds machine member operand → (ReadsBack machine members member operand ↔ GivesBack layout member)) ∧
    ∀ narrow wide source target, AlternativeLayout.of narrow = some source → AlternativeLayout.of wide = some target →
      IsAlternative narrow → IsAlternative wide → (∀ ty ∈ narrow, ty ∈ wide) →
        (CarriesAll SameForm machine narrow wide ↔ Widens source target narrow) ∧
          (CarriesAll (fun _ => Eq) machine narrow wide ↔ Widens source target narrow ∧ KeepsUnits source target narrow) := by
  refine ⟨fun members layout first first_mem second second_mem => ?_, ?_, ?_⟩
  · exact ⟨codeOf first, codeOf second, coded_of_general layout first_mem, coded_of_general layout second_mem,
      tag_injective layout first_mem second_mem⟩
  · intro members layout found alternative member within operand holds
    exact readsBack_iff found alternative within holds
  · intro narrow wide source target found found' alternative alternative' subset
    exact carriesAll_iff found found' alternative alternative' subset

/-- A machine whose texts lie at two known addresses. -/
def plainMachine : Machine where
  na := 16
  eof := 32
  na_ne_zero := by decide
  eof_ne_zero := by decide
  na_ne_eof := by decide
  fpext := zext 64
  fptrunc := trunc 32
  fptrunc_fpext := trunc_zext (by decide)
  errorCode := fun _ => 0

/-- `EOF` as an `INPUT` may return it has no form in `STRING OR EOF OR INTEGER`, and an object of an imported class
beside an `Error` is read back as no object. -/
theorem input_not_widened :
    ¬CarriesAll SameForm plainMachine [.string, .endOfFile] [.string, .endOfFile, .integer .int32] ∧
      ¬ReadsBack plainMachine [.named "#3.Box", .named "Error"] (.named "#3.Box") (.ptr 48) := by
  constructor
  · have narrow : IsAlternative [.string, .endOfFile] := ⟨by decide, by decide, by simp [NumericClass.ofLiteral]⟩
    have wide : IsAlternative [.string, .endOfFile, .integer .int32] :=
      ⟨by decide, by decide, by simp [NumericClass.ofLiteral]⟩
    rw [(@carriesAll_iff plainMachine _ _ .sentinel .general (by decide) (by decide) narrow wide (by simp)).1]
    intro widens
    exact absurd (widens rfl) (by decide)
  · have alternative : IsAlternative [.named "#3.Box", .named "Error"] :=
      ⟨by decide, by decide, by simp [NumericClass.ofLiteral]⟩
    rw [@readsBack_iff plainMachine _ _ _ .status (by decide) alternative (by simp) ⟨by decide, by decide⟩]
    rintro (missing | ⟨known, -⟩)
    · exact absurd missing (by decide)
    · exact absurd (known (by decide)) (by decide)

end BasicNext.Native
