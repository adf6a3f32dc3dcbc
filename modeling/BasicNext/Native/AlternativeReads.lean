import BasicNext.Native.AlternativeConversions

/-!
# Members read out of alternative types

A load takes a member out of an alternative type that is known to hold it. The general layout gives every
member back; the other layouts lose what they have no words for.
-/

namespace BasicNext.Native

open Lib.Llvm (zext)

section

variable {machine : Machine} {members : List Ty} {member : Ty} {operand : Operand}

/-- A value that is stored in an alternative type and loaded as its member is the value again. A unit may keep
the form of the alternative type, which says which one it is. -/
def ReadsBack (machine : Machine) (members : List Ty) (member : Ty) (operand : Operand) : Prop :=
  let slot := .alternative members
  ∃ form, stored machine member slot operand = .ok form ∧
    ∃ read, loadAlternative machine slot (loadedType slot member) form = .ok read ∧
      (stored machine (loadedType slot member) member read = .ok operand ∨
        isUnit member = true ∧ loadedType slot member = slot ∧ read = form)

def GivesBack (layout : AlternativeLayout) (member : Ty) : Prop :=
  llvmType member = none ∨ match layout with
    | .general => True
    | .sentinel => llvmType member = some .ptr
    | .status =>
      (llvmType member = some .ptr → member = .string ∨ isIntegerHandleType member = true) ∧
        llvmType member ≠ some .vector ∧ llvmType member ≠ some .region ∧ llvmType member ≠ some .statusPointer
    | .statusPointer => isErrorType member = true ∨ llvmType member = some .statusPointer
    | .statusEndpoint => isErrorType member = true
    | .region => llvmType member ≠ some .region

theorem stored_same {ty : Ty} (typed : llvmType ty = some operand.type) : stored machine ty ty operand = .ok operand :=
  stored_of_coerced typed (coerceOperand_same typed typed) fun form equal => by cases equal; rfl

/-! ### The general layout -/

theorem isErrorType_type (isError : isErrorType member = true) : llvmType member = some .handleResult := by
  cases member with
  | named name =>
    rw [isErrorType, beq_iff_eq] at isError
    subst isError
    decide
  | importedNamed module name =>
    rw [isErrorType, beq_iff_eq] at isError
    subst isError
    rfl
  | _ => cases isError

/-- What can be a member of an alternative type with the general layout. -/
def IsGeneral (member : Ty) : Prop :=
  (∃ code, memberCode member = some code) ∧ (stageOneMember member = true ∨ pointerMember member = true ∨ vectorMember member = true)

theorem isGeneral_of_layout (layout : AlternativeLayout.of members = some .general) (within : member ∈ members) :
    IsGeneral member := by
  have known := layoutSays layout
  simp only [LayoutSays, generalMembers, generalMembersOf, Bool.and_eq_true, map_fst_typedMembers] at known
  obtain ⟨-, all⟩ := known
  constructor
  · exact (memberCode_distinct layout).1 member within
  · rw [typedMembers_eq, List.all_map, List.all_eq_true] at all
    have kind := all member within
    simpa [pointerMember, vectorMember, or_assoc] using kind

theorem pointerMember_type (isPointer : pointerMember member = true) : llvmType member = some .ptr := by
  cases member with
  | named name =>
    simp only [pointerMember, pointerMemberOf, Bool.and_eq_true, beq_iff_eq] at isPointer
    exact isPointer.2
  | _ => cases isPointer

theorem vectorMember_type (isVector_ : vectorMember member = true) : llvmType member = some .vector := by
  simp only [vectorMember, vectorMemberOf, Bool.and_eq_true, beq_iff_eq] at isVector_
  exact isVector_.2

theorem holds_ptr (typed : llvmType member = some .ptr) (holds : Holds machine member operand) :
    ∃ address, operand = .ptr address := by
  rw [holds.1] at typed
  cases operand with
  | ptr address => exact ⟨address, rfl⟩
  | _ => cases typed

theorem extract_wrapScalar (stage : stageOneMember member = true) (noError : ¬isErrorType member = true)
    (noText : ¬(member = .string ∨ pointerMember member = true)) (holds : Holds machine member operand) :
    ∃ payload, wrapScalar machine member operand = .ok (0, payload) ∧ extractScalar machine payload member = .ok operand := by
  have typed := holds.1
  -- An integer, which takes 64 bits.
  have integer (isInteger_ : isIntegerType operand.type = true)
      (wraps : wrapScalar machine member operand = (do
        let memberType ← expect (llvmType member)
        let value ← operand.withType memberType
        let bits ← value.extended (isUnsigned member)
        pure (0, bits)))
      (extracts : ∀ payload, extractScalar machine payload member = expect (llvmType member) >>= Operand.truncated payload) :
      ∃ payload, wrapScalar machine member operand = .ok (0, payload) ∧ extractScalar machine payload member = .ok operand := by
    obtain ⟨bits, extended⟩ := extended_ok (isUnsigned member) (.inl isInteger_)
    refine ⟨bits, ?_, ?_⟩
    · rw [wraps, typed, expect_some, ok_bind, Operand.withType.eq_def, if_pos rfl, ok_bind, extended]
      rfl
    · rw [extracts, typed, expect_some, ok_bind]
      exact truncated_extended isInteger_ extended
  cases member with
  | integer kind =>
    have isInteger_ : isIntegerType operand.type = true := by
      cases kind <;> rw [llvmType, Option.some.injEq] at typed <;> rw [← typed] <;> rfl
    exact integer isInteger_ rfl fun payload => rfl
  | named name =>
    have isInteger_ : isIntegerType operand.type = true := by
      have days : (name == "DATE" || name == "TIME") = true := by
        simpa [stageOneMember, isDateOrTime, isInteger, isFloat, noError] using stage
      rw [llvmType, namedType, if_pos days, Option.some.injEq] at typed
      rw [← typed]
      rfl
    exact integer isInteger_ rfl fun payload => rfl
  | float kind =>
    cases kind with
    | float32 =>
      cases operand with
      | float bits =>
        refine ⟨machine.fpext bits, rfl, ?_⟩
        show Except.ok (Operand.float (machine.fptrunc (machine.fpext bits))) = _
        rw [machine.fptrunc_fpext]
      | _ => cases typed
    | float64 =>
      cases operand with
      | double bits => exact ⟨bits, rfl, rfl⟩
      | _ => cases typed
  | boolean =>
    cases operand with
    | i1 bit =>
      refine ⟨zext 64 (BitVec.ofBool bit), rfl, ?_⟩
      cases bit <;> rfl
    | _ => cases typed
  | null =>
    cases operand with
    | ptr address =>
      have isNull : address = 0 := holds.2
      subst isNull
      exact ⟨0, rfl, rfl⟩
    | _ => cases typed
  | notAvailable =>
    cases operand with
    | optionalFloat number =>
      have missing : number = none := holds.2 rfl
      subst missing
      exact ⟨0, rfl, rfl⟩
    | _ => cases typed
  | endOfFile =>
    cases operand with
    | ptr address =>
      have isEnd : address = machine.eof := holds.2
      subst isEnd
      exact ⟨0, rfl, rfl⟩
    | _ => cases typed
  | string => exact absurd (.inl rfl) noText
  | importedNamed module name =>
    exact absurd (by simpa [stageOneMember, isInteger, isFloat, isDateOrTime] using stage) noError
  | _ => cases stage

theorem extract_wrapFields (general : IsGeneral member) (holds : Holds machine member operand) :
    ∃ pointer payload, wrapFields machine member operand = .ok (pointer, payload) ∧
      ∀ code, extract machine (.general code pointer payload) member = .ok operand := by
  by_cases text : member = .string ∨ pointerMember member = true
  · have typed : llvmType member = some .ptr := by
      rcases text with rfl | isPointer
      · rfl
      · exact pointerMember_type isPointer
    obtain ⟨address, rfl⟩ := holds_ptr typed holds
    refine ⟨address, 0, ?_, fun code => ?_⟩
    · rw [wrapFields.eq_def, if_pos text]
    · rw [extract.eq_def]
      exact if_pos text
  by_cases vector : vectorMember member = true
  · have typed := vectorMember_type vector
    rw [holds.1] at typed
    cases operand with
    | vector pointer length =>
      refine ⟨pointer, zext 64 length, ?_, fun code => ?_⟩
      · rw [wrapFields.eq_def, if_neg text, if_pos vector]
      · rw [extract.eq_def]
        simp only [if_neg text, if_pos vector]
        rw [trunc_zext (by decide)]
    | _ => cases typed
  by_cases isError : isErrorType member = true
  · have typed := isErrorType_type isError
    rw [holds.1] at typed
    cases operand with
    | handleResult error record code =>
      have flag : error = true := by
        have known := holds.2
        simp only [if_pos isError] at known
        exact known.1
      refine ⟨record, code, ?_, fun tag => ?_⟩
      · rw [wrapFields.eq_def, if_neg text, if_neg vector, if_pos isError]
      · rw [extract.eq_def]
        simp only [if_neg text, if_neg vector, if_pos isError]
        rw [flag]
    | _ => cases typed
  have stage : stageOneMember member = true := by
    rcases general.2 with stage | isPointer | isVector_
    · exact stage
    · exact absurd (.inr isPointer) text
    · exact absurd isVector_ vector
  have wrapped : wrapFields machine member operand = wrapScalar machine member operand := by
    rw [wrapFields.eq_def, if_neg text, if_neg vector, if_neg isError]
  have extracted (code : BitVec 32) (pointer : Address) (payload : BitVec 64) :
      extract machine (.general code pointer payload) member = extractScalar machine payload member := by
    rw [extract.eq_def]
    simp only [if_neg text, if_neg vector, if_neg isError]
  obtain ⟨payload, fields, back⟩ := extract_wrapScalar stage isError text holds
  exact ⟨0, payload, wrapped.trans fields, fun code => (extracted code 0 payload).trans back⟩

/-! ### Loads -/

variable {layout : AlternativeLayout}

theorem generalAlternative_of (found : AlternativeLayout.of members = some layout) :
    generalAlternative (.alternative members) = if layout = .general then some members else none := by
  rw [generalAlternative, found]
  simp

theorem any_isErrorType (within : member ∈ members) (isError : isErrorType member = true) :
    members.any isErrorType = true := List.any_eq_true.2 ⟨member, within, isError⟩

theorem narrows_eq (found : AlternativeLayout.of members = some layout) (within : member ∈ members) :
    narrows (.alternative members) member = match layout with
      | .general => true
      | .status =>
        member == .string || isInteger member || member == .boolean || isFloat member || llvmType member == some .ptr
      | .statusPointer => isErrorType member
      | .statusEndpoint => isErrorType member || llvmType member == some .vector
      | .sentinel | .region => false := by
  have slot : llvmType (.alternative members) = some layout.llvm := by rw [llvmType_alternative, found]; rfl
  have errors : (isErrorType member && members.any isErrorType) = isErrorType member := by
    cases isError : isErrorType member with
    | false => rfl
    | true => rw [any_isErrorType within isError]; rfl
  rw [narrows, generalAlternative_of found, narrowsToError, narrowsToEndpoint, slot]
  have first : (LlvmType.handleResult == .statusPointer) = false := rfl
  have second : (LlvmType.handleResult == .statusEndpoint) = false := rfl
  have third : (LlvmType.statusPointer == .handleResult) = false := rfl
  have fourth : (LlvmType.statusPointer == .statusEndpoint) = false := rfl
  have fifth : (LlvmType.statusEndpoint == .handleResult) = false := rfl
  cases layout <;> simp [AlternativeLayout.llvm, within, errors, first, second, third, fourth, fifth]

theorem slot_type (found : AlternativeLayout.of members = some layout) :
    llvmType (.alternative members) = some layout.llvm := by
  rw [llvmType_alternative, found]
  rfl

theorem loadedType_narrows (taken : narrows (.alternative members) member = true) :
    loadedType (.alternative members) member = member := by
  rw [loadedType, if_neg]
  rintro ⟨-, -, kept⟩
  rw [taken] at kept
  cases kept

theorem loadedType_same (same : llvmType (.alternative members) = llvmType member) :
    loadedType (.alternative members) member = member := by
  rw [loadedType, if_neg]
  exact fun differ => differ.2.1 same

theorem narrows_self (found : AlternativeLayout.of members = some layout)
    (alternative : IsAlternative members) : narrows (.alternative members) (.alternative members) = false := by
  have notMember : .alternative members ∉ members := fun within => (alternative.plain _ within).2 members rfl
  rw [narrows, generalAlternative_of found, narrowsToError, narrowsToEndpoint]
  simp only [notMember, decide_false, Bool.and_false, isErrorType, Bool.false_and, Bool.or_self]
  split_ifs
  · exact decide_eq_false notMember
  · rfl

theorem loadedType_kept (found : AlternativeLayout.of members = some layout)
    (kept : narrows (.alternative members) member = false) (differ : some layout.llvm ≠ llvmType member) :
    loadedType (.alternative members) member = .alternative members := by
  rw [loadedType, if_pos]
  exact ⟨by rw [slot_type found]; rfl, slot_type found ▸ differ, kept⟩

theorem stored_plain {source : Ty} {sourceType targetType : LlvmType} (plain : ∀ options, member ≠ .alternative options)
    (first : llvmType source = some sourceType) (second : llvmType member = some targetType) (differ : sourceType ≠ targetType)
    (kind : sourceType = .ptr ∨ sourceType = .statusPointer ∨ sourceType = .vector ∧ targetType ≠ .region)
    (typed : operand.type = sourceType) :
    stored machine source member operand = .error .illTyped := by
  have noResult : sourceType ≠ .handleResult := by
    rcases kind with rfl | rfl | ⟨rfl, -⟩ <;> decide
  have unconstructed : construct machine operand source member = .ok none := by
    cases member with
    | alternative options => exact absurd rfl (plain options)
    | _ => rfl
  have left : coerceOperand machine source member operand = .ok operand := by
    rw [coerceOperand_construct first second differ (by simp [noResult]), unconstructed]
    show coercePlain machine source member sourceType targetType operand = _
    rcases kind with rfl | rfl | ⟨rfl, noRegion⟩
    · cases operand <;> cases typed
      simp [coercePlain, isIntegerType]
    · cases operand <;> cases typed
      simp [coercePlain, isIntegerType]
    · cases operand <;> cases typed
      cases targetType <;> first | exact absurd rfl noRegion | simp [coercePlain, isIntegerType]
  exact stored_of_mismatch second left (typed ▸ differ)

theorem readsBack_kept (found : AlternativeLayout.of members = some layout)
    (alternative : IsAlternative members) (within : member ∈ members) (holds : Holds machine member operand)
    (kept : narrows (.alternative members) member = false) (differ : some layout.llvm ≠ llvmType member) :
    ReadsBack machine members member operand ↔ ∃ form, represent machine layout member operand = .ok form ∧
        (stored machine (.alternative members) member form = .ok operand ∨ isUnit member = true) := by
  have load {form : Operand} (represented : represent machine layout member operand = .ok form) :
      loadAlternative machine (.alternative members) (.alternative members) form = .ok form := by
    rw [loadAlternative, narrows_self found alternative, if_neg Bool.false_ne_true, slot_type found,
      if_pos (by rw [represent_type represented])]
  rw [ReadsBack, stored_eq found alternative within holds, loadedType_kept found kept differ]
  constructor
  · rintro ⟨form, represented, read, loads, back⟩
    rw [load represented] at loads
    cases loads
    exact ⟨form, represented, back.imp_right fun unit => unit.1⟩
  · rintro ⟨form, represented, back⟩
    exact ⟨form, represented, form, load represented, back.imp_right fun unit => ⟨unit, rfl, rfl⟩⟩

theorem readsBack_same (found : AlternativeLayout.of members = some layout)
    (alternative : IsAlternative members) (within : member ∈ members) (holds : Holds machine member operand)
    (kept : narrows (.alternative members) member = false) (same : llvmType member = some layout.llvm)
    (represented : represent machine layout member operand = .ok operand) : ReadsBack machine members member operand := by
  have loaded := loadedType_same ((slot_type found).trans same.symm)
  refine ⟨operand, (stored_eq found alternative within holds).trans represented, operand, ?_, .inl ?_⟩
  · rw [loaded, loadAlternative, if_neg (by simp [kept]), if_pos holds.1]
  · rw [loaded]
    exact stored_same holds.1

theorem readsBack_general (layout : AlternativeLayout.of members = some .general) (alternative : IsAlternative members)
    (within : member ∈ members) (holds : Holds machine member operand) : ReadsBack machine members member operand := by
  have general := isGeneral_of_layout layout within
  obtain ⟨pointer, payload, fields, back⟩ := extract_wrapFields general holds
  obtain ⟨code, coded⟩ := general.1
  have taken := narrows_eq layout within
  refine ⟨.general (BitVec.ofNat 32 code) pointer payload, ?_, operand, ?_, .inl ?_⟩
  · rw [stored_eq layout alternative within holds, represent, fields, ok_bind, tag, coded]
    rfl
  · rw [loadedType_narrows taken, loadAlternative, if_pos taken, emitNarrowedLoad.eq_def, generalAlternative_of layout, if_pos rfl]
    exact back (BitVec.ofNat 32 code)
  · rw [loadedType_narrows taken]
    exact stored_same holds.1

theorem readsBack_sentinel (layout : AlternativeLayout.of members = some .sentinel) (alternative : IsAlternative members)
    (within : member ∈ members) (holds : Holds machine member operand) :
    ReadsBack machine members member operand ↔ GivesBack .sentinel member := by
  have kept : narrows (.alternative members) member = false := narrows_eq layout within
  by_cases same : llvmType member = some .ptr
  · refine iff_of_true ?_ (.inr same)
    obtain ⟨address, rfl⟩ := holds_ptr same holds
    exact readsBack_same layout alternative within holds kept same rfl
  · have differ : some LlvmType.ptr ≠ llvmType member := fun equal => same equal.symm
    refine iff_of_false ?_ ?_
    · rw [readsBack_kept layout alternative within holds kept differ]
      rintro ⟨form, represented, back | isUnit_⟩
      · have typed := represent_type represented
        rw [stored_plain (alternative.plain member within).2 (slot_type layout) holds.1
          (fun equal => differ ((congrArg some equal).trans holds.1.symm)) (.inl rfl) typed] at back
        cases back
      · rcases sentinel_form layout with ⟨-, -, texts⟩ | ⟨nominal, -, isNominal_, -, -, cover⟩
        · rcases texts member within with rfl | rfl <;> exact same rfl
        · obtain rfl | rfl := cover member within
          · exact same rfl
          · rw [isUnit_of_nominal isNominal_] at isUnit_
            cases isUnit_
    · rintro (none_ | ptr)
      · rw [holds.1] at none_
        cases none_
      · exact same ptr

theorem readsBack_region (layout : AlternativeLayout.of members = some .region) (alternative : IsAlternative members)
    (within : member ∈ members) (holds : Holds machine member operand) :
    ReadsBack machine members member operand ↔ GivesBack .region member := by
  have kept : narrows (.alternative members) member = false := narrows_eq layout within
  rcases region_form layout member within with rfl | isPointer_
  · have differ : some LlvmType.vector ≠ llvmType .null := by decide
    rw [readsBack_kept layout alternative within holds kept differ]
    exact iff_of_true ⟨.vector 0 0, rfl, .inr rfl⟩ (.inr (by decide))
  · cases member with
    | pointer element length =>
      have typed := holds.1
      rw [llvmType] at typed
      by_cases void : Semantic.isVoid element = true
      · rw [if_pos void, Option.some.injEq] at typed
        have region : llvmType (.pointer element length) = some .region := by rw [llvmType, if_pos void]
        have differ : some LlvmType.vector ≠ llvmType (.pointer element length) := by
          rw [region]
          decide
        rw [readsBack_kept layout alternative within holds kept differ]
        refine iff_of_false ?_ ?_
        · rintro ⟨form, represented, -⟩
          cases operand with
          | region pointer length code => cases represented
          | _ => cases typed
        · rintro (none_ | noRegion)
          · rw [region] at none_
            cases none_
          · exact noRegion region
      · rw [if_neg void] at typed
        obtain ⟨_, -, typed⟩ := Option.map_eq_some_iff.1 typed
        have vector : llvmType (.pointer element length) = some .vector := by rw [holds.1, ← typed]
        refine iff_of_true (readsBack_same layout alternative within holds kept vector ?_) (.inr ?_)
        · cases operand with
          | vector pointer length => rfl
          | _ => cases typed
        · rw [vector]
          exact fun same => by cases same
    | _ => cases isPointer_

theorem readsBack_statusPointer (layout : AlternativeLayout.of members = some .statusPointer) (alternative : IsAlternative members)
    (within : member ∈ members) (holds : Holds machine member operand) :
    ReadsBack machine members member operand ↔ GivesBack .statusPointer member := by
  by_cases isError : isErrorType member = true
  · refine iff_of_true ?_ (.inr (.inl isError))
    have taken : narrows (.alternative members) member = true := (narrows_eq layout within).trans isError
    have typed := isErrorType_type isError
    rw [holds.1, Option.some.injEq] at typed
    cases operand with
    | handleResult error record code =>
      have known := holds.2
      simp only [if_pos isError] at known
      obtain ⟨rfl, rfl⟩ := known
      refine ⟨.statusPointer true record, ?_, .handleResult true record (machine.errorCode record), ?_, .inl ?_⟩
      · rw [stored_eq layout alternative within holds, represent, if_pos isError]
      · rw [loadedType_narrows taken, loadAlternative, if_pos taken, emitNarrowedLoad.eq_def, generalAlternative_of layout]
        have notEndpoint : narrowsToEndpoint (.alternative members) member = false := by
          rw [narrowsToEndpoint, slot_type layout]
          rfl
        have toError : narrowsToError (.alternative members) member = true := by
          rw [narrowsToError, slot_type layout, isError]
          exact any_isErrorType within isError
        simp only [notEndpoint, toError]
        rfl
      · rw [loadedType_narrows taken]
        exact stored_same holds.1
    | _ => cases typed
  · have kept : narrows (.alternative members) member = false := (narrows_eq layout within).trans (Bool.eq_false_iff.2 isError)
    by_cases same : llvmType member = some .statusPointer
    · refine iff_of_true (readsBack_same layout alternative within holds kept same ?_) (.inr (.inr same))
      rw [holds.1, Option.some.injEq] at same
      cases operand with
      | statusPointer error pointer => rfl
      | _ => cases same
    · refine iff_of_false ?_ ?_
      · rintro ⟨form, represented, -⟩
        rw [stored_eq layout alternative within holds, represent.eq_def] at represented
        cases operand with
        | statusPointer error pointer => exact same holds.1
        | handleResult error record code =>
          simp only [if_neg isError] at represented
          cases represented
        | _ => cases represented
      · rintro (none_ | isError' | same')
        · rw [holds.1] at none_
          cases none_
        · exact isError isError'
        · exact same same'

theorem readsBack_statusEndpoint (layout : AlternativeLayout.of members = some .statusEndpoint)
    (alternative : IsAlternative members) (within : member ∈ members) (holds : Holds machine member operand) :
    ReadsBack machine members member operand ↔ GivesBack .statusEndpoint member := by
  by_cases isError : isErrorType member = true
  · refine iff_of_true ?_ (.inr isError)
    have taken : narrows (.alternative members) member = true := by
      rw [narrows_eq layout within]
      simp only [isError, Bool.true_or]
    have typed := isErrorType_type isError
    rw [holds.1, Option.some.injEq] at typed
    cases operand with
    | handleResult error record code =>
      have known := holds.2
      simp only [if_pos isError] at known
      obtain ⟨rfl, rfl⟩ := known
      refine ⟨.statusEndpoint true record 0, ?_, .handleResult true record (machine.errorCode record), ?_, .inl ?_⟩
      · rw [stored_eq layout alternative within holds, represent, if_pos isError]
      · rw [loadedType_narrows taken, loadAlternative, if_pos taken, emitNarrowedLoad.eq_def, generalAlternative_of layout]
        have notEndpoint : narrowsToEndpoint (.alternative members) member = false := by
          rw [narrowsToEndpoint, isErrorType_type isError]
          simp
        have toError : narrowsToError (.alternative members) member = true := by
          rw [narrowsToError, slot_type layout, isError]
          exact any_isErrorType within isError
        simp only [notEndpoint, toError]
        rfl
      · rw [loadedType_narrows taken]
        exact stored_same holds.1
    | _ => cases typed
  · refine iff_of_false ?_ ?_
    · rintro ⟨form, represented, -⟩
      rw [stored_eq layout alternative within holds, represent.eq_def] at represented
      cases operand with
      | handleResult error record code =>
        simp only [if_neg isError] at represented
        cases represented
      | _ => cases represented
    · rintro (none_ | isError')
      · rw [holds.1] at none_
        cases none_
      · exact isError isError'

/-! ### Results of the runtime -/

/-- What a load takes out of a result of the runtime. -/
def takesValue (member : Ty) : Bool :=
  member == .string || isInteger member || member == .boolean || isFloat member || llvmType member == some .ptr

theorem takesValue_type {ty : LlvmType} (takes : takesValue member = true) (typed : llvmType member = some ty) :
    isScalarType ty = true ∨ ty = .ptr := by
  simp only [takesValue, Bool.or_eq_true, beq_iff_eq] at takes
  rcases takes with (((rfl | integer) | rfl) | float) | pointer
  · cases typed
    exact .inr rfl
  · cases member with
    | integer kind => cases kind <;> cases typed <;> exact .inl rfl
    | _ => cases integer
  · cases typed
    exact .inl rfl
  · cases member with
    | float kind => cases kind <;> cases typed <;> exact .inl rfl
    | _ => cases float
  · rw [pointer] at typed
    exact .inr (Option.some.inj typed).symm

theorem eq_notAvailable (plain : ∀ options, member ≠ .alternative options) (typed : llvmType member = some .optionalFloat) :
    member = .notAvailable := by
  cases member with
  | notAvailable => rfl
  | alternative options => exact absurd rfl (plain options)
  | integer kind => cases kind <;> cases typed
  | float kind => cases kind <;> cases typed
  | named name =>
    rw [llvmType, namedType] at typed
    split_ifs at typed <;> cases typed
  | importedNamed module name =>
    rw [llvmType, importedType] at typed
    split_ifs at typed <;> cases typed
  | importedTypeName module name =>
    rw [llvmType] at typed
    split_ifs at typed <;> cases typed
  | vector element dimensions =>
    rw [llvmType] at typed
    split_ifs at typed
    obtain ⟨_, -, typed⟩ := Option.map_eq_some_iff.1 typed
    cases typed
  | pointer element length =>
    rw [llvmType] at typed
    split_ifs at typed
    · cases typed
    · obtain ⟨_, -, typed⟩ := Option.map_eq_some_iff.1 typed
      cases typed
  | _ => cases typed

theorem integer_of_kept (plain : Semantic.NumericClass.ofLiteral member = none)
    (typed : llvmType member = some operand.type) (scalar : isScalarType operand.type = true)
    (kept : takesValue member = false) : isIntegerType operand.type = true := by
  cases member with
  | integer kind | boolean | float kind => cases kept
  | integerLiteral text | floatLiteral => cases plain
  | string | null | endOfFile | function parameters returnType =>
    rw [llvmType, Option.some.injEq] at typed
    rw [← typed] at scalar
    cases scalar
  | notAvailable =>
    rw [llvmType, Option.some.injEq] at typed
    rw [← typed] at scalar
    cases scalar
  | named name =>
    rw [llvmType, namedType] at typed
    split_ifs at typed <;> (rw [Option.some.injEq] at typed; rw [← typed] at scalar ⊢) <;> first | rfl | cases scalar
  | importedNamed module name =>
    rw [llvmType, importedType, Option.some.injEq] at typed
    split_ifs at typed <;> rw [← typed] at scalar <;> cases scalar
  | importedTypeName module name =>
    rw [llvmType, Option.some.injEq] at typed
    split_ifs at typed <;> rw [← typed] at scalar <;> cases scalar
  | alternative members =>
    rw [llvmType] at typed
    obtain ⟨layout, -, typed⟩ := Option.map_eq_some_iff.1 typed
    rw [← typed] at scalar
    cases layout <;> cases scalar
  | vector element dimensions =>
    rw [llvmType] at typed
    split_ifs at typed
    obtain ⟨_, -, typed⟩ := Option.map_eq_some_iff.1 typed
    rw [← typed] at scalar
    cases scalar
  | pointer element length =>
    rw [llvmType] at typed
    split_ifs at typed
    · rw [Option.some.injEq] at typed
      rw [← typed] at scalar
      cases scalar
    · obtain ⟨_, -, typed⟩ := Option.map_eq_some_iff.1 typed
      rw [← typed] at scalar
      cases scalar
  | _ => cases typed

theorem load_status {form : Operand} (layout : AlternativeLayout.of members = some .status)
    (taken : narrows (.alternative members) member = true) :
    loadAlternative machine (.alternative members) (loadedType (.alternative members) member) form = match form with
      | .handleResult _ pointer payload => narrowedValue machine member pointer payload
      | _ => .error .illTyped := by
  have notEndpoint : narrowsToEndpoint (.alternative members) member = false := by
    rw [narrowsToEndpoint, slot_type layout]
    rfl
  have notError : narrowsToError (.alternative members) member = false := by
    rw [narrowsToError, slot_type layout]
    simp +decide [AlternativeLayout.llvm]
  rw [loadedType_narrows taken, loadAlternative, if_pos taken, emitNarrowedLoad.eq_def, generalAlternative_of layout]
  simp only [notEndpoint, notError]
  rfl

theorem status_narrows (layout : AlternativeLayout.of members = some .status) (within : member ∈ members) :
    narrows (.alternative members) member = takesValue member := narrows_eq layout within

theorem narrowedValue_wrapSuccess (takes : takesValue member = true) (scalar : isScalarType operand.type = true)
    (typed : llvmType member = some operand.type) :
    ∃ payload, wrapSuccess machine operand member = .ok (.handleResult false 0 payload) ∧
      narrowedValue machine member 0 payload = .ok operand := by
  have noPtr : llvmType member ≠ some .ptr := by
    intro pointer
    rw [typed, Option.some.injEq] at pointer
    rw [pointer] at scalar
    cases scalar
  have noText : member ≠ .string := fun text => noPtr (text ▸ rfl)
  cases member with
  | integer kind =>
    have integer : isIntegerType operand.type = true := by
      cases kind <;> rw [llvmType, Option.some.injEq] at typed <;> rw [← typed] <;> rfl
    obtain ⟨bits, extended⟩ := extended_ok (isUnsigned (.integer kind)) (.inl integer)
    refine ⟨bits, ?_, ?_⟩
    · have wrapped : wrapSuccess machine operand (.integer kind) =
          (operand.extended (isUnsigned (.integer kind))).map (.handleResult false 0) := by
        cases operand <;> first | rfl | cases integer
      rw [wrapped, extended]
      rfl
    · rw [narrowedValue.eq_def, if_neg noText, if_neg noPtr]
      show expect (llvmType (.integer kind)) >>= Operand.truncated bits = _
      rw [typed, expect_some, ok_bind]
      exact truncated_extended integer extended
  | boolean =>
    cases operand with
    | i1 bit =>
      refine ⟨zext 64 (BitVec.ofBool bit), rfl, ?_⟩
      rw [narrowedValue.eq_def, if_neg noText, if_neg noPtr]
      cases bit <;> rfl
    | _ => cases typed
  | float kind =>
    cases kind with
    | float32 =>
      cases operand with
      | float bits =>
        refine ⟨machine.fpext bits, rfl, ?_⟩
        rw [narrowedValue.eq_def, if_neg noText, if_neg noPtr]
        show Except.ok (Operand.float (machine.fptrunc (machine.fpext bits))) = _
        rw [machine.fptrunc_fpext]
      | _ => cases typed
    | float64 =>
      cases operand with
      | double bits =>
        refine ⟨bits, rfl, ?_⟩
        rw [narrowedValue.eq_def, if_neg noText, if_neg noPtr]
      | _ => cases typed
  | string => exact absurd rfl noText
  | _ => exact absurd (by simpa [takesValue, isInteger, isFloat] using takes) noPtr

/-- A pointer that is no text and no handle is stored beside the payload, where no load looks for it. -/
theorem readsBack_status_ptr (layout : AlternativeLayout.of members = some .status) (alternative : IsAlternative members)
    (within : member ∈ members) (holds : Holds machine member operand) (pointer : llvmType member = some .ptr) :
    ReadsBack machine members member operand ↔ member = .string ∨ isIntegerHandleType member = true := by
  have takes : takesValue member = true := by simp [takesValue, pointer]
  have taken := (status_narrows layout within).trans takes
  obtain ⟨address, rfl⟩ := holds_ptr pointer holds
  -- The value is read back when the load finds its address.
  have reads (error : Bool) (first : Address) (payload : BitVec 64) (found : Address)
      (represented : represent machine .status member (.ptr address) = .ok (.handleResult error first payload))
      (value : narrowedValue machine member first payload = .ok (.ptr found)) :
      ReadsBack machine members member (.ptr address) ↔ found = address := by
    have load : loadAlternative machine (.alternative members) (loadedType (.alternative members) member)
        (.handleResult error first payload) = .ok (.ptr found) := (load_status layout taken).trans value
    rw [ReadsBack, stored_eq layout alternative within holds, represented]
    constructor
    · rintro ⟨form, formed, read, loaded, back⟩
      cases formed
      rw [load] at loaded
      cases loaded
      rcases back with back | ⟨-, kept, -⟩
      · rw [loadedType_narrows taken, stored_same pointer] at back
        cases back
        rfl
      · rw [loadedType_narrows taken] at kept
        exact absurd kept ((alternative.plain member within).2 members)
    · rintro rfl
      refine ⟨_, rfl, _, load, .inl ?_⟩
      rw [loadedType_narrows taken]
      exact stored_same pointer
  have noResult : (Operand.ptr address).type ≠ .handleResult := fun same => by cases same
  have noNa : member ≠ .notAvailable := by
    rintro rfl
    cases pointer
  have noNull : member ≠ .null := by
    rintro rfl
    obtain ⟨value, sentinel, form⟩ := status_form layout
    have known := sentinel_of_unit form within rfl
    cases sentinel with
    | none => cases known
    | some unit => cases unit <;> cases known
  by_cases text : member = .string
  · subst text
    exact iff_of_true ((reads false address 0 address rfl rfl).2 rfl) (.inl rfl)
  have value (first : Address) (payload : BitVec 64) : narrowedValue machine member first payload = .ok (.ptr payload) := by
    rw [narrowedValue.eq_def, if_neg text, if_pos pointer]
  by_cases eof : member = .endOfFile
  · subst eof
    rw [reads false machine.eof 0 0 rfl (value machine.eof 0)]
    refine iff_of_false (fun zero => ?_) (by simp [isIntegerHandleType])
    have isEnd : address = machine.eof := holds.2
    exact machine.eof_ne_zero (isEnd ▸ zero.symm)
  have represented : represent machine .status member (.ptr address) = wrapSuccess machine (.ptr address) member := by
    rw [represent, if_neg noResult, if_neg noNa, if_neg eof, if_pos (.inr rfl)]
  by_cases handle : isIntegerHandleType member = true
  · have formed := represented.trans (if_pos handle)
    exact iff_of_true ((reads false 0 address address formed (value 0 address)).2 rfl) (.inr handle)
  · have formed := represented.trans (if_neg handle)
    rw [reads false address 0 0 formed (value address 0)]
    refine iff_of_false (fun zero => ?_) fun known => known.elim text handle
    have nonzero : address ≠ 0 := by
      have known := holds.2
      cases member <;> first | exact known.1 | exact absurd rfl noNull | exact absurd rfl eof
    exact nonzero zero.symm

theorem readsBack_status (layout : AlternativeLayout.of members = some .status) (alternative : IsAlternative members)
    (within : member ∈ members) (holds : Holds machine member operand) :
    ReadsBack machine members member operand ↔ GivesBack .status member := by
  have plain := alternative.plain member within
  have taken := status_narrows layout within
  by_cases same : llvmType member = some .handleResult
  · -- A handle or an `Error` is a result of the runtime itself.
    have kept : takesValue member = false := by
      by_contra takes
      rcases takesValue_type (Bool.not_eq_false _ ▸ takes) same with scalar | pointer
      · cases scalar
      · cases pointer
    refine iff_of_true (readsBack_same layout alternative within holds (taken.trans kept) same ?_) (.inr ?_)
    · rw [represent, if_pos]
      rw [holds.1] at same
      exact Option.some.inj same
    · simp [same]
  have differ : some LlvmType.handleResult ≠ llvmType member := fun equal => same equal.symm
  have notResult : operand.type ≠ .handleResult := fun equal => same (holds.1.trans (congrArg some equal))
  by_cases pointer : llvmType member = some .ptr
  · rw [readsBack_status_ptr layout alternative within holds pointer]
    simp [GivesBack, pointer]
  by_cases na : member = .notAvailable
  · subst na
    refine iff_of_true ?_ (.inr (by simp [llvmType]))
    rw [readsBack_kept layout alternative within holds (taken.trans (by decide)) (by decide)]
    refine ⟨.handleResult false machine.na 0, ?_, .inr rfl⟩
    rw [represent, if_neg notResult, if_pos rfl]
  have eof : member ≠ .endOfFile := by
    rintro rfl
    exact pointer rfl
  by_cases scalar : isScalarType operand.type = true
  · have represented : represent machine .status member operand = wrapSuccess machine operand member := by
      rw [represent, if_neg notResult, if_neg na, if_neg eof, if_pos (.inl scalar)]
    have gives : GivesBack .status member := by
      refine .inr ⟨fun isPtr => absurd isPtr pointer, ?_⟩
      rw [holds.1]
      refine ⟨?_, ?_, ?_⟩ <;> intro equal <;> (rw [Option.some.inj equal] at scalar; cases scalar)
    refine iff_of_true ?_ gives
    cases takes : takesValue member with
    | true =>
      obtain ⟨payload, wrapped, value⟩ := narrowedValue_wrapSuccess takes scalar holds.1
      refine ⟨.handleResult false 0 payload, ?_, operand, ?_, .inl ?_⟩
      · rw [stored_eq layout alternative within holds, represented, wrapped]
      · exact (load_status layout (taken.trans takes)).trans value
      · rw [loadedType_narrows (taken.trans takes)]
        exact stored_same holds.1
    | false =>
      have integer := integer_of_kept plain.1 holds.1 scalar takes
      rw [readsBack_kept layout alternative within holds (taken.trans takes) differ]
      obtain ⟨bits, extended⟩ := extended_ok (isUnsigned member) (.inl integer)
      refine ⟨.handleResult false 0 bits, ?_, .inl ?_⟩
      · have wrapped : wrapSuccess machine operand member =
            (operand.extended (isUnsigned member)).map (.handleResult false 0) := by
          cases operand <;> first | rfl | cases integer
        rw [represented, wrapped, extended]
        rfl
      · refine stored_of_coerced holds.1 ?_ fun form equal => by cases equal; rfl
        have slot : llvmType (.alternative members) = some .handleResult := slot_type layout
        rw [coerceOperand, slot, holds.1, expect_some, expect_some, ok_bind, ok_bind, if_neg notResult.symm,
          if_pos ⟨rfl, .inr (.inl integer)⟩, unwrapResult.eq_def]
        have back := truncated_extended integer extended
        cases operand <;> first | exact back | cases integer
  · refine iff_of_false ?_ ?_
    · rintro ⟨form, represented, -⟩
      have noPtr : operand.type ≠ .ptr := fun equal => pointer (holds.1.trans (congrArg some equal))
      rw [stored_eq layout alternative within holds, represent, if_neg notResult, if_neg na, if_neg eof,
        if_neg (by simp [scalar, noPtr])] at represented
      cases represented
    · rintro (none_ | ⟨-, noVector, noRegion, noStatus⟩)
      · rw [holds.1] at none_
        cases none_
      · obtain ⟨noGeneral, noEndpoint⟩ := llvmType_plain plain.2
        have noNumber : llvmType member ≠ some .optionalFloat := fun typed => na (eq_notAvailable plain.2 typed)
        rw [holds.1] at noVector noRegion noStatus noGeneral noEndpoint noNumber pointer
        cases operand <;> first
          | exact scalar rfl
          | exact noVector rfl
          | exact noRegion rfl
          | exact noStatus rfl
          | exact noGeneral rfl
          | exact noEndpoint rfl
          | exact noNumber rfl
          | exact pointer rfl
          | exact notResult rfl

theorem readsBack_iff (found : AlternativeLayout.of members = some layout)
    (alternative : IsAlternative members) (within : member ∈ members) (holds : Holds machine member operand) :
    ReadsBack machine members member operand ↔ GivesBack layout member := by
  cases layout with
  | general => exact iff_of_true (readsBack_general found alternative within holds) (.inr trivial)
  | sentinel => exact readsBack_sentinel found alternative within holds
  | status => exact readsBack_status found alternative within holds
  | statusPointer => exact readsBack_statusPointer found alternative within holds
  | statusEndpoint => exact readsBack_statusEndpoint found alternative within holds
  | region => exact readsBack_region found alternative within holds

end

end BasicNext.Native
