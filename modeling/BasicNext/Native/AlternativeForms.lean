import BasicNext.Native.Alternatives

/-!
# The members that a layout has

Which members an alternative type of each layout has. A result of the runtime is a value, a unit or both, and
an `Error`; what has the general layout has members of distinct codes.
-/

namespace BasicNext.Native

variable {members : List Ty}

/-! ### What a layout says of the members -/

/-- The results of the runtime whose form comes first. -/
def earlyStatus (members : List Ty) : Bool :=
  stringOrError members || stringNaOrError members || stringEofOrError members || scalarNaOrError members
    || errorOrNa members || floatOrError members || booleanOrError members

def lateStatus (members : List Ty) : Bool :=
  voidOrError members || integerOrError members || integerEofOrError members || importedOrError members
    || opaqueOrError members

def LayoutSays (members : List Ty) : AlternativeLayout → Prop
  | .sentinel => sentinelOf (typedMembers members) = true
  | .status => earlyStatus members = true ∨ netOrError members = true ∨ lateStatus members = true
  | .statusPointer => netOrError members = true ∧ members.any isNetAddressesType = true
  | .statusEndpoint => netOrError members = true ∧ members.any isNetEndpointType = true
  | .general => generalMembers members = true
  | .region => members.length = 2 ∧ .null ∈ members ∧ members.any isPointer = true

theorem layoutSays {layout : AlternativeLayout} (found : AlternativeLayout.of members = some layout) :
    LayoutSays members layout := by
  rw [AlternativeLayout.of, layoutOf, map_fst_typedMembers] at found
  split_ifs at found with sentinel early net addresses endpoint late general region
  · cases found
    exact sentinel
  · cases found
    exact .inl early
  · cases found
    exact ⟨net, addresses⟩
  · cases found
    exact ⟨net, endpoint⟩
  · cases found
    exact .inr (.inl net)
  · cases found
    exact .inr (.inr late)
  · cases found
    exact general
  · cases found
    simpa [LayoutSays, and_assoc] using region

theorem memberCodes_eq {codes : List Nat} (found : memberCodes members = some codes) :
    members.map memberCode = codes.map some := by
  rw [memberCodes] at found
  induction members generalizing codes with
  | nil =>
    cases found
    rfl
  | cons member members ih =>
    rw [List.mapM_cons] at found
    simp only [Option.bind_eq_bind, Option.bind_eq_some_iff] at found
    obtain ⟨code, first, rest, others, equal⟩ := found
    cases equal
    rw [List.map_cons, List.map_cons, first, ih others]

theorem memberCode_distinct (layout : AlternativeLayout.of members = some .general) :
    (∀ member ∈ members, ∃ code, memberCode member = some code) ∧
      ∀ first ∈ members, ∀ second ∈ members, memberCode first = memberCode second → first = second := by
  have known := layoutSays layout
  simp only [LayoutSays, generalMembers, generalMembersOf, Bool.and_eq_true, map_fst_typedMembers, distinctCodes] at known
  obtain ⟨⟨codes, -⟩, -⟩ := known
  cases found : memberCodes members with
  | none =>
    rw [found] at codes
    cases codes
  | some list =>
    rw [found, decide_eq_true_eq] at codes
    have mapped := memberCodes_eq found
    refine ⟨fun member within => ?_, fun first first_mem second second_mem same => ?_⟩
    · have image : memberCode member ∈ list.map some := mapped ▸ List.mem_map_of_mem within
      obtain ⟨code, -, equal⟩ := List.mem_map.1 image
      exact ⟨code, equal.symm⟩
    · have distinct : (members.map memberCode).Nodup := mapped ▸ codes.map (Option.some_injective _)
      exact List.inj_on_of_nodup_map distinct first_mem second_mem same

theorem mem_of_distinct {parts : List Ty} (distinct : parts.Nodup) (within : ∀ ty ∈ parts, ty ∈ members)
    (short : members.length ≤ parts.length) : ∀ ty ∈ members, ty ∈ parts := fun _ member =>
  ((List.subperm_of_subset distinct within).perm_of_length_le short).mem_iff.2 member

/-! ### Results of the runtime -/

/-- What a result of the runtime has besides an `Error` and a unit. -/
structure IsValue (ty : Ty) : Prop where
  noError : isErrorType ty = false
  noUnit : isUnit ty = false
  noHandle : pointerMember ty = true → isIntegerHandleType ty = false

def isTextOrNumber (ty : Ty) : Bool := ty == .string || (isInteger ty || isFloat ty || ty == .boolean)

/-- The members of a result of the runtime: a value, a unit and errors. -/
structure StatusForm (members : List Ty) (value : Option Ty) (sentinel : Option Sentinel) : Prop where
  cover : ∀ ty ∈ members, value = some ty ∨ sentinel.map Sentinel.member = some ty ∨ isErrorType ty = true
  value_mem : ∀ ty, value = some ty → ty ∈ members ∧ IsValue ty
  sentinel_mem : ∀ unit, sentinel = some unit → unit.member ∈ members
  error_mem : ∃ error ∈ members, isErrorType error = true
  sentinel_of : Sentinel.of members = sentinel
  two : sentinel = none → members.length = 2
  textOrNumber : sentinel.isSome = true → ∀ ty, value = some ty → isTextOrNumber ty = true

theorem isErrorType_member (unit : Sentinel) : isErrorType unit.member = false := by cases unit <;> rfl

theorem isUnit_member (unit : Sentinel) : isUnit unit.member = true := by cases unit <;> rfl

theorem sentinel_of_two (two : members.length = 2) (absent : .notAvailable ∉ members) : Sentinel.of members = none := by
  have missing : members.any (· == .notAvailable) = false := by
    simpa [List.any_eq_false] using fun ty (member : ty ∈ members) (same : ty = .notAvailable) => absent (same ▸ member)
  simp [Sentinel.of, stringNaOrError, scalarNaOrError, errorOrNa, stringEofOrError, integerEofOrError, orError,
    unitOrError, two, missing]

theorem form_of_orError {p : Ty → Bool} (holds : orError members p = true) (values : ∀ ty, p ty = true → IsValue ty) :
    ∃ value, p value = true ∧ StatusForm members (some value) none := by
  simp only [orError, Bool.and_eq_true, beq_iff_eq, List.any_eq_true] at holds
  obtain ⟨⟨two, value, member, isValue⟩, error, error_mem, isError⟩ := holds
  have noError := (values value isValue).noError
  have noUnit := (values value isValue).noUnit
  have distinct : [value, error].Nodup := by
    have differ : value ≠ error := by
      rintro rfl
      rw [noError] at isError
      cases isError
    simpa using differ
  have cover := mem_of_distinct distinct (by simp [member, error_mem]) two.le
  refine ⟨value, isValue, fun ty member => ?_, ?_, ?_, ⟨error, error_mem, isError⟩, sentinel_of_two two fun absent => ?_,
    fun _ => two, ?_⟩
  · rcases List.mem_pair.1 (cover ty member) with rfl | rfl
    · exact .inl rfl
    · exact .inr (.inr isError)
  · rintro ty same
    cases same
    exact ⟨member, values value isValue⟩
  · rintro unit same
    cases same
  · rcases List.mem_pair.1 (cover _ absent) with same | same
    · rw [← same] at noUnit
      cases noUnit
    · rw [← same] at isError
      cases isError
  · rintro ⟨⟩

theorem sentinel_of_endOfFile {p : Ty → Bool} (holds : unitOrError members p .endOfFile = true)
    (values : ∀ ty, p ty = true → IsValue ty) (kinds : stringEofOrError members = true ∨ integerEofOrError members = true) :
    Sentinel.of members = some .endOfFile := by
  simp only [unitOrError, Bool.and_eq_true, beq_iff_eq, List.any_eq_true] at holds
  obtain ⟨⟨⟨three, value, member, isValue⟩, ty, unit_mem, rfl⟩, error, error_mem, isError⟩ := holds
  have noError := (values value isValue).noError
  have noUnit := (values value isValue).noUnit
  have missing : members.any (· == .notAvailable) = false := by
    by_contra present
    simp only [Bool.not_eq_false, List.any_eq_true, beq_iff_eq] at present
    obtain ⟨other, other_mem, rfl⟩ := present
    have distinct : [value, .endOfFile, error, .notAvailable].Nodup := by
      have first : value ≠ .endOfFile ∧ value ≠ .notAvailable ∧ value ≠ error := by
        refine ⟨?_, ?_, ?_⟩ <;> rintro rfl
        · cases noUnit
        · cases noUnit
        · rw [noError] at isError
          cases isError
      have second : .endOfFile ≠ error ∧ error ≠ .notAvailable := by
        refine ⟨?_, ?_⟩ <;> rintro rfl <;> cases isError
      simp [first, second]
    have bound := (List.subperm_of_subset distinct (show ∀ ty ∈ [value, .endOfFile, error, .notAvailable], ty ∈ members by
      simp [member, unit_mem, error_mem, other_mem])).length_le
    simp [three] at bound
  have first : stringNaOrError members = false ∧ scalarNaOrError members = false ∧ errorOrNa members = false := by
    simp [stringNaOrError, scalarNaOrError, errorOrNa, unitOrError, orError, missing]
  rw [Sentinel.of, if_neg (by simp [first]), if_pos (by simpa using kinds)]

theorem form_of_unitOrError {p : Ty → Bool} (unit : Sentinel) (holds : unitOrError members p unit.member = true)
    (values : ∀ ty, p ty = true → IsValue ty) (texts : ∀ ty, p ty = true → isTextOrNumber ty = true)
    (sentinel : Sentinel.of members = some unit) :
    ∃ value, p value = true ∧ StatusForm members (some value) (some unit) := by
  simp only [unitOrError, Bool.and_eq_true, beq_iff_eq, List.any_eq_true] at holds
  obtain ⟨⟨⟨three, value, member, isValue⟩, ty, unit_mem, same⟩, error, error_mem, isError⟩ := holds
  subst same
  have noError := (values value isValue).noError
  have noUnit := (values value isValue).noUnit
  have distinct : [value, unit.member, error].Nodup := by
    have first : value ≠ unit.member := by
      rintro rfl
      rw [isUnit_member] at noUnit
      cases noUnit
    have second : value ≠ error := by
      rintro rfl
      rw [noError] at isError
      cases isError
    have third : unit.member ≠ error := by
      rintro rfl
      rw [isErrorType_member] at isError
      cases isError
    simp [first, second, third]
  have cover := mem_of_distinct distinct (by simp [member, unit_mem, error_mem]) three.le
  refine ⟨value, isValue, fun ty member => ?_, ?_, ?_, ⟨error, error_mem, isError⟩, sentinel, ?_, ?_⟩
  · have known := cover ty member
    simp only [List.mem_cons, List.not_mem_nil, or_false] at known
    rcases known with rfl | rfl | rfl
    · exact .inl rfl
    · exact .inr (.inl rfl)
    · exact .inr (.inr isError)
  · rintro ty same
    cases same
    exact ⟨member, values value isValue⟩
  · rintro other same
    cases same
    exact unit_mem
  · rintro ⟨⟩
  · rintro - ty same
    cases same
    exact texts value isValue

theorem isValue_integer (ty : Ty) (holds : isInteger ty = true) : IsValue ty := by
  cases ty <;> first | exact ⟨rfl, rfl, fun isPointer => by cases isPointer⟩ | cases holds

theorem isValue_string (ty : Ty) (holds : (ty == .string) = true) : IsValue ty := by
  rw [beq_iff_eq] at holds
  subst holds
  exact ⟨rfl, rfl, fun isPointer => by cases isPointer⟩

theorem isValue_scalar (ty : Ty) (holds : (isInteger ty || isFloat ty || ty == .boolean) = true) : IsValue ty := by
  cases ty <;> first | exact ⟨rfl, rfl, fun isPointer => by cases isPointer⟩ | cases holds

theorem isValue_net {short : String} (other : short ≠ "Error") (full : "HOST.Net." ++ short ≠ "Error")
    (plain : Semantic.lastPart short = short) (qualified : Semantic.lastPart ("HOST.Net." ++ short) = short)
    (noHandle : short ∉ integerHandleNames) (ty : Ty) (holds : isNetType short ty = true) : IsValue ty := by
  cases ty with
  | named name =>
    simp only [isNetType, Bool.or_eq_true, beq_iff_eq] at holds
    refine ⟨?_, rfl, fun _ => ?_⟩
    · rw [isErrorType, beq_eq_false_iff_ne]
      rcases holds with rfl | rfl
      · exact full
      · exact other
    · rw [isIntegerHandleType]
      rcases holds with rfl | rfl
      · rw [qualified, decide_eq_false noHandle]
      · rw [plain, decide_eq_false noHandle]
  | importedNamed module name =>
    simp only [isNetType, beq_iff_eq] at holds
    refine ⟨?_, rfl, fun isPointer => by cases isPointer⟩
    rw [isErrorType, beq_eq_false_iff_ne]
    exact holds ▸ other
  | _ => cases holds

theorem isValue_netOr (ty : Ty)
    (holds : (isNetAddressType ty || isNetCidrType ty || isNetPingReplyType ty || isNetAddressesType ty || isNetEndpointType ty
      || isNetHandleType ty || ty == .string) = true) : IsValue ty := by
  simp only [Bool.or_eq_true] at holds
  rcases holds with (((((address | cidr) | reply) | addresses) | endpoint) | handle) | string
  · exact isValue_net (by decide) (by decide) (by decide) (by decide) (by decide) ty address
  · exact isValue_net (by decide) (by decide) (by decide) (by decide) (by decide) ty cidr
  · exact isValue_net (by decide) (by decide) (by decide) (by decide) (by decide) ty reply
  · exact isValue_net (by decide) (by decide) (by decide) (by decide) (by decide) ty addresses
  · exact isValue_net (by decide) (by decide) (by decide) (by decide) (by decide) ty endpoint
  · cases ty with
    | named name =>
      simp only [isNetHandleType, fullNetHandleName, Bool.or_eq_true, beq_iff_eq] at handle
      -- A qualified name is no class of the program.
      rcases handle with ((rfl | rfl) | rfl) | rfl <;> exact ⟨by decide, rfl, fun isPointer => absurd isPointer (by decide)⟩
    | importedNamed module name =>
      simp only [isNetHandleType, netHandleName, Bool.or_eq_true, beq_iff_eq] at handle
      rcases handle with ((rfl | rfl) | rfl) | rfl <;> exact ⟨rfl, rfl, fun isPointer => by cases isPointer⟩
    | _ => cases handle
  · exact isValue_string ty string

theorem form_of_errorOrNa (holds : errorOrNa members = true) : StatusForm members none (some .notAvailable) := by
  have sentinel : Sentinel.of members = some .notAvailable := by rw [Sentinel.of, if_pos (by simp [holds])]
  simp only [errorOrNa, orError, Bool.and_eq_true, beq_iff_eq, List.any_eq_true] at holds
  obtain ⟨⟨two, ty, member, rfl⟩, error, error_mem, isError⟩ := holds
  have distinct : [.notAvailable, error].Nodup := by
    have differ : .notAvailable ≠ error := by
      rintro rfl
      cases isError
    simpa using differ
  have cover := mem_of_distinct distinct (by simp [member, error_mem]) two.le
  refine ⟨fun ty member => ?_, ?_, ?_, ⟨error, error_mem, isError⟩, sentinel, ?_, ?_⟩
  · rcases List.mem_pair.1 (cover ty member) with rfl | rfl
    · exact .inr (.inl rfl)
    · exact .inr (.inr isError)
  · rintro ty same
    cases same
  · rintro unit same
    cases same
    exact member
  · rintro ⟨⟩
  · rintro - ty ⟨⟩

theorem form_of_importedOrError (holds : importedOrError members = true) : ∃ value, StatusForm members value none := by
  simp only [importedOrError, Bool.and_eq_true, beq_iff_eq, List.any_eq_true] at holds
  obtain ⟨⟨two, error, error_mem, rfl⟩, ty, member, imported⟩ := holds
  have noUnit : isUnit ty = false := by cases ty <;> first | rfl | cases imported
  cases isError : isErrorType ty with
  | false =>
    have form := @form_of_orError members (· == ty) (by
      simp only [orError, Bool.and_eq_true, beq_iff_eq, List.any_eq_true]
      exact ⟨⟨two, ty, member, rfl⟩, .named "Error", error_mem, rfl⟩) (by
      intro other same
      rw [beq_iff_eq] at same
      subst same
      exact ⟨isError, noUnit, fun isPointer => by cases other <;> first | cases isPointer | cases imported⟩)
    obtain ⟨value, -, form⟩ := form
    exact ⟨some value, form⟩
  | true =>
    have distinct : [.named "Error", ty].Nodup := by
      have differ : .named "Error" ≠ ty := by
        rintro rfl
        cases imported
      simpa using differ
    have cover := mem_of_distinct distinct (by simp [member, error_mem]) two.le
    have errors : ∀ ty ∈ members, isErrorType ty = true := by
      intro other other_mem
      rcases List.mem_pair.1 (cover other other_mem) with rfl | rfl
      · rfl
      · exact isError
    refine ⟨none, fun other other_mem => .inr (.inr (errors other other_mem)), ?_, ?_, ⟨ty, member, isError⟩,
      sentinel_of_two two fun absent => ?_, fun _ => two, ?_⟩
    · rintro other same
      cases same
    · rintro unit same
      cases same
    · cases errors _ absent
    · rintro ⟨⟩

theorem status_form (layout : AlternativeLayout.of members = some .status) :
    ∃ value sentinel, StatusForm members value sentinel := by
  have ofOr {p : Ty → Bool} (holds : orError members p = true) (values : ∀ ty, p ty = true → IsValue ty) :
      ∃ value sentinel, StatusForm members value sentinel := by
    obtain ⟨value, -, form⟩ := form_of_orError holds values
    exact ⟨some value, none, form⟩
  have ofUnit {p : Ty → Bool} (unit : Sentinel) (holds : unitOrError members p unit.member = true)
      (values : ∀ ty, p ty = true → IsValue ty) (texts : ∀ ty, p ty = true → isTextOrNumber ty = true)
      (sentinel : Sentinel.of members = some unit) : ∃ value sentinel, StatusForm members value sentinel := by
    obtain ⟨value, -, form⟩ := form_of_unitOrError unit holds values texts sentinel
    exact ⟨some value, some unit, form⟩
  have text (ty : Ty) (holds : (ty == .string) = true) : isTextOrNumber ty = true := by simp [isTextOrNumber, holds]
  have number (ty : Ty) (holds : (isInteger ty || isFloat ty || ty == .boolean) = true) : isTextOrNumber ty = true := by
    simp only [isTextOrNumber, holds, Bool.or_true]
  rcases layoutSays layout with early | net | late
  · simp only [earlyStatus, Bool.or_eq_true] at early
    rcases early with (((((string | stringNa) | stringEof) | scalarNa) | na) | float) | boolean
    · exact ofOr string isValue_string
    · exact ofUnit .notAvailable stringNa isValue_string text (by rw [Sentinel.of, if_pos (by simp [stringNa])])
    · exact ofUnit .endOfFile stringEof isValue_string text (sentinel_of_endOfFile stringEof isValue_string (.inl stringEof))
    · exact ofUnit .notAvailable scalarNa isValue_scalar number (by rw [Sentinel.of, if_pos (by simp [scalarNa])])
    · exact ⟨none, some .notAvailable, form_of_errorOrNa na⟩
    · exact ofOr float fun ty holds => isValue_scalar ty (by simp [holds])
    · exact ofOr boolean fun ty holds => isValue_scalar ty (by simp [holds])
  · exact ofOr net isValue_netOr
  · simp only [lateStatus, Bool.or_eq_true] at late
    rcases late with (((void | integer) | integerEof) | imported) | handle
    · refine ofOr void fun ty holds => ?_
      cases ty with
      | named name =>
        simp only [Semantic.isVoid, beq_iff_eq] at holds
        subst holds
        exact ⟨by decide, rfl, fun isPointer => absurd isPointer (by decide)⟩
      | _ => cases holds
    · exact ofOr integer isValue_integer
    · exact ofUnit .endOfFile integerEof isValue_integer (fun ty holds => number ty (by simp [holds]))
        (sentinel_of_endOfFile integerEof isValue_integer (.inr integerEof))
    · obtain ⟨value, form⟩ := form_of_importedOrError imported
      exact ⟨value, none, form⟩
    · simp only [opaqueOrError, opaqueOrErrorOf, typedMembers_eq, List.length_map, List.any_map, Bool.and_eq_true,
        beq_iff_eq, List.any_eq_true, Function.comp_apply, Bool.not_eq_true'] at handle
      obtain ⟨⟨two, error, error_mem, rfl⟩, ty, member, ⟨noError, noPointer⟩, nominal⟩ := handle
      have noUnit : isUnit ty = false := by cases ty <;> first | rfl | cases nominal
      refine @ofOr (· == ty) ?_ fun other same => ?_
      · simp only [orError, Bool.and_eq_true, beq_iff_eq, List.any_eq_true]
        exact ⟨⟨two, ty, member, rfl⟩, .named "Error", error_mem, rfl⟩
      · rw [beq_iff_eq] at same
        subst same
        exact ⟨noError, noUnit, fun isPointer => absurd isPointer (by rw [pointerMember, noPointer]; exact Bool.false_ne_true)⟩

/-! ### Pointers with a sentinel -/

/-- A declared type, by its name. -/
def isNominal : Ty → Bool
  | .named _ | .importedNamed _ _ => true
  | _ => false

theorem isUnit_of_nominal {ty : Ty} (nominal : isNominal ty = true) : isUnit ty = false := by
  cases ty <;> first | rfl | cases nominal

theorem sentinel_form (layout : AlternativeLayout.of members = some .sentinel) :
    (.string ∈ members ∧ .endOfFile ∈ members ∧ ∀ ty ∈ members, ty = .string ∨ ty = .endOfFile) ∨
      ∃ nominal ∈ members, isNominal nominal = true ∧ isErrorType nominal = false ∧ .null ∈ members ∧
        ∀ ty ∈ members, ty = .null ∨ ty = nominal := by
  have known := layoutSays layout
  simp only [LayoutSays, sentinelOf, Bool.or_eq_true, map_fst_typedMembers] at known
  rcases known with pointer | text
  · simp only [typedMembers_eq, List.length_map, List.any_map, Bool.and_eq_true, beq_iff_eq, List.any_eq_true,
      Function.comp_apply] at pointer
    obtain ⟨⟨two, unit, unit_mem, rfl⟩, nominal, member, named⟩ := pointer
    have kind : isNominal nominal = true ∧ isErrorType nominal = false := by
      cases nominal with
      | named name => exact ⟨rfl, by simpa [isErrorType] using named⟩
      | importedNamed module name =>
        refine ⟨rfl, ?_⟩
        simp only [Bool.and_eq_true, bne_iff_ne] at named
        simpa [isErrorType] using named.1
      | _ => cases named
    have distinct : [.null, nominal].Nodup := by
      have differ : .null ≠ nominal := by
        rintro rfl
        cases kind.1
      simpa using differ
    have cover := mem_of_distinct distinct (by simp [member, unit_mem]) two.le
    exact .inr ⟨nominal, member, kind.1, kind.2, unit_mem, fun ty member => List.mem_pair.1 (cover ty member)⟩
  · simp only [stringOrEof, Bool.and_eq_true, beq_iff_eq, decide_eq_true_eq] at text
    obtain ⟨⟨two, isText⟩, eof⟩ := text
    have distinct : [Ty.string, .endOfFile].Nodup := by decide
    have cover := mem_of_distinct distinct (by simp [isText, eof]) two.le
    exact .inl ⟨isText, eof, fun ty member => List.mem_pair.1 (cover ty member)⟩

theorem region_form (layout : AlternativeLayout.of members = some .region) :
    ∀ ty ∈ members, ty = .null ∨ isPointer ty = true := by
  obtain ⟨two, unit_mem, pointer⟩ := layoutSays layout
  rw [List.any_eq_true] at pointer
  obtain ⟨pointer, member, isPointer_⟩ := pointer
  have distinct : [.null, pointer].Nodup := by
    have differ : .null ≠ pointer := by
      rintro rfl
      cases isPointer_
    simpa using differ
  have cover := mem_of_distinct distinct (by simp [member, unit_mem]) two.le
  intro ty ty_mem
  rcases List.mem_pair.1 (cover ty ty_mem) with rfl | rfl
  · exact .inl rfl
  · exact .inr isPointer_

end BasicNext.Native
