import BasicNext.Semantic.Inhabits

/-!
# Assignability with classes

`Analyzer::compatible`: the assignability of types, with the class model for nominal types and with places
of an unknown type, which take everything. The class model is asked at alternatives and at the elements of
vectors; within pointers and function types the types decide alone.
-/

namespace BasicNext.Semantic

/-- The identity of a nominal type in the class model. -/
def nominalIdentity : Ty → Option String
  | .named name => some name
  | .importedNamed module name => some ("#" ++ toString module ++ "." ++ name)
  | _ => none

def isUnknown : Ty → Bool
  | .unknown => true
  | _ => false

section

variable (classes : ClassModel)

def upcasts (expected actual : Ty) : Bool :=
  match nominalIdentity expected, nominalIdentity actual with
  | some expected, some actual => classes.isUpcast actual expected
  | _, _ => false

/-- What does not look into the two types. -/
def accepts (expected actual : Ty) : Bool :=
  isUnknown expected || isUnknown actual || compatible expected actual || upcasts classes expected actual

mutual

def acceptsMembers (expected : Ty) (rest : Ty → Bool) : Ty → Bool
  | .alternative members =>
    accepts classes expected (.alternative members) || acceptsAll expected rest members
  | actual => accepts classes expected actual || rest actual

def acceptsAll (expected : Ty) (rest : Ty → Bool) : List Ty → Bool
  | [] => true
  | member :: members => acceptsMembers expected rest member && acceptsAll expected rest members

end

mutual

def assignable (expected : Ty) (actual : Ty) : Bool :=
  match expected with
  | .alternative options =>
    accepts classes (.alternative options) actual ||
      match NumericClass.ofLiteral actual with
      | some _ => false
      | none => assignableAny options actual
  | .vector element dimensions =>
    acceptsMembers classes (.vector element dimensions) (fun
      | .vector element' dimensions' =>
        (dimensions == dimensions' || openFirstDimension dimensions dimensions')
          && assignable element element'
      | _ => false) actual
  | expected => acceptsMembers classes expected (fun _ => false) actual
termination_by structural expected

def assignableAny (options : List Ty) (actual : Ty) : Bool :=
  match options with
  | [] => false
  | option :: options => assignable option actual || assignableAny options actual
termination_by structural options

end

end

end BasicNext.Semantic

/-!
## Nominal types that do not mix

Two nominal types of different declarations, neither of which is an upcast of the other, should never be
assignable, and neither should types that hold one where the other is asked for. Assignability compares
names, with one of them perhaps spelled through an alias, by their last part. That is where types of
different declarations can meet: a plain name and an imported type of that name. Everywhere else they stay
apart, however deep they are nested.
-/

namespace BasicNext.Semantic

/-! ### Declarations -/

/-- The declaration of a nominal type. A dotted name is one of another module's text, with an alias of that
module; names without a module are those of the module at hand, of the language and of its hosts. -/
def declaration (aliases : String → Option ModuleId) : Ty → Option Nominal
  | .named name =>
    if name = "VOID" then none
    else
      match (splitOnce name).bind fun (alias_, exportedName) => (aliases alias_).map (Nominal.mk · exportedName) with
      | some nominal => some nominal
      | none => some ⟨none, if "Net.".toList.isPrefixOf name.toList then "HOST." ++ name else name⟩
  | .importedNamed module name => some ⟨some module, name⟩
  | _ => none

/-- Two nominal types of different declarations, neither of which is an upcast of the other. -/
structure Separate (aliases : String → Option ModuleId) (classes : ClassModel) (first second : Ty) : Prop where
  nominalFirst : (declaration aliases first).isSome
  nominalSecond : (declaration aliases second).isSome
  different : declaration aliases first ≠ declaration aliases second
  noUpcast : upcasts classes first second = false
  noUpcastBack : upcasts classes second first = false

/-- A name and an imported type that the last part of the name spells, or the two spellings of a name of the
network host. -/
inductive SpelledAlike : Ty → Ty → Prop
  | imported (name : String) (module : ModuleId) :
    SpelledAlike (.named name) (.importedNamed module (lastPart name))
  | host {short long : String} : sameHostName short long = true → SpelledAlike (.named short) (.named long)

/-! ### Nesting -/

inductive TypeKind where
  | nominal | boolean | integer | float | string | null | notAvailable | endOfFile | function | vector | pointer
deriving DecidableEq

/-- The kind of a type of values; alternatives have several, `VOID` is none. -/
def typeKind : Ty → Option TypeKind
  | .named name => if name = "VOID" then none else some .nominal
  | .importedNamed _ _ => some .nominal
  | .boolean => some .boolean
  | .integer _ | .integerLiteral _ => some .integer
  | .float _ | .floatLiteral => some .float
  | .string => some .string
  | .null => some .null
  | .notAvailable => some .notAvailable
  | .endOfFile => some .endOfFile
  | .function _ _ => some .function
  | .vector _ _ => some .vector
  | .pointer _ _ => some .pointer
  | _ => none

def isAlternative : Ty → Bool
  | .alternative _ => true
  | _ => false

/-- An expected and an actual type that nothing but types of different kinds and pairs of separate nominal
types keep apart: some place of the actual type holds what no alternative of the expected one takes. -/
inductive Apart (pairs : Ty → Ty → Prop) : Ty → Ty → Prop
  | pair {first second : Ty} : pairs first second → Apart pairs first second
  | back {first second : Ty} : pairs first second → Apart pairs second first
  | kinds {expected actual : Ty} {one other : TypeKind} : typeKind expected = some one →
      typeKind actual = some other → one ≠ other → Apart pairs expected actual
  | options {options : List Ty} {actual : Ty} : options ≠ [] → isAlternative actual = false →
      (∀ option ∈ options, Apart pairs option actual) → Apart pairs (.alternative options) actual
  | member {expected member : Ty} {members : List Ty} : isAlternative expected = false → member ∈ members →
      Apart pairs expected member → Apart pairs expected (.alternative members)
  | alternatives {options members : List Ty} {member : Ty} : member ∈ members →
      (∀ option ∈ options, Apart pairs option member) →
      (∀ option ∈ options, Apart pairs option (.alternative members)) →
      Apart pairs (.alternative options) (.alternative members)
  | vector {expected actual : Ty} {dimensions dimensions' : List Nat} : Apart pairs expected actual →
      Apart pairs (.vector expected dimensions) (.vector actual dimensions')
  | pointer {expected actual : Ty} {length length' : PointerLength} : Apart pairs expected actual →
      Apart pairs (.pointer expected length) (.pointer actual length')
  | parameter {expected actual returnType returnType' : Ty} {before before' after after' : List Ty} :
      before.length = before'.length → Apart pairs expected actual →
      Apart pairs (.function (before ++ expected :: after) returnType)
        (.function (before' ++ actual :: after') returnType')
  | result {expected actual : Ty} {parameters parameters' : List Ty} : Apart pairs expected actual →
      Apart pairs (.function parameters expected) (.function parameters' actual)

/-! ### Types without the class model -/

section

variable {aliases : String → Option ModuleId} {classes : ClassModel} {first second : Ty}

theorem declaration_isSome {ty : Ty} (known : (declaration aliases ty).isSome) :
    (∃ name, name ≠ "VOID" ∧ ty = .named name) ∨ ∃ module name, ty = .importedNamed module name := by
  cases ty with
  | named name =>
    refine .inl ⟨name, ?_, rfl⟩
    rintro rfl
    exact Bool.false_ne_true known
  | importedNamed module name => exact .inr ⟨module, name, rfl⟩
  | _ => exact absurd known Bool.false_ne_true

theorem typeKind_of_declaration {ty : Ty} (known : (declaration aliases ty).isSome) :
    typeKind ty = some .nominal := by
  rcases declaration_isSome known with ⟨name, other, rfl⟩ | ⟨module, name, rfl⟩
  · exact if_neg other
  · rfl

theorem Separate.symm (separate : Separate aliases classes first second) :
    Separate aliases classes second first :=
  ⟨separate.nominalSecond, separate.nominalFirst, separate.different.symm, separate.noUpcastBack, separate.noUpcast⟩

theorem Separate.compatible_iff (separate : Separate aliases classes first second) :
    compatible first second = true ↔ SpelledAlike first second ∨ SpelledAlike second first := by
  have different := separate.different
  rcases declaration_isSome separate.nominalFirst with ⟨name, -, rfl⟩ | ⟨module, name, rfl⟩ <;>
    rcases declaration_isSome separate.nominalSecond with ⟨other, -, rfl⟩ | ⟨module', other, rfl⟩
  · have apart : (name == other) = false := beq_eq_false_iff_ne.2 fun same => different (same ▸ rfl)
    have unfolded : compatible (.named name) (.named other) =
        (name == other || sameHostName name other || sameHostName other name) := rfl
    rw [unfolded, apart, Bool.false_or, Bool.or_eq_true]
    constructor
    · exact Or.imp .host .host
    · rintro (alike | alike)
      · cases alike with
        | host short => exact .inl short
      · cases alike with
        | host short => exact .inr short
  · have unfolded : compatible (.named name) (.importedNamed module' other) = (lastPart name == other) := rfl
    rw [unfolded, beq_iff_eq]
    constructor
    · rintro rfl
      exact .inl (.imported name module')
    · rintro (alike | alike)
      · cases alike with
        | imported => rfl
      · cases alike
  · have unfolded : compatible (.importedNamed module name) (.named other) = (lastPart other == name) := rfl
    rw [unfolded, beq_iff_eq]
    constructor
    · rintro rfl
      exact .inr (.imported other module)
    · rintro (alike | alike)
      · cases alike
      · cases alike with
        | imported => rfl
  · have unfolded : compatible (.importedNamed module name) (.importedNamed module' other) =
        (Ty.importedNamed module' other == .importedNamed module name) := rfl
    rw [unfolded, beq_iff_eq]
    constructor
    · intro same
      exact absurd (congrArg (declaration aliases) same.symm) different
    · rintro (alike | alike) <;> cases alike

end

theorem typeKind_named {name : String} {kind : TypeKind} (known : typeKind (.named name) = some kind) :
    kind = .nominal := by
  rw [typeKind] at known
  split at known
  · cases known
  · exact (Option.some.inj known).symm

theorem compatible_kinds {expected actual : Ty} {one other : TypeKind} (first : typeKind expected = some one)
    (second : typeKind actual = some other) (different : one ≠ other) : compatible expected actual = false := by
  cases expected <;> first | (cases first; done) | skip
  all_goals cases actual <;> first | (cases second; done) | rfl | skip
  -- two types of one kind are left
  case named.named => exact absurd ((typeKind_named first).trans (typeKind_named second).symm) different
  case named.importedNamed =>
    cases second
    exact absurd (typeKind_named first) different
  case importedNamed.named =>
    cases first
    exact absurd (typeKind_named second).symm different
  all_goals
    cases first
    cases second
    exact absurd rfl different

theorem compatibleLists_append {expected actual : Ty} (apart : compatible expected actual = false)
    {after after' before before' : List Ty} (same : before.length = before'.length) :
    compatibleLists (before ++ expected :: after) (before' ++ actual :: after') = false := by
  induction before generalizing before' with
  | nil =>
    cases before' with
    | nil => rw [List.nil_append, List.nil_append, compatibleLists, apart, Bool.false_and]
    | cons => cases same
  | cons first before step =>
    cases before' with
    | nil => cases same
    | cons other before' =>
      rw [List.cons_append, List.cons_append, compatibleLists, step (Nat.succ.inj same), Bool.and_false]

theorem compatibleAny_eq_false {actual : Ty} {options : List Ty}
    (apart : ∀ option ∈ options, compatible option actual = false) : compatibleAny options actual = false := by
  induction options with
  | nil => rfl
  | cons option options step =>
    rw [List.forall_mem_cons] at apart
    rw [compatibleAny, apart.1, step apart.2, Bool.false_or]

theorem compatibleAt_eq_false {picked actual : Ty} {options : List Ty}
    (apart : ∀ option ∈ options, compatible option actual = false) :
    compatibleAt picked options actual = false := by
  induction options with
  | nil => rfl
  | cons option options step =>
    rw [List.forall_mem_cons] at apart
    rw [compatibleAt, apart.1, step apart.2, ite_self]

theorem compatible_alternative {actual : Ty} {options : List Ty} (single : isAlternative actual = false) :
    compatible (.alternative options) actual = match NumericClass.ofLiteral actual with
      | some numeric =>
        match numericAlternative options numeric with
        | some picked => compatibleAt picked options actual
        | none => false
      | none => compatibleAny options actual := by
  cases actual
  case alternative => cases single
  all_goals rfl

theorem compatible_options {actual : Ty} {options : List Ty} (single : isAlternative actual = false)
    (apart : ∀ option ∈ options, compatible option actual = false) :
    compatible (.alternative options) actual = false := by
  rw [compatible_alternative single]
  split
  next numeric _ =>
    split
    next picked _ => exact compatibleAt_eq_false apart
    next => rfl
  next => exact compatibleAny_eq_false apart

theorem allMembersOf_eq_false {rule : Ty → Bool} {member : Ty} {members : List Ty} (within : member ∈ members)
    (refused : allMembers rule member = false) : allMembersOf rule members = false := by
  induction members with
  | nil => exact absurd within List.not_mem_nil
  | cons first members step =>
    rw [allMembersOf]
    rcases List.mem_cons.1 within with rfl | rest
    · rw [refused, Bool.false_and]
    · rw [step rest, Bool.and_false]

theorem compatible_member {expected member : Ty} {members : List Ty} (single : isAlternative expected = false)
    (within : member ∈ members) (apart : compatible expected member = false) :
    compatible expected (.alternative members) = false := by
  cases expected
  case alternative => cases single
  all_goals exact allMembersOf_eq_false within apart

theorem compatible_alternatives {options members : List Ty} {member : Ty} (within : member ∈ members)
    (apart : ∀ option ∈ options, compatible option member = false) :
    compatible (.alternative options) (.alternative members) = false := by
  rw [compatible]
  exact List.all_eq_false.2 ⟨member, within, by rw [compatibleAny_eq_false apart]; exact Bool.false_ne_true⟩

/-! ### Types with the class model -/

section

variable {classes : ClassModel}

theorem acceptsAll_eq_false {expected member : Ty} {rest : Ty → Bool} {members : List Ty}
    (within : member ∈ members) (refused : acceptsMembers classes expected rest member = false) :
    acceptsAll classes expected rest members = false := by
  induction members with
  | nil => exact absurd within List.not_mem_nil
  | cons first members step =>
    rw [acceptsAll]
    rcases List.mem_cons.1 within with rfl | later
    · rw [refused, Bool.false_and]
    · rw [step later, Bool.and_false]

theorem assignableAny_eq_false {actual : Ty} {options : List Ty}
    (apart : ∀ option ∈ options, assignable classes option actual = false) :
    assignableAny classes options actual = false := by
  induction options with
  | nil => rfl
  | cons option options step =>
    rw [List.forall_mem_cons] at apart
    rw [assignableAny, apart.1, step apart.2, Bool.false_or]

theorem assignable_member {expected member : Ty} {members : List Ty} (single : isAlternative expected = false)
    (within : member ∈ members) (apart : assignable classes expected member = false)
    (refused : accepts classes expected (.alternative members) = false) :
    assignable classes expected (.alternative members) = false := by
  have both : ∀ rest, acceptsMembers classes expected rest member = false →
      acceptsMembers classes expected rest (.alternative members) = false := by
    intro rest memberRefused
    rw [acceptsMembers, refused, acceptsAll_eq_false within memberRefused, Bool.false_or]
  cases expected
  case alternative => cases single
  all_goals exact both _ apart

theorem assignable_alternative {actual : Ty} {options : List Ty}
    (refused : accepts classes (.alternative options) actual = false)
    (apart : ∀ option ∈ options, assignable classes option actual = false) :
    assignable classes (.alternative options) actual = false := by
  rw [assignable, refused, Bool.false_or]
  split
  · rfl
  · exact assignableAny_eq_false apart

theorem assignable_single {expected actual : Ty} (single : isAlternative expected = false)
    (singleActual : isAlternative actual = false)
    (apart : ∀ element dimensions element' dimensions', expected = .vector element dimensions →
      actual = .vector element' dimensions' → assignable classes element element' = false)
    (refused : accepts classes expected actual = false) : assignable classes expected actual = false := by
  have flat : ∀ rest, acceptsMembers classes expected rest actual = (accepts classes expected actual || rest actual) := by
    intro rest
    cases actual
    case alternative => cases singleActual
    all_goals rfl
  cases expected
  case alternative => cases single
  case vector element dimensions =>
    rw [assignable, flat, refused, Bool.false_or]
    split
    next element' dimensions' => rw [apart _ _ _ _ rfl rfl, Bool.and_false]
    next => rfl
  all_goals
    rw [assignable, flat, refused, Bool.false_or]
    all_goals nofun

end

/-! ### Nested types -/

/-- Two types that nothing makes assignable: neither the types alone nor the class model. -/
structure Refused (classes : ClassModel) (expected actual : Ty) : Prop where
  known : isUnknown expected = false ∧ isUnknown actual = false
  solid : isVoid expected = false ∧ isVoid actual = false
  noUpcast : upcasts classes expected actual = false
  incompatible : compatible expected actual = false
  unassignable : assignable classes expected actual = false

section

variable {aliases : String → Option ModuleId} {classes : ClassModel} {expected actual : Ty}

theorem accepts_eq_false (known : isUnknown expected = false ∧ isUnknown actual = false)
    (noUpcast : upcasts classes expected actual = false) (incompatible : compatible expected actual = false) :
    accepts classes expected actual = false := by
  rw [accepts, known.1, known.2, noUpcast, incompatible]
  rfl

theorem upcasts_actual (unnamed : nominalIdentity actual = none) : upcasts classes expected actual = false := by
  rw [upcasts, unnamed]
  split
  next none_ => cases none_
  next => rfl

theorem upcasts_expected (unnamed : nominalIdentity expected = none) :
    upcasts classes expected actual = false := by
  rw [upcasts, unnamed]

theorem kind_known {ty : Ty} {kind : TypeKind} (known : typeKind ty = some kind) :
    isUnknown ty = false ∧ isVoid ty = false ∧ isAlternative ty = false ∧
      (kind ≠ .nominal → nominalIdentity ty = none) := by
  cases ty
  case named name =>
    have solid : name ≠ "VOID" := by
      rintro rfl
      cases known
    exact ⟨rfl, beq_eq_false_iff_ne.2 solid, rfl, fun other => absurd (typeKind_named known) other⟩
  case importedNamed =>
    cases known
    exact ⟨rfl, rfl, rfl, fun other => absurd rfl other⟩
  all_goals first | (cases known; done) | exact ⟨rfl, rfl, rfl, fun _ => rfl⟩

theorem refused_kinds {one other : TypeKind} (first : typeKind expected = some one)
    (second : typeKind actual = some other) (different : one ≠ other) : Refused classes expected actual := by
  obtain ⟨known, solid, single, unnamed⟩ := kind_known first
  obtain ⟨known', solid', single', unnamed'⟩ := kind_known second
  have incompatible := compatible_kinds first second different
  have noUpcast : upcasts classes expected actual = false := by
    by_cases nominal : one = .nominal
    · exact upcasts_actual (unnamed' fun same => different (nominal.trans same.symm))
    · exact upcasts_expected (unnamed nominal)
  refine ⟨⟨known, known'⟩, ⟨solid, solid'⟩, noUpcast, incompatible, ?_⟩
  apply assignable_single single single' _ (accepts_eq_false ⟨known, known'⟩ noUpcast incompatible)
  rintro element dimensions element' dimensions' rfl rfl
  cases first
  cases second
  exact absurd rfl different

theorem refused_nominal (separate : Separate aliases classes expected actual)
    (incompatible : compatible expected actual = false) : Refused classes expected actual := by
  obtain ⟨known, solid, single, -⟩ := kind_known (typeKind_of_declaration separate.nominalFirst)
  obtain ⟨known', solid', single', -⟩ := kind_known (typeKind_of_declaration separate.nominalSecond)
  refine ⟨⟨known, known'⟩, ⟨solid, solid'⟩, separate.noUpcast, incompatible, ?_⟩
  apply assignable_single single single' _
    (accepts_eq_false ⟨known, known'⟩ separate.noUpcast incompatible)
  rintro element dimensions element' dimensions' rfl rfl
  exact absurd separate.nominalFirst Bool.false_ne_true

theorem refused_options {options : List Ty} (some_ : options ≠ []) (single : isAlternative actual = false)
    (apart : ∀ option ∈ options, Refused classes option actual) :
    Refused classes (.alternative options) actual := by
  obtain ⟨option, within⟩ := List.exists_mem_of_ne_nil options some_
  have sample := apart option within
  have known : isUnknown (.alternative options) = false ∧ isUnknown actual = false := ⟨rfl, sample.known.2⟩
  have incompatible := compatible_options single fun option within => (apart option within).incompatible
  have noUpcast : upcasts classes (.alternative options) actual = false := upcasts_expected rfl
  refine ⟨known, ⟨rfl, sample.solid.2⟩, noUpcast, incompatible, ?_⟩
  exact assignable_alternative (accepts_eq_false known noUpcast incompatible)
    fun option within => (apart option within).unassignable

theorem refused_member {member : Ty} {members : List Ty} (single : isAlternative expected = false)
    (within : member ∈ members) (apart : Refused classes expected member) :
    Refused classes expected (.alternative members) := by
  have known : isUnknown expected = false ∧ isUnknown (.alternative members) = false := ⟨apart.known.1, rfl⟩
  have incompatible := compatible_member single within apart.incompatible
  have noUpcast : upcasts classes expected (.alternative members) = false := upcasts_actual rfl
  refine ⟨known, ⟨apart.solid.1, rfl⟩, noUpcast, incompatible, ?_⟩
  exact assignable_member single within apart.unassignable (accepts_eq_false known noUpcast incompatible)

theorem refused_alternatives {options members : List Ty} {member : Ty} (within : member ∈ members)
    (apart : ∀ option ∈ options, Refused classes option member)
    (whole : ∀ option ∈ options, Refused classes option (.alternative members)) :
    Refused classes (.alternative options) (.alternative members) := by
  have incompatible := compatible_alternatives within fun option inside => (apart option inside).incompatible
  have noUpcast : upcasts classes (.alternative options) (.alternative members) = false := upcasts_expected rfl
  refine ⟨⟨rfl, rfl⟩, ⟨rfl, rfl⟩, noUpcast, incompatible, ?_⟩
  exact assignable_alternative (accepts_eq_false ⟨rfl, rfl⟩ noUpcast incompatible)
    fun option inside => (whole option inside).unassignable

theorem refused_nested {outer outerActual : Ty} (incompatible : compatible outer outerActual = false)
    (unnamed : nominalIdentity outer = none)
    (shape : isUnknown outer = false ∧ isVoid outer = false ∧ isAlternative outer = false)
    (shapeActual : isUnknown outerActual = false ∧ isVoid outerActual = false ∧ isAlternative outerActual = false)
    (apart : ∀ element dimensions element' dimensions', outer = .vector element dimensions →
      outerActual = .vector element' dimensions' → assignable classes element element' = false) :
    Refused classes outer outerActual := by
  have noUpcast : upcasts classes outer outerActual = false := upcasts_expected unnamed
  have known := And.intro shape.1 shapeActual.1
  refine ⟨known, ⟨shape.2.1, shapeActual.2.1⟩, noUpcast, incompatible, ?_⟩
  exact assignable_single shape.2.2 shapeActual.2.2 apart (accepts_eq_false known noUpcast incompatible)

end

theorem Apart.refused {aliases : String → Option ModuleId} {classes : ClassModel} {pairs : Ty → Ty → Prop}
    (separate : ∀ first second, pairs first second → Separate aliases classes first second)
    (unmixed : ∀ first second, pairs first second → ¬SpelledAlike first second ∧ ¬SpelledAlike second first)
    {expected actual : Ty} (apart : Apart pairs expected actual) : Refused classes expected actual := by
  induction apart with
  | @pair first second listed =>
    have both := separate first second listed
    apply refused_nominal both
    rw [← Bool.not_eq_true, both.compatible_iff, not_or]
    exact unmixed first second listed
  | @back first second listed =>
    have both := (separate first second listed).symm
    apply refused_nominal both
    rw [← Bool.not_eq_true, both.compatible_iff, not_or]
    exact (unmixed first second listed).symm
  | kinds first second different => exact refused_kinds first second different
  | options some_ single _ step => exact refused_options some_ single step
  | member single within _ step => exact refused_member single within step
  | alternatives within _ _ step whole => exact refused_alternatives within step whole
  | @vector expected actual dimensions dimensions' _ step =>
    have incompatible : compatible (.vector expected dimensions) (.vector actual dimensions') = false := by
      have unfolded : compatible (.vector expected dimensions) (.vector actual dimensions') =
          ((dimensions == dimensions' || openFirstDimension dimensions dimensions')
            && compatible expected actual) := rfl
      rw [unfolded, step.incompatible, Bool.and_false]
    apply refused_nested incompatible rfl ⟨rfl, rfl, rfl⟩ ⟨rfl, rfl, rfl⟩
    rintro _ _ _ _ ⟨⟩ ⟨⟩
    exact step.unassignable
  | @pointer expected actual length length' _ step =>
    have incompatible : compatible (.pointer expected length) (.pointer actual length') = false := by
      have unfolded : compatible (.pointer expected length) (.pointer actual length') = (isVoid expected || isVoid actual
            || (compatible expected actual && pointerLengthsCompatible length length')) := rfl
      rw [unfolded, step.solid.1, step.solid.2, step.incompatible]
      rfl
    apply refused_nested incompatible rfl ⟨rfl, rfl, rfl⟩ ⟨rfl, rfl, rfl⟩
    rintro _ _ _ _ ⟨⟩
  | @parameter expected actual returnType returnType' before before' after after' same _ step =>
    have incompatible : compatible (.function (before ++ expected :: after) returnType)
        (.function (before' ++ actual :: after') returnType') = false := by
      have unfolded : compatible (.function (before ++ expected :: after) returnType)
          (.function (before' ++ actual :: after') returnType') =
          ((before ++ expected :: after).length == (before' ++ actual :: after').length
            && compatibleLists (before ++ expected :: after) (before' ++ actual :: after')
            && compatible returnType returnType') := rfl
      rw [unfolded, compatibleLists_append step.incompatible same, Bool.and_false, Bool.false_and]
    apply refused_nested incompatible rfl ⟨rfl, rfl, rfl⟩ ⟨rfl, rfl, rfl⟩
    rintro _ _ _ _ ⟨⟩
  | @result expected actual parameters parameters' _ step =>
    have incompatible : compatible (.function parameters expected) (.function parameters' actual) = false := by
      have unfolded : compatible (.function parameters expected) (.function parameters' actual) =
          (parameters.length == parameters'.length && compatibleLists parameters parameters'
            && compatible expected actual) := rfl
      rw [unfolded, step.incompatible, Bool.and_false]
    apply refused_nested incompatible rfl ⟨rfl, rfl, rfl⟩ ⟨rfl, rfl, rfl⟩
    rintro _ _ _ _ ⟨⟩

/-- Separate nominal types, nested in any way, are never assignable exactly if none of them are spelled
alike. -/
theorem nominalTypesApart_iff (aliases : String → Option ModuleId) (classes : ClassModel) (pairs : Ty → Ty → Prop)
    (separate : ∀ first second, pairs first second → Separate aliases classes first second) :
    (∀ expected actual, Apart pairs expected actual → assignable classes expected actual = false) ↔
      ∀ first second, pairs first second → ¬SpelledAlike first second ∧ ¬SpelledAlike second first := by
  constructor
  · intro apart first second listed
    have both := separate first second listed
    have notAlike := (not_congr both.compatible_iff).1
    rw [not_or] at notAlike
    apply notAlike
    intro alike
    have refused := apart first second (.pair listed)
    have accepted : accepts classes first second = true := by
      rw [accepts, alike, Bool.or_true, Bool.true_or]
    have taken : assignable classes first second = true := by
      rcases declaration_isSome both.nominalFirst with ⟨name, -, rfl⟩ | ⟨module, name, rfl⟩ <;>
        rcases declaration_isSome both.nominalSecond with ⟨other, -, rfl⟩ | ⟨module', other, rfl⟩ <;>
        rw [assignable, acceptsMembers, accepted, Bool.true_or] <;> nofun
    rw [refused] at taken
    exact Bool.false_ne_true taken
  · intro unmixed expected actual apart
    exact (apart.refused separate unmixed).unassignable

/-- A vector of `Cat`s or integers takes no vector of the `Dog`s of a module. -/
theorem nominalTypesApart_iff_pets :
    assignable {} (.vector (.alternative [.integer .int32, .named "Cat"]) [3])
      (.vector (.importedNamed 1 "Dog") [3]) = false := by
  let pets : Ty → Ty → Prop := fun first second => first = .named "Cat" ∧ second = .importedNamed 1 "Dog"
  have separate : ∀ first second, pets first second → Separate (fun _ => none) {} first second := by
    rintro first second ⟨rfl, rfl⟩
    exact ⟨by decide, by decide, by decide, by decide, by decide⟩
  have unmixed : ∀ first second, pets first second → ¬SpelledAlike first second ∧ ¬SpelledAlike second first := by
    rintro first second ⟨rfl, rfl⟩
    rw [← not_or, ← (separate _ _ ⟨rfl, rfl⟩).compatible_iff]
    decide
  apply (nominalTypesApart_iff (fun _ => none) {} pets separate).2 unmixed
  refine .vector (.options (List.cons_ne_nil _ _) rfl ?_)
  intro option listed
  rcases List.mem_cons.1 listed with rfl | rest
  · exact @Apart.kinds pets (.integer .int32) (.importedNamed 1 "Dog") .integer .nominal rfl rfl (by decide)
  · rw [List.mem_singleton.1 rest]
    exact .pair ⟨rfl, rfl⟩

/-- A class `Dog` of the module at hand and one of an imported module are assignable both ways. -/
theorem sameName_assignable :
    ¬∀ aliases classes first second, Separate aliases classes first second →
      assignable classes first second = false ∧ assignable classes second first = false := by
  intro apart
  have separate : Separate (fun _ => none) {} (.named "Dog") (.importedNamed 1 "Dog") :=
    ⟨by decide, by decide, by decide, by decide, by decide⟩
  have taken : assignable {} (.named "Dog") (.importedNamed 1 "Dog") = true := by decide
  rw [(apart _ _ _ _ separate).1] at taken
  exact Bool.false_ne_true taken

end BasicNext.Semantic
