import BasicNext.Semantic.NarrowingSound

/-!
# The tests that agree with assignability

`NULL`, `NA`, `EOF` and the scalar types are assignable to themselves alone, and a value is of one of them
exactly if the test says so. The float tests look at the value of a `FLOAT`, which assignability does not.
-/

namespace BasicNext.Semantic

open Frontend Interp Lib

/-- No member is an alternative type itself: so are all alternative types that a program writes. -/
def Flat (alternatives : List Ty) : Prop := ∀ members, .alternative members ∉ alternatives

/-- The types that are told by the value alone. -/
def exactType : Value → Option Ty
  | .integer _ kind => some (.integer kind)
  | .float _ kind => some (.float kind)
  | .boolean _ => some .boolean
  | .string _ => some .string
  | .null => some .null
  | .notAvailable => some .notAvailable
  | .endOfFile => some .endOfFile
  | _ => none

def IsExact : Ty → Prop
  | .integer _ | .float _ | .boolean | .string | .null | .notAvailable | .endOfFile => True
  | _ => False

variable {world : World} {run : Evaluation}

theorem exactType_of_inhabits {value : Value} {ty : Ty} (exact_ : IsExact ty)
    (inhabits : Inhabits world value ty) : exactType value = some ty := by
  cases ty with
  | boolean | integer _ | float _ | string =>
    obtain ⟨_, rfl⟩ := inhabits
    rfl
  | null | notAvailable | endOfFile =>
    obtain rfl := inhabits
    rfl
  | _ => exact False.elim exact_

theorem exactType_eq_none {value : Value} {ty : Ty} (inexact : ¬IsExact ty)
    (single : ∀ members, ty ≠ .alternative members) (inhabits : Inhabits world value ty) :
    exactType value = none := by
  cases ty with
  | boolean | integer _ | float _ | string | null | notAvailable | endOfFile => exact absurd trivial inexact
  | alternative members => exact absurd rfl (single members)
  | hostConsole | hostArgs =>
    obtain rfl := inhabits
    rfl
  | named name | importedNamed module name => cases value <;> first | rfl | exact False.elim inhabits
  | function =>
    obtain ⟨_, rfl⟩ := inhabits
    rfl
  | vector =>
    obtain ⟨_, rfl, _⟩ := inhabits
    rfl
  | pointer =>
    obtain ⟨_, _, rfl, _⟩ := inhabits
    rfl
  | _ => exact False.elim inhabits

theorem compatible_exact {ty testType : Ty} (exact_ : IsExact testType)
    (single : ∀ members, ty ≠ .alternative members) : compatible ty testType = (ty == testType) := by
  cases ty with
  | alternative members => exact absurd rfl (single members)
  | _ => cases testType <;> first | exact False.elim exact_ | rfl | exact BEq.comm

theorem compatible_iff_exactType {value : Value} {ty testType : Ty} (exact_ : IsExact testType)
    (single : ∀ members, ty ≠ .alternative members) (inhabits : Inhabits world value ty) :
    compatible ty testType = (exactType value == some testType) := by
  rw [compatible_exact exact_ single]
  by_cases same : IsExact ty
  · rw [exactType_of_inhabits same inhabits]
    rfl
  · rw [exactType_eq_none same single inhabits]
    cases ty with
    | boolean | integer _ | float _ | string | null | notAvailable | endOfFile => exact absurd trivial same
    | _ => cases testType <;> first | exact False.elim exact_ | rfl

theorem agrees_of_exact {locals : Locals} {test : Narrowing} {testType : Ty}
    (conforms : Conforms run.world run.values locals)
    (flat : ∀ symbol alternatives, locals[test.name]? = some symbol → symbol.ty = .alternative alternatives →
      Flat alternatives)
    (narrows : narrowingType run.scope test.operator test.right = .ok (some testType))
    (exact_ : IsExact testType)
    (answers : ∀ value, run.holds test.operator value test.right = some (exactType value == some testType)) :
    test.Agrees run locals := by
  intro testType' symbol alternatives value narrows' known isAlternative valued
  cases narrows.symm.trans narrows'
  obtain ⟨value', valued', inhabits⟩ := conforms test.name symbol known
  cases valued.symm.trans valued'
  rw [isAlternative, inhabits_alternative] at inhabits
  obtain ⟨ty, member, inhabits⟩ := inhabits
  refine ⟨ty, member, inhabits, ?_⟩
  rw [answers, compatible_iff_exactType exact_ ?_ inhabits]
  rintro members rfl
  exact flat symbol alternatives known isAlternative members member

/-! ### Scalars and marks -/

def isScalar : Ty → Bool
  | .integer _ | .float _ | .boolean | .string => true
  | _ => false

theorem all_ite {condition : Prop} [Decidable condition] {some_ other : Option Ty}
    (first : some_.all isScalar = true) (second : other.all isScalar = true) :
    (if condition then some_ else other).all isScalar = true := by
  split
  · exact first
  · exact second

theorem isScalar_of_scalarTestType {text : String} {ty : Ty} (scalar : scalarTestType text = some ty) :
    isScalar ty = true := by
  have all : (scalarTestType text).all isScalar = true := by
    unfold scalarTestType
    iterate 12 refine all_ite rfl ?_
    rfl
  rw [scalar] at all
  exact all

theorem isValue_scalar {classes : ClassModel} {value : Value} {text : String} {ty : Ty} {length : Option Nat}
    (scalar : scalarTestType text = some ty) :
    value.isValue classes text length = (exactType value == some ty) := by
  have unmarked : ∀ mark, isScalar mark = false → false = (some mark == some ty) := by
    intro mark isMark
    apply Eq.symm
    rw [beq_eq_false_iff_ne]
    rintro ⟨⟩
    exact absurd (isScalar_of_scalarTestType scalar) (by rw [isMark]; exact Bool.false_ne_true)
  have step : value.isValue classes text length = value.scalarType.elim false fun actual => actual == ty := by
    unfold Value.isValue
    rw [scalar]
    cases value.scalarType <;> rfl
  rw [step]
  cases value with
  | null => exact unmarked .null rfl
  | notAvailable => exact unmarked .notAvailable rfl
  | endOfFile => exact unmarked .endOfFile rfl
  | _ => rfl

theorem isValue_marked {classes : ClassModel} {value : Value} {text : String} {answer : Bool}
    {length : Option Nat} (scalar : scalarTestType text = none)
    (marked : value.isMarked text = some answer) : value.isValue classes text length = answer := by
  unfold Value.isValue
  rw [scalar]
  dsimp only
  rw [marked]

theorem holds_scalar {value : Value} {right : Expression} {named ty : Ty} {text : String}
    (tests : isTestType right = some named)
    (lowered : testText run.world.lowering (resolveType run.scope named) right = some text)
    (scalar : scalarTestType text = some ty) :
    run.holds "IS" value right = some (exactType value == some ty) := by
  rw [Evaluation.holds, if_pos rfl, Evaluation.isTest, tests]
  show (testText _ _ right).bind _ = _
  rw [lowered]
  show some _ = some _
  rw [isValue_scalar scalar]

/-- The literals `NULL`, `NA` and `EOF`, with their types and names. -/
inductive IsMark : Literal → Ty → String → Prop
  | null : IsMark .null .null "NULL"
  | notAvailable : IsMark .notAvailable .notAvailable "NA"
  | endOfFile : IsMark .endOfFile .endOfFile "EOF"

theorem isExact_of_isMark {literal : Literal} {ty : Ty} {text : String} (mark : IsMark literal ty text) :
    IsExact ty := by
  cases mark <;> trivial

theorem isValue_mark {classes : ClassModel} {value : Value} {literal : Literal} {ty : Ty} {text : String}
    {length : Option Nat} (mark : IsMark literal ty text) :
    value.isValue classes text length = (exactType value == some ty) := by
  cases mark <;> refine isValue_marked (by decide) ?_ <;> cases value <;> rfl

theorem equals_mark {value : Value} {literal : Literal} {ty : Ty} {text : String} (mark : IsMark literal ty text) :
    (run.operand (.literal literal)).map value.equals = some (exactType value == some ty) := by
  cases value with
  | resource kind => cases mark <;> cases kind <;> rfl
  | _ => cases mark <;> rfl

theorem qualifyTestName_eq {scope : LoweringScope} {text : String} (plain : text.toList.takeWhile (· ≠ '[') = text.toList)
    (undeclared : text ∉ scope.declared) : qualifyTestName scope text = text := by
  rw [qualifyTestName, plain, String.ofList_toList, qualifyName]
  cases scope.module with
  | none => rfl
  | some module => exact if_neg undeclared

theorem holds_mark {operator : String} {value : Value} {literal : Literal} {ty : Ty} {text : String}
    (mark : IsMark literal ty text) (undeclared : text ∉ run.world.lowering.declared) :
    run.holds operator value (.literal literal) = some (exactType value == some ty) := by
  rw [Evaluation.holds]
  split
  · have named : isTestType (.literal literal) = some ty := by cases mark <;> rfl
    have lowered : testText run.world.lowering (resolveType run.scope ty) (.literal literal) = some text := by
      have plain : text.toList.takeWhile (· ≠ '[') = text.toList := by cases mark <;> decide
      have written : loweredTypeTest run.world.lowering (resolveType run.scope ty) (.literal literal) = some text := by
        cases mark <;> rfl
      rw [testText, written, Option.map_some, qualifyTestName_eq plain undeclared]
    rw [Evaluation.isTest, named]
    show (testText _ _ _).bind _ = _
    rw [lowered]
    show some _ = some _
    rw [isValue_mark mark]
  · exact equals_mark mark

/-! ### Conditions of plain tests -/

theorem ite_eq_some {condition : Prop} [Decidable condition] {first answer : Ty} {other : Option Ty}
    (found : (if condition then some first else other) = some answer) :
    condition ∧ first = answer ∨ other = some answer := by
  split at found
  next holds => exact .inl ⟨holds, Option.some.inj found⟩
  next => exact .inr found

theorem scalarNames {text : String} {ty : Ty} (scalar : scalarTestType text = some ty) :
    typeFromAtom { name := text } = ty ∧ typeTestName { name := text } = text ∧
      ¬("HOST.".toList.isPrefixOf (display ty).toList ∨ display ty = "FS.File") ∧
      text.toList.takeWhile (· ≠ '[') = text.toList := by
  unfold scalarTestType at scalar
  -- One step for each name or pair of names of the table.
  iterate 12
    rcases ite_eq_some scalar with ⟨rfl | rfl, rfl⟩ | scalar
    any_goals decide
  cases scalar

theorem narrowingType_scalar {scope : TypeScope} {text : String} {ty : Ty} (scalar : scalarTestType text = some ty) :
    narrowingType scope "IS" (.typeTest { name := text }) = .ok (some ty) := by
  rw [narrowingType, if_pos rfl, isTestType, (scalarNames scalar).1]
  have isScalar := isScalar_of_scalarTestType scalar
  cases ty <;> first | rfl | cases isScalar

theorem testText_scalar {scope : LoweringScope} {text : String} {ty : Ty}
    (scalar : scalarTestType text = some ty) (undeclared : text ∉ scope.declared) :
    testText scope ty (.typeTest { name := text }) = some text := by
  obtain ⟨-, written, noHost, plain⟩ := scalarNames scalar
  have lowered : loweredAtom scope ty { name := text } = text := by
    unfold loweredAtom
    rw [if_neg noHost, written]
    have isScalar := isScalar_of_scalarTestType scalar
    cases ty <;> first | rfl | cases isScalar
  rw [testText, loweredTypeTest, lowered, Option.map_some, qualifyTestName_eq plain undeclared]

/-- No local is of an alternative type with alternative members. -/
def FlatLocals (locals : Locals) : Prop :=
  ∀ (name : String) (symbol : Symbol) (alternatives : List Ty), locals[name]? = some symbol →
    symbol.ty = .alternative alternatives → Flat alternatives

theorem flat_narrow {symbol : Symbol} {testType : Ty} {holds : Bool} {choices : List Ty}
    (flat : ∀ alternatives, symbol.ty = .alternative alternatives → Flat alternatives)
    (narrowed : (symbol.narrow testType holds).ty = .alternative choices) : Flat choices := by
  unfold Symbol.narrow at narrowed
  split at narrowed
  next alternatives isAlternative =>
    have kept : ∀ ty ∈ alternatives.filter (fun ty => compatible ty testType == holds), ty ∈ alternatives :=
      fun ty member => List.mem_of_mem_filter member
    dsimp only at narrowed
    revert kept narrowed
    match alternatives.filter fun ty => compatible ty testType == holds with
    | [] => exact fun narrowed => nomatch narrowed
    | [ty] =>
      intro (narrowed : ty = _) kept
      exact absurd (narrowed ▸ kept ty List.mem_cons_self) (flat alternatives isAlternative choices)
    | first :: second :: rest =>
      intro narrowed kept members member
      cases narrowed
      exact flat alternatives isAlternative members (kept _ member)
  next => exact flat choices narrowed

/-- A test for `NULL`, `NA` or `EOF` or for a scalar type, whose name no type of the program takes. -/
inductive Plain (lowering : LoweringScope) : Narrowing → Prop
  | mark {operator name : String} {literal : Literal} {ty : Ty} {text : String} {truth : Bool} :
    IsMark literal ty text → text ∉ lowering.declared →
    Plain lowering ⟨operator, name, .literal literal, truth⟩
  | scalar {name text : String} {ty : Ty} {truth : Bool} : scalarTestType text = some ty →
    text ∉ lowering.declared → Plain lowering ⟨"IS", name, .typeTest { name := text }, truth⟩

theorem narrowingType_mark {scope : TypeScope} {operator text : String} {literal : Literal} {ty : Ty}
    (mark : IsMark literal ty text) : narrowingType scope operator (.literal literal) = .ok (some ty) := by
  rw [narrowingType]
  split <;> cases mark <;> rfl

theorem plain_spec {test : Narrowing} (plain : Plain run.world.lowering test) :
    ∃ testType, narrowingType run.scope test.operator test.right = .ok (some testType) ∧ IsExact testType ∧
      ∀ value, run.holds test.operator value test.right = some (exactType value == some testType) := by
  cases plain with
  | mark mark undeclared =>
    exact ⟨_, narrowingType_mark mark, isExact_of_isMark mark, fun value => holds_mark mark undeclared⟩
  | @scalar name text ty truth scalar undeclared =>
    have named : isTestType (.typeTest { name := text }) = some ty := by
      rw [isTestType, (scalarNames scalar).1]
    have isScalar := isScalar_of_scalarTestType scalar
    have resolved : resolveType run.scope ty = ty := by cases ty <;> first | rfl | cases isScalar
    have exact_ : IsExact ty := by cases ty <;> trivial
    refine ⟨ty, narrowingType_scalar scalar, exact_, fun value => ?_⟩
    apply holds_scalar named _ scalar
    rw [resolved]
    exact testText_scalar scalar undeclared

theorem agrees_of_plain {locals : Locals} {test : Narrowing}
    (conforms : Conforms run.world run.values locals) (flat : FlatLocals locals)
    (plain : Plain run.world.lowering test) : test.Agrees run locals := by
  obtain ⟨testType, narrows, exact_, answers⟩ := plain_spec plain
  exact agrees_of_exact conforms (flat _ · · · ·) narrows exact_ answers

end BasicNext.Semantic
