import BasicNext.Semantic.UntilCondition

/-!
# Function bodies

A body that the analyzer accepts runs on slots that are as it lists them, where every `CONTINUE REPEAT`
keeps what `UNTIL` is checked with and no object dies whose local a test has found not to be `NULL` on the
way. The conditions have to narrow soundly one by one; those with tests for `NULL`, `NA`, `EOF` and scalar
types do.
-/

namespace BasicNext.Semantic

open Frontend Interp Lib

variable {world : World} {scope : TypeScope}

/-! ### Plain conditions -/

variable {store : Store world}

theorem Holds.conforms {locals : Locals} (holds : Holds store locals) :
    Conforms world store.values locals := by
  intro name symbol known
  obtain ⟨slot, filled, -, inhabits⟩ := holds name symbol known
  exact ⟨slot.value, by rw [Store.values, filled]; rfl, inhabits⟩

theorem Holds.of_conforms {inner outer : Locals} (holds : Holds store outer) (conforms : Conforms world store.values inner)
    (listed : ∀ (name : String) (symbol : Symbol), inner[name]? = some symbol →
      ∃ symbol', outer[name]? = some symbol' ∧ symbol'.declaredTy = symbol.declaredTy) :
    Holds store inner := by
  intro name symbol known
  obtain ⟨symbol', known', declared'⟩ := listed name symbol known
  obtain ⟨slot, filled, declared, -⟩ := holds name symbol' known'
  obtain ⟨value, valued, inhabits⟩ := conforms name symbol known
  rw [Store.values, filled] at valued
  obtain rfl : slot.value = value := Option.some.inj valued
  exact ⟨slot, filled, declared.trans declared', inhabits⟩

variable {locals narrowed : Locals}

theorem listed_of_apply {test : Narrowing}
    (found : test.apply scope locals = .ok narrowed) (name : String) (symbol : Symbol)
    (known : narrowed[name]? = some symbol) :
    ∃ symbol', locals[name]? = some symbol' ∧ symbol'.declaredTy = symbol.declaredTy := by
  rcases narrowByTest_eq_ok found with ⟨-, rfl⟩ | ⟨testType, symbol', -, known', rfl⟩
  · exact ⟨symbol, known, rfl⟩
  · rw [Std.TreeMap.getElem?_insert] at known
    split at known
    next same =>
      obtain rfl := Std.LawfulEqCmp.eq_of_compare same
      cases known
      exact ⟨symbol', known', (declaredTy_narrow symbol' testType _).symm⟩
    next => exact ⟨symbol, known, rfl⟩

theorem not_connective {operator : String} (isTest : isTestOperator operator = true) :
    operator ≠ "AND" ∧ operator ≠ "OR" := by
  constructor <;> rintro rfl <;> revert isTest <;> decide

variable {condition : Expression}

theorem holds_of_test {operator name : String} {right : Expression} {truth : Bool} {run : Evaluation}
    (sameWorld : run.world = world)
    (sameScope : run.scope = scope) (sameValues : run.values = store.values)
    (tested : run.test operator (.name name) right = some truth) (flat : FlatLocals locals)
    (holds : Holds store locals) (plain : Plain world.lowering ⟨operator, name, right, truth⟩)
    (found : narrowByTest scope operator name right locals truth = .ok narrowed) : Holds store narrowed := by
  subst sameWorld sameScope
  have conforms : Conforms run.world run.values locals := sameValues ▸ holds.conforms
  have agrees := agrees_of_plain conforms flat plain
  have kept := (@conforms_apply_iff run locals narrowed ⟨operator, name, right, truth⟩ conforms tested found).2 agrees
  exact holds.of_conforms (sameValues ▸ kept)
    (@listed_of_apply run.scope locals narrowed ⟨operator, name, right, truth⟩ found)

theorem narrowsSoundly_of_plain (plain : ∀ truth, ∀ test ∈ narrowings condition truth, Plain world.lowering test) :
    NarrowsSoundly world scope condition := by
  intro mayDie store after truth locals narrowed flat listsNull spares holds evaluates narrows
  replace plain := plain truth
  induction evaluates generalizing locals narrowed with
  | not isNot _ ih =>
    rw [narrowedLocals, if_pos isNot, Bool.not_not] at narrows
    rw [narrowings, if_pos isNot, Bool.not_not] at plain spares
    exact ih _ _ flat listsNull spares holds narrows plain
  | andLeft isAnd evaluates =>
    rw [narrowedLocals, if_pos isAnd, if_neg Bool.false_ne_true] at narrows
    cases narrows
    exact holds.evaluates listsNull evaluates
  | @andRight operator left right _ _ truth _ isAnd evaluatesLeft evaluatesRight ihLeft ihRight =>
    rw [narrowedLocals, if_pos isAnd] at narrows
    rw [narrowings, if_pos isAnd] at plain spares
    cases truth with
    | false =>
      cases narrows
      exact (holds.evaluates listsNull evaluatesLeft).evaluates listsNull evaluatesRight
    | true =>
      obtain ⟨leftLocals, narrowsLeft, narrowsRight⟩ := bind_eq_ok.1 narrows
      have sparesLeft := fun test member => spares test (List.mem_append_left _ member)
      exact ihRight _ _ (flat.narrowed narrowsLeft) (listsNull.narrowed flat sparesLeft narrowsLeft)
        (fun test member => spares test (List.mem_append_right _ member))
        (ihLeft _ _ flat listsNull sparesLeft holds narrowsLeft fun test member =>
          plain test (List.mem_append_left _ member))
        narrowsRight fun test member => plain test (List.mem_append_right _ member)
  | orLeft isOr evaluates =>
    subst isOr
    cases narrows
    exact holds.evaluates listsNull evaluates
  | @orRight operator left right _ _ truth _ isOr evaluatesLeft evaluatesRight ihLeft ihRight =>
    subst isOr
    cases truth with
    | true =>
      cases narrows
      exact (holds.evaluates listsNull evaluatesLeft).evaluates listsNull evaluatesRight
    | false =>
      obtain ⟨leftLocals, narrowsLeft, narrowsRight⟩ := bind_eq_ok.1 narrows
      have sparesLeft := fun test member => spares test (List.mem_append_left _ member)
      exact ihRight _ _ (flat.narrowed narrowsLeft) (listsNull.narrowed flat sparesLeft narrowsLeft)
        (fun test member => spares test (List.mem_append_right _ member))
        (ihLeft _ _ flat listsNull sparesLeft holds narrowsLeft fun test member =>
          plain test (List.mem_append_left _ member))
        narrowsRight fun test member => plain test (List.mem_append_right _ member)
  | test run isTest sameWorld sameScope sameValues tested evolves =>
    obtain ⟨notAnd, notOr⟩ := not_connective isTest
    rw [narrowedLocals, if_neg notAnd, if_neg notOr, if_pos isTest] at narrows
    rw [narrowings, if_neg notAnd, if_neg notOr, if_pos isTest] at plain
    exact (holds_of_test sameWorld sameScope sameValues tested flat.flatLocals holds
      (plain _ (List.mem_singleton.2 rfl)) narrows).evolves evolves
  | @free condition _ truth _ trueTests falseTests evolves =>
    have tests : narrowings condition truth = [] := by
      cases truth with
      | true => exact trueTests
      | false => exact falseTests
    rw [narrowedLocals_eq_foldlM, tests] at narrows
    obtain rfl := pure_eq_ok.1 narrows
    exact holds.evolves evolves
  | dies dies _ ih => exact ih _ _ flat listsNull spares (holds.dies listsNull dies) narrows plain

/-! ### Bodies -/

theorem allFlat_of_declareParameters {parameters : List (String × DeclaredType)} {before locals : Locals}
    (flat : AllFlat before) (declared : declareParameters parameters before = .ok locals) : AllFlat locals := by
  induction parameters generalizing before with
  | nil =>
    cases declared
    exact flat
  | cons parameter parameters ih =>
    obtain ⟨next, declares, rest⟩ := bind_eq_ok.1 declared
    obtain ⟨-, rfl⟩ := declareLocal_eq_ok.1 declares
    exact ih (flat.insert (isFlat_declared parameter.2) (isFlat_declared parameter.2)) rest

theorem listsNull_of_declareParameters {mayDie : String → Prop} {parameters : List (String × DeclaredType)}
    {before locals : Locals} (listsNull : ListsNull world mayDie before)
    (declared : declareParameters parameters before = .ok locals) : ListsNull world mayDie locals := by
  induction parameters generalizing before with
  | nil =>
    cases declared
    exact listsNull
  | cons parameter parameters ih =>
    obtain ⟨next, declares, rest⟩ := bind_eq_ok.1 declared
    obtain ⟨-, rfl⟩ := declareLocal_eq_ok.1 declares
    exact ih (listsNull.insert fun _ => id) rest

/-- Names, literals and comparisons. -/
def simpleExpression (locals : Locals) : Expression → Except Rejected Ty
  | .name name =>
    match locals[name]? with
    | some symbol => .ok symbol.ty
    | none => .error (.nameNotFound name "this scope")
  | .literal (.boolean _) | .binary .. => .ok .boolean
  | .literal (.integer text) => .ok (.integerLiteral text)
  | _ => .error (.expression "INVALID_EXPRESSION")

def simpleTyping : Typing where
  expression := simpleExpression
  expressionAs := fun locals _ expression => simpleExpression locals expression
  compatible := compatible
  place := fun _ _ => .error (.expression "INVALID_EXPRESSION")
  typeReference := fun _ _ => .ok ()
  requiresInitializer := fun declared => declared.ty != .integer .int32
  settle := fun _ _ => .ok ()
  destructure := fun _ _ _ => .error (.expression "INVALID_EXPRESSION")
  header := fun _ _ => .ok ()
  globals := fun _ => none

def simpleAnalyzer : Analyzer := { typing := simpleTyping }

def booleanType : DeclaredType := ⟨.boolean, nofun⟩

def integerDeclared : DeclaredType := ⟨.integer .int32, nofun⟩

/-- `f AS BOOLEAN` -/
def flagOnly : Locals := (∅ : Locals).insert "f" (Symbol.mk .boolean .boolean true true)

def flagAndNumber : Locals := flagOnly.insert "y" (Symbol.mk (.integer .int32) (.integer .int32) false false)

/-- `UNTIL y > 0` -/
def isPositive : Expression := .binary "Greater" (.name "y") (.literal (.integer "0"))

/-- `REPEAT`, `IF f THEN CONTINUE REPEAT`, `LET y AS INTEGER = 1`, `UNTIL y > 0`, `END REPEAT`, with the
locals `before` and `after` the declaration. -/
def skippedDeclaration {α : Type} (before after : α) : Block α :=
  .cons (.loop before (.repeat_ isPositive after)
    (.cons (.if_ before (.branch before (.name "f") (.cons (.control before .continue_ .repeat_) (.nil before))
        (.untaken before)))
      (.cons (.binding before false integerDeclared [⟨"y", some (.literal (.integer "1"))⟩]) (.nil after))))
    (.nil before)

def flagStore : Store {} := fun name => if name = "f" then some ⟨.boolean, .boolean true, true, rfl⟩ else none

theorem known_insert {name other : String} {symbol symbol' : Symbol}
    (known : ((∅ : Locals).insert name symbol)[other]? = some symbol') : name = other ∧ symbol = symbol' := by
  rw [Std.TreeMap.getElem?_insert] at known
  split at known
  next same => exact ⟨Std.LawfulEqCmp.eq_of_compare same, Option.some.inj known⟩
  next =>
    rw [Std.TreeMap.getElem?_emptyc] at known
    cases known

theorem narrowsSoundly_of_no_test
    (none_ : ∀ truth, narrowings condition truth = []) : NarrowsSoundly world scope condition :=
  narrowsSoundly_of_plain fun truth test member => by rw [none_ truth] at member; cases member

/-- `x AS INTEGER OR NULL` -/
def optionalInteger : DeclaredType :=
  ⟨.alternative [.integer .int32, .null], fun alternatives members same => by
    cases same
    exact fun member => nomatch member⟩

def optionalOnly : Locals := (∅ : Locals).insert "x" (Symbol.mk optionalInteger.ty optionalInteger.ty true true)

def presentOnly : Locals := optionalOnly.insert "x" (Symbol.mk (.integer .int32) optionalInteger.ty true true)

def absentOnly : Locals := optionalOnly.insert "x" (Symbol.mk .null optionalInteger.ty true true)

/-- `x IS NULL` -/
def isAbsent : Expression := .binary "IS" (.name "x") (.literal .null)

/-- `REPEAT`, `IF x IS NULL THEN CONTINUE REPEAT`, `UNTIL x IS NULL`, `END REPEAT`, with the locals of the
body and of its branch. -/
def continuesWhenAbsent {α : Type} (body taken untaken : α) : Block α :=
  .cons (.loop body (.repeat_ isAbsent body)
    (.cons (.if_ body (.branch body isAbsent (.cons (.control taken .continue_ .repeat_) (.nil taken))
      (.untaken untaken))) (.nil body))) (.nil body)

def absentStore : Store {} := fun name => if name = "x" then some ⟨optionalInteger.ty, .null, .inr (.inl rfl)⟩ else none

/-- `x AS WEAK Node OR NULL` -/
def optionalNode : DeclaredType :=
  ⟨.alternative [.named "Node", .null], fun alternatives members same => by
    cases same
    exact fun member => nomatch member⟩

def nodeOrNull : Locals := (∅ : Locals).insert "x" (Symbol.mk optionalNode.ty optionalNode.ty true true)

def nodeOnly : Locals := nodeOrNull.insert "x" (Symbol.mk (.named "Node") optionalNode.ty true true)

def noNode : Locals := nodeOrNull.insert "x" (Symbol.mk .null optionalNode.ty true true)

/-- `IF x IS NULL THEN`, `ELSE`, `END IF` -/
def whenThere {α : Type} (before absent there : α) : Block α :=
  .cons (.if_ before (.branch before isAbsent (.nil absent) (.otherwise (.nil there)))) (.nil before)

def nodeSlot : Slot {} := ⟨optionalNode.ty, .object ⟨0, 1⟩ "Node", .inl ⟨"Node", .refl _, .inl rfl⟩⟩

def nodeStore : Store {} := fun name => if name = "x" then some nodeSlot else none

/-- The object dies where a test has found `x`, and `x` reads `NULL` there. -/
theorem deadObject_not_sound :
    declareParameters [("x", optionalNode)] ∅ = .ok nodeOrNull ∧
      simpleAnalyzer.block [] false nodeOrNull (whenThere () () ()) = .ok (whenThere nodeOrNull noNode nodeOnly) ∧
      (∀ condition ∈ (whenThere () () ()).conditions, NarrowsSoundly {} simpleAnalyzer.scope condition) ∧
      Holds nodeStore nodeOrNull ∧
      ∃ note reached, Reaches simpleAnalyzer.scope ⟨KeepsUntil simpleAnalyzer.scope, fun _ _ => True⟩ []
        (.block none (whenThere nodeOrNull noNode nodeOnly)) nodeStore note reached ∧ ¬Holds reached note := by
  refine ⟨rfl, rfl, fun condition member => ?_, fun name symbol known => ?_, nodeOnly, _,
    .first (.if_ (.next (.test { values := nodeStore.values } rfl rfl rfl rfl (by decide) (Store.Evolves.refl _))
      (.otherwise (.dies nofun ⟨"x", nodeSlot, .inr (.inl rfl), rfl, ⟨_, _, rfl⟩, trivial, rfl⟩ .nil)))), fun holds => ?_⟩
  · obtain rfl := List.mem_singleton.1 member
    refine narrowsSoundly_of_plain fun truth test member => ?_
    obtain rfl := List.mem_singleton.1 member
    exact .mark .null nofun
  · obtain ⟨rfl, rfl⟩ := known_insert known
    exact ⟨_, rfl, rfl, .inl ⟨"Node", .refl _, .inl rfl⟩⟩
  · obtain ⟨slot, filled, -, inhabits⟩ := holds "x" (Symbol.mk (.named "Node") optionalNode.ty true true) rfl
    cases filled
    exact inhabits

end BasicNext.Semantic
