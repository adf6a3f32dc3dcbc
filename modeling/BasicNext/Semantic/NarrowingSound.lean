import BasicNext.Semantic.Inhabits
import BasicNext.Semantic.Narrowing

/-!
# What narrowing says about values

A condition is evaluated on the values of the locals, with short circuits. Its value settles the values of
the tests that `narrowings` lists. Narrowing by one test keeps the value of the local exactly when some
alternative that the value is of is assignable from the tested type just as the test says; the types only
shrink, so the values survive a whole condition exactly when they survive every one of its tests.
-/

namespace BasicNext.Semantic

open Frontend Interp Lib

/-! ### Evaluation -/

/-- What a condition is evaluated in: the values of the locals and of all expressions that are no tests. -/
structure Evaluation where
  world : World := {}
  scope : TypeScope := {}
  values : String → Option Value
  others : Expression → Option Value := fun _ => none

namespace Evaluation

variable (run : Evaluation)

def operand : Expression → Option Value
  | .name name => (run.values name).or (run.others (.name name))
  | .literal .null => some .null
  | .literal .notAvailable => some .notAvailable
  | .literal .endOfFile => some .endOfFile
  | expression => run.others expression

/-- The length of the allocation of a pointer, which is live. -/
def lengthOf : Value → Option Nat
  | .pointer handle _ => run.world.lengths handle
  | _ => none

/-- `value IS right` -/
def isTest (value : Value) (right : Expression) : Option Bool := do
  let named ← isTestType right
  let text ← testText run.world.lowering (resolveType run.scope named) right
  some (value.isValue run.world.classes text (run.lengthOf value))

/-- Whether a value is what the right side of a test names. -/
def holds (operator : String) (value : Value) (right : Expression) : Option Bool :=
  if operator = "IS" then run.isTest value right else (run.operand right).map value.equals

def test (operator : String) (left right : Expression) : Option Bool := do
  let value ← run.operand left
  (run.holds operator value right).map (testHolds operator)

/-- The value of any other expression, as a condition. -/
def other (expression : Expression) : Option Bool :=
  match run.others expression with
  | some (.boolean truth) => some truth
  | _ => none

def evaluate : Expression → Option Bool
  | .unary operator operand =>
    if operator = "NOT" then (evaluate operand).map not else run.other (.unary operator operand)
  | .binary operator left right =>
    if operator = "AND" then do if ← evaluate left then evaluate right else some false
    else if operator = "OR" then do if ← evaluate left then some true else evaluate right
    else if isTestOperator operator then run.test operator left right
    else run.other (.binary operator left right)
  | expression => run.other expression

end Evaluation

/-! ### Settled tests -/

variable {run : Evaluation}

theorem testHolds_testHolds (operator : String) (truth : Bool) :
    testHolds operator (testHolds operator truth) = truth := by
  rw [testHolds, testHolds]
  split
  · rw [Bool.not_not]
  · rfl

theorem test_of_evaluate {condition : Expression} {truth : Bool} (evaluates : run.evaluate condition = some truth) :
    ∀ test ∈ narrowings condition truth, run.test test.operator (.name test.name) test.right = some test.truth := by
  induction condition generalizing truth with
  | literal | name | typeTest | other => exact fun _ member => absurd member List.not_mem_nil
  | unary operator operand ih =>
    rw [Evaluation.evaluate] at evaluates
    rw [narrowings]
    split at evaluates
    next isNot =>
      rw [if_pos isNot]
      obtain ⟨answer, answered, rfl⟩ := Option.map_eq_some_iff.1 evaluates
      rw [Bool.not_not]
      exact ih answered
    next isNot =>
      rw [if_neg isNot]
      exact fun _ member => absurd member List.not_mem_nil
  | binary operator left right ihLeft ihRight =>
    rw [Evaluation.evaluate] at evaluates
    rw [narrowings]
    split at evaluates
    next isAnd =>
      rw [if_pos isAnd]
      cases truth with
      | false => exact fun _ member => absurd member List.not_mem_nil
      | true =>
        obtain ⟨answer, answered, rest⟩ := Option.bind_eq_some_iff.1 evaluates
        cases answer with
        | false => cases rest
        | true =>
          intro test member
          rw [if_pos rfl, List.mem_append] at member
          exact member.elim (ihLeft answered test) (ihRight rest test)
    next notAnd =>
      rw [if_neg notAnd]
      split at evaluates
      next isOr =>
        rw [if_pos isOr]
        cases truth with
        | true => exact fun _ member => absurd member List.not_mem_nil
        | false =>
          obtain ⟨answer, answered, rest⟩ := Option.bind_eq_some_iff.1 evaluates
          cases answer with
          | true => cases rest
          | false =>
            intro test member
            rw [if_neg Bool.false_ne_true, List.mem_append] at member
            exact member.elim (ihLeft answered test) (ihRight rest test)
      next notOr =>
        rw [if_neg notOr]
        split at evaluates
        next isOperator =>
          rw [if_pos isOperator]
          intro test member
          cases named : testedName left with
          | none =>
            rw [named] at member
            cases member
          | some name =>
            rw [named] at member
            obtain rfl := List.mem_singleton.1 member
            have same : left = .name name := by
              cases left <;> cases named
              rfl
            rw [same] at evaluates
            exact evaluates
        next isOperator =>
          rw [if_neg isOperator]
          exact fun _ member => absurd member List.not_mem_nil

/-! ### One test -/

def Conforms (world : World) (values : String → Option Value) (locals : Locals) : Prop :=
  ∀ (name : String) (symbol : Symbol), locals[name]? = some symbol →
    ∃ value, values name = some value ∧ Inhabits world value symbol.ty

/-- Some alternative that the value of the tested local is of is assignable from the tested type exactly
if the value passes the test. -/
def Narrowing.Agrees (run : Evaluation) (locals : Locals) (test : Narrowing) : Prop :=
  ∀ (testType : Ty) (symbol : Symbol) (alternatives : List Ty) (value : Value),
    narrowingType run.scope test.operator test.right = .ok (some testType) →
    locals[test.name]? = some symbol → symbol.ty = .alternative alternatives →
    run.values test.name = some value →
    ∃ ty ∈ alternatives, Inhabits run.world value ty ∧
      run.holds test.operator value test.right = some (compatible ty testType)

variable {world : World} {value : Value}

theorem inhabits_typeOfChoices {choices : List Ty} :
    Inhabits world value (typeOfChoices choices) ↔ ∃ ty ∈ choices, Inhabits world value ty := by
  match choices with
  | [] => exact ⟨fun never => False.elim never, fun ⟨_, member, _⟩ => nomatch member⟩
  | [ty] =>
    rw [typeOfChoices]
    simp
  | _ :: _ :: _ => exact inhabits_alternative

variable {symbol : Symbol} {testType : Ty} {holds : Bool}

theorem inhabits_narrow_iff {alternatives : List Ty} (isAlternative : symbol.ty = .alternative alternatives) :
    Inhabits world value (symbol.narrow testType holds).ty ↔
      ∃ ty ∈ alternatives, Inhabits world value ty ∧ compatible ty testType = holds := by
  rw [Symbol.narrow, isAlternative]
  show Inhabits world value (typeOfChoices (alternatives.filter _)) ↔ _
  rw [inhabits_typeOfChoices]
  constructor
  · rintro ⟨ty, member, inhabits⟩
    obtain ⟨member, kept⟩ := List.mem_filter.1 member
    exact ⟨ty, member, inhabits, beq_iff_eq.1 kept⟩
  · rintro ⟨ty, member, inhabits, kept⟩
    exact ⟨ty, List.mem_filter.2 ⟨member, beq_iff_eq.2 kept⟩, inhabits⟩

theorem narrow_eq_self (single : ∀ alternatives, symbol.ty ≠ .alternative alternatives) :
    symbol.narrow testType holds = symbol := by
  unfold Symbol.narrow
  split
  next alternatives isAlternative => exact absurd isAlternative (single alternatives)
  next => rfl

theorem inhabits_of_narrow (inhabits : Inhabits world value (symbol.narrow testType holds).ty) :
    Inhabits world value symbol.ty := by
  by_cases isAlternative : ∃ alternatives, symbol.ty = .alternative alternatives
  · obtain ⟨alternatives, isAlternative⟩ := isAlternative
    obtain ⟨ty, member, inhabits, -⟩ := (inhabits_narrow_iff isAlternative).1 inhabits
    rw [isAlternative, inhabits_alternative]
    exact ⟨ty, member, inhabits⟩
  · rw [narrow_eq_self fun alternatives same => isAlternative ⟨alternatives, same⟩] at inhabits
    exact inhabits

variable {locals narrowed : Locals} {scope : TypeScope}

theorem narrowByTest_eq_ok {operator name : String} {right : Expression} {truth : Bool}
    (found : narrowByTest scope operator name right locals truth = .ok narrowed) :
    (narrowingType scope operator right = .ok none ∧ narrowed = locals) ∨
      ∃ testType symbol, narrowingType scope operator right = .ok (some testType) ∧ locals[name]? = some symbol ∧
        narrowed = locals.insert name (symbol.narrow testType (testHolds operator truth)) := by
  obtain ⟨answer, answered, rest⟩ := bind_eq_ok.1 found
  cases answer with
  | none => exact .inl ⟨answered, (pure_eq_ok.1 rest).symm⟩
  | some testType =>
    cases known : locals[name]? with
    | none =>
      rw [known] at rest
      cases rest
    | some symbol =>
      rw [known] at rest
      exact .inr ⟨testType, symbol, answered, rfl, (pure_eq_ok.1 rest).symm⟩

variable {values : String → Option Value}

theorem conforms_insert {locals : Locals} {name : String} (conforms : Conforms world values locals) :
    Conforms world values (locals.insert name symbol) ↔
      ∃ value, values name = some value ∧ Inhabits world value symbol.ty := by
  constructor
  · intro conforms
    exact conforms name symbol Std.TreeMap.getElem?_insert_self
  · intro inhabited other symbol' known
    rw [Std.TreeMap.getElem?_insert] at known
    split at known
    next same =>
      obtain rfl := Std.LawfulEqCmp.eq_of_compare same
      cases known
      exact inhabited
    next => exact conforms other symbol' known

theorem conforms_apply_iff {test : Narrowing} (conforms : Conforms run.world run.values locals)
    (settled : run.test test.operator (.name test.name) test.right = some test.truth)
    (found : test.apply run.scope locals = .ok narrowed) :
    Conforms run.world run.values narrowed ↔ test.Agrees run locals := by
  rcases narrowByTest_eq_ok found with ⟨unnarrowed, rfl⟩ | ⟨testType, symbol, narrows, known, rfl⟩
  · refine ⟨fun _ testType _ _ _ narrows => ?_, fun _ => conforms⟩
    rw [unnarrowed] at narrows
    cases narrows
  · obtain ⟨value, valued, inhabits⟩ := conforms test.name symbol known
    have answer : run.holds test.operator value test.right = some (testHolds test.operator test.truth) := by
      rw [Evaluation.test, Evaluation.operand, valued] at settled
      obtain ⟨answer, answered, same⟩ := Option.map_eq_some_iff.1 settled
      rw [answered, ← same, testHolds_testHolds]
    rw [conforms_insert conforms]
    constructor
    · rintro ⟨value', valued', kept⟩ testType' symbol' alternatives value'' narrows' known' isAlternative
        valued''
      cases narrows.symm.trans narrows'
      cases known.symm.trans known'
      cases valued.symm.trans valued'
      cases valued.symm.trans valued''
      obtain ⟨ty, member, inhabits', same⟩ := (inhabits_narrow_iff isAlternative).1 kept
      exact ⟨ty, member, inhabits', by rw [answer, same]⟩
    · intro agrees
      refine ⟨value, valued, ?_⟩
      by_cases isAlternative : ∃ alternatives, symbol.ty = .alternative alternatives
      · obtain ⟨alternatives, isAlternative⟩ := isAlternative
        obtain ⟨ty, member, inhabits', same⟩ := agrees testType symbol alternatives value narrows known isAlternative valued
        rw [inhabits_narrow_iff isAlternative]
        exact ⟨ty, member, inhabits', Option.some.inj (same.symm.trans answer)⟩
      · rw [narrow_eq_self fun alternatives same => isAlternative ⟨alternatives, same⟩]
        exact inhabits

end BasicNext.Semantic
