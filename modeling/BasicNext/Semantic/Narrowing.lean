import BasicNext.Semantic.TypeTests
import BasicNext.Lib.Except
import Std.Data.TreeMap

/-!
# Narrowing by conditions

`narrowed_locals`: the types that the locals have where a condition is known to be true or false. A
condition narrows by the tests that its value settles, one after the other.
-/

namespace BasicNext.Semantic

open Frontend Lib

/-- A local of semantic analysis; its identities are left out. -/
structure Symbol where
  ty : Ty
  declaredTy : Ty
  constant : Bool
  parameter : Bool

abbrev Locals := Std.TreeMap String Symbol

inductive NarrowingError where
  /-- `INVALID_ALTERNATIVE_USE`: `IS` requires a valid type test. -/
  | invalidTest
  /-- `INVALID_ALTERNATIVE_USE`: the tested type is not an alternative of the subject. -/
  | notAnAlternative
  /-- `NAME_NOT_FOUND`, in this scope. -/
  | nameNotFound (name : String)
deriving DecidableEq, Repr

/-! ### One test -/

mutual

def isFloat : Ty → Bool
  | .float _ | .floatLiteral => true
  | .alternative alternatives => allFloat alternatives
  | _ => false

def allFloat : List Ty → Bool
  | [] => true
  | ty :: types => isFloat ty && allFloat types

end

def isSpecial : Expression → Bool
  | .literal (.special _) => true
  | _ => false

/-- `validate_is_test`: the tested type must be assignable to the subject. -/
def validateIsTest (scope : TypeScope) (subject : Ty) (test : Expression) : Except NarrowingError Unit :=
  match isTestType test with
  | none => .error .invalidTest
  | some testType =>
    let testType := resolveType scope testType
    if isFloat testType && isSpecial test && isFloat subject then .ok ()
    else if compatible subject testType then .ok ()
    else .error .notAnAlternative

/-- The type that a test of a local narrows to; equality narrows by `NULL`, `NA` and `EOF` only. -/
def narrowingType (scope : TypeScope) (operator : String) (right : Expression) :
    Except NarrowingError (Option Ty) :=
  if operator = "IS" then
    match isTestType right with
    | some ty => .ok (some (resolveType scope ty))
    | none => .error .invalidTest
  else
    match isTestType right with
    | some .null => .ok (some .null)
    | some .notAvailable => .ok (some .notAvailable)
    | some .endOfFile => .ok (some .endOfFile)
    | _ => .ok none

def typeOfChoices : List Ty → Ty
  | [] => .unknown
  | [ty] => ty
  | choices => .alternative choices

def Symbol.narrow (symbol : Symbol) (testType : Ty) (holds : Bool) : Symbol :=
  match symbol.ty with
  | .alternative alternatives =>
    { symbol with ty := typeOfChoices (alternatives.filter fun ty => compatible ty testType == holds) }
  | _ => symbol

/-- Whether the value of a local is of the tested type where a test has the value `truth`. -/
def testHolds (operator : String) (truth : Bool) : Bool :=
  if operator = "NotEqual" then !truth else truth

def narrowByTest (scope : TypeScope) (operator name : String) (right : Expression) (locals : Locals)
    (truth : Bool) : Except NarrowingError Locals := do
  match ← narrowingType scope operator right with
  | none => return locals
  | some testType =>
    match locals[name]? with
    | none => .error (.nameNotFound name)
    | some symbol => return locals.insert name (symbol.narrow testType (testHolds operator truth))

/-- The operators that narrow. -/
def isTestOperator (operator : String) : Bool := operator == "IS" || operator == "Assign" || operator == "NotEqual"

def testedName : Expression → Option String
  | .name name => some name
  | _ => none

/-! ### Conditions -/

/-- `narrowed_locals` -/
def narrowedLocals (scope : TypeScope) (condition : Expression) (locals : Locals) (truth : Bool) :
    Except NarrowingError Locals :=
  match condition with
  | .unary operator operand =>
    if operator = "NOT" then narrowedLocals scope operand locals (!truth) else .ok locals
  | .binary operator left right =>
    if operator = "AND" then
      if truth then do
        let leftLocals ← narrowedLocals scope left locals true
        narrowedLocals scope right leftLocals true
      else .ok locals
    else if operator = "OR" then
      if truth then .ok locals
      else do
        let leftLocals ← narrowedLocals scope left locals false
        narrowedLocals scope right leftLocals false
    else if isTestOperator operator then
      match testedName left with
      | some name => narrowByTest scope operator name right locals truth
      | none => .ok locals
    else .ok locals
  | _ => .ok locals

/-- A test of a local, with the value that is settled. -/
structure Narrowing where
  operator : String
  name : String
  right : Expression
  truth : Bool

/-- The tests of locals that the value of a condition settles, from left to right. -/
def narrowings : Expression → Bool → List Narrowing
  | .unary operator operand, truth => if operator = "NOT" then narrowings operand (!truth) else []
  | .binary operator left right, truth =>
    if operator = "AND" then if truth then narrowings left true ++ narrowings right true else []
    else if operator = "OR" then if truth then [] else narrowings left false ++ narrowings right false
    else if isTestOperator operator then
      match testedName left with
      | some name => [⟨operator, name, right, truth⟩]
      | none => []
    else []
  | _, _ => []

def Narrowing.apply (scope : TypeScope) (locals : Locals) (test : Narrowing) :
    Except NarrowingError Locals :=
  narrowByTest scope test.operator test.name test.right locals test.truth

theorem narrowedLocals_eq_foldlM (scope : TypeScope) (condition : Expression) (locals : Locals) (truth : Bool) :
    narrowedLocals scope condition locals truth
      = (narrowings condition truth).foldlM (Narrowing.apply scope) locals := by
  induction condition generalizing locals truth with
  | literal | name | typeTest | other => rfl
  | unary operator operand ih =>
    rw [narrowedLocals, narrowings]
    split
    · exact ih locals (!truth)
    · rfl
  | binary operator left right ihLeft ihRight =>
    rw [narrowedLocals, narrowings]
    split
    · cases truth with
      | false => rfl
      | true =>
        rw [if_pos rfl, if_pos rfl, List.foldlM_append, ihLeft]
        congr 1
        funext leftLocals
        exact ihRight leftLocals true
    · split
      · cases truth with
        | true => rfl
        | false =>
          rw [if_neg nofun, if_neg nofun, List.foldlM_append, ihLeft]
          congr 1
          funext leftLocals
          exact ihRight leftLocals false
      · split
        · cases testedName left with
          | some name =>
            show narrowByTest scope operator name right locals truth =
              (narrowByTest scope operator name right locals truth >>= fun locals => pure locals)
            rw [bind_pure]
          | none => rfl
        · rfl

end BasicNext.Semantic
