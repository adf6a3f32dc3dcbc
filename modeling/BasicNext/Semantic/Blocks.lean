import BasicNext.Semantic.Narrowing

/-!
# Analysis of blocks

`Analyzer::block` checks the statements of a function body in order and threads the locals through them.
The result is the body with the locals that each statement and each condition is checked with. How
expressions are typed is a parameter.
-/

namespace BasicNext.Semantic

open Frontend

/-- The diagnostics of statements. Texts of the catalogue are its keys. -/
inductive Rejected where
  | duplicateName (name : String)
  | nameNotFound (name context : String)
  | typeMismatch (expected actual context : String)
  | integerOutOfRange (kind : IntegerType) (value context : String)
  | pointerLengthMismatch (expected actual : Ty)
  | unreachableCode
  | invalidLoopControl (kind target : String)
  | invalidReleaseTarget
  | invalidExitCode
  | inputPromptType
  | narrowing (error : NarrowingError)
  /-- A diagnostic of an expression or of a type reference. -/
  | expression (code : String)

/-- What the analyzer knows of expressions and types. -/
structure Typing where
  expression : Locals → Expression → Except Rejected Ty
  expressionAs : Locals → Ty → Expression → Except Rejected Ty
  /-- `Analyzer::compatible` -/
  compatible : Ty → Ty → Bool
  /-- `assignment_target` of a field or an element: the type of what is stored there. -/
  place : Locals → Expression → Except Rejected Ty
  /-- `validate_type_reference` and the dimensions of the reference. -/
  typeReference : Locals → DeclaredType → Except Rejected Unit
  requiresInitializer : DeclaredType → Bool
  /-- `settle_integer_constant` -/
  settle : Locals → Expression → Except Rejected Unit
  /-- Whether the values that a source is destructured to are of the types of the bindings. -/
  destructure : Locals → Expression → List (String × DeclaredType) → Except Rejected Unit
  /-- The bounds, the step or the iterable of a `FOR`. -/
  header : Locals → ForHeader → Except Rejected Unit
  globals : String → Option Symbol

/-- The analyzer, in the body of one declaration. -/
structure Analyzer where
  typing : Typing
  scope : TypeScope := {}
  collectWarnings : Bool := false
  isFunction : Bool := true
  returnType : Option Ty := none

/-! ### Declarations and writes -/

def declareLocal (name : String) (ty : Ty) (constant parameter : Bool) (locals : Locals) :
    Except Rejected Locals :=
  match locals[name]? with
  | some _ => .error (.duplicateName name)
  | none =>
    .ok (locals.insert name { ty := ty, declaredTy := ty, constant := constant, parameter := parameter })

/-- The locals that a body begins with: parameters, and `SELF` as a constant. -/
def declareParameters : List (String × DeclaredType) → Locals → Except Rejected Locals
  | [], locals => .ok locals
  | (name, declared) :: rest, locals => do
    declareParameters rest (← declareLocal name declared.ty true (name != "SELF") locals)

/-- `end_narrowing_of` -/
def endNarrowingOf (locals : Locals) (name : String) : Locals :=
  match locals[name]? with
  | some symbol => locals.insert name { symbol with ty := symbol.declaredTy }
  | none => locals

def endNarrowings (written : List String) (locals : Locals) : Locals := written.foldl endNarrowingOf locals

def endNarrowingOfTarget (target : Target) (locals : Locals) : Locals := endNarrowings target.written locals

def pointerLiteralLengthMismatch : Ty → Ty → Bool
  | .pointer _ (.fixed expected), .pointer _ (.fixed actual) => expected != actual
  | _, _ => false

def valueMismatch (expected actual : Ty) (context : String) : Rejected :=
  match expected, actual with
  | .integer kind, .integerLiteral value => .integerOutOfRange kind value context
  | _, _ => .typeMismatch (display expected) (display actual) context

namespace Analyzer

variable (analyzer : Analyzer)

def checkInitializer (ty : DeclaredType) (first : Bool) (initializer : Option Expression) (locals : Locals) :
    Except Rejected Unit :=
  match initializer with
  | none =>
    if analyzer.typing.requiresInitializer ty then
      .error (.typeMismatch "initializer" "missing initializer" (display ty.ty ++ " binding"))
    else .ok ()
  | some value => do
    let actual ← analyzer.typing.expressionAs locals ty.ty value
    if analyzer.typing.compatible ty.ty actual then .ok ()
    else if first && pointerLiteralLengthMismatch ty.ty actual then
      .error (.pointerLengthMismatch ty.ty actual)
    else
      .error (valueMismatch ty.ty actual
        (if first then "binding initializer" else "additional binding initializer"))

/-- The names of one `LET` or `CONST`; each is in scope for the initializers after its own. -/
def bindNames (constant : Bool) (ty : DeclaredType) : Bool → List Declared → Locals → Except Rejected Locals
  | _, [], locals => .ok locals
  | first, declared :: rest, locals => do
    analyzer.checkInitializer ty first declared.initializer locals
    bindNames constant ty false rest (← declareLocal declared.name ty.ty constant false locals)

/-- The names of a destructuring `LET`. -/
def bindEach : List (String × DeclaredType) → Locals → Except Rejected Locals
  | [], locals => .ok locals
  | (name, declared) :: rest, locals => do
    bindEach rest (← declareLocal name declared.ty false false locals)

/-- `assignment_target`: the type that a target stores. -/
def assignmentTarget (target : Target) (locals : Locals) : Except Rejected Ty :=
  match target with
  | .name name =>
    match (locals[name]?).or (analyzer.typing.globals name) with
    | none => .error (.nameNotFound name "assignment target")
    | some symbol =>
      if symbol.constant then
        .error (.typeMismatch "mutable binding"
          (if symbol.parameter then "parameter '" ++ name ++ "' (parameters are constant)"
          else "CONST '" ++ name ++ "'") "assignment target")
      else .ok symbol.declaredTy
  | .part _ expression => analyzer.typing.place locals expression

def requireBoolean (condition : Expression) (locals : Locals) : Except Rejected Unit := do
  let ty ← analyzer.typing.expression locals condition
  if compatible .boolean ty then .ok () else .error (.typeMismatch "BOOLEAN" (display ty) "condition")

def narrowed (condition : Expression) (locals : Locals) (truth : Bool) : Except Rejected Locals :=
  (narrowedLocals analyzer.scope condition locals truth).mapError .narrowing

end Analyzer

mutual

def isInteger : Ty → Bool
  | .integer _ | .integerLiteral _ => true
  | .alternative alternatives => allInteger alternatives
  | _ => false

def allInteger : List Ty → Bool
  | [] => true
  | ty :: types => isInteger ty && allInteger types

end

/-- The value of an integer literal that fits `i64`. -/
def integerLiteral : Expression → Option Int
  | .literal (.integer text) => (parseInteger text).filter fun value => -2 ^ 63 ≤ value ∧ value < 2 ^ 63
  | _ => none

def isInputType : Ty → Bool
  | .string => true
  | .alternative alternatives => alternatives.contains .string && alternatives.contains .endOfFile
  | _ => false

def loopName : LoopKind → String
  | .while_ => "WHILE"
  | .repeat_ => "REPEAT"
  | .for_ => "FOR"

def jumpName : Jump → String
  | .exit => "EXIT"
  | .continue_ => "CONTINUE"

/-- After these no statement of the same block is reached. -/
def terminates {α : Type} : Statement α → Bool
  | .return_ .. | .stop .. | .control .. => true
  | _ => false

namespace Analyzer

variable (analyzer : Analyzer)

/-- The checks of a statement without blocks that declares nothing. -/
def checkSimple (loops : List LoopKind) (locals : Locals) : Statement Unit → Except Rejected Unit
  | .assignment _ target value => do
    let targetType ← analyzer.assignmentTarget target locals
    let resultType ← analyzer.typing.expressionAs locals targetType value
    if analyzer.typing.compatible targetType resultType then .ok ()
    else if pointerLiteralLengthMismatch targetType resultType then
      .error (.pointerLengthMismatch targetType resultType)
    else .error (valueMismatch targetType resultType "assignment")
  | .input _ prompt target => do
    match prompt with
    | some prompt =>
      if (← analyzer.typing.expression locals prompt) == .string then .ok () else .error .inputPromptType
    | none => .ok ()
    let targetType ← analyzer.assignmentTarget target locals
    if isInputType targetType then .ok ()
    else .error (.typeMismatch "msg.string_or_string_or_eof" (display targetType) "msg.input_target")
  | .print _ values => values.forM fun value => do
    let _ ← analyzer.typing.expression locals value
    analyzer.typing.settle locals value
  | .call _ expression => do
    let _ ← analyzer.typing.expression locals expression
  | .release _ (.name name) => do
    if locals.contains name then .ok () else .error .invalidReleaseTarget
    let _ ← analyzer.typing.expression locals (.name name)
  | .release _ _ => .error .invalidReleaseTarget
  | .return_ _ value =>
    match value with
    | none => .ok ()
    | some value =>
      if analyzer.isFunction then
        match analyzer.returnType with
        | none => do let _ ← analyzer.typing.expression locals value
        | some returnType => do
          let valueType ← analyzer.typing.expressionAs locals returnType value
          if analyzer.typing.compatible returnType valueType then .ok ()
          else .error (valueMismatch returnType valueType "FUNCTION return")
      else .error (.typeMismatch "VOID return" "value" "constructor/destructor return")
  | .stop _ code => do
    if isInteger (← analyzer.typing.expression locals code) then .ok ()
    else .error (.typeMismatch "INTEGER" "non-INTEGER value" "STOP exit code")
    match integerLiteral code with
    | some value => if 0 ≤ value ∧ value ≤ 255 then .ok () else .error .invalidExitCode
    | none => .ok ()
  | .control _ kind target =>
    if loops.contains target then .ok ()
    else .error (.invalidLoopControl (jumpName kind) (loopName target))
  | _ => .ok ()

mutual

def statement (loops : List LoopKind) (locals : Locals) :
    Statement Unit → Except Rejected (Statement Locals × Locals)
  | .binding _ constant ty names => do
    analyzer.typing.typeReference locals ty
    let after ← analyzer.bindNames constant ty true names locals
    return (.binding locals constant ty names, after)
  | .destructuring _ bindings source => do
    if analyzer.isFunction then .ok ()
    else .error (.typeMismatch "msg.statement_in_a_function" "msg.destructuring_let"
      "msg.struct_or_class_body")
    analyzer.typing.destructure locals source bindings
    let after ← bindEach bindings locals
    return (.destructuring locals bindings source, after)
  | .if_ _ branches => do
    let checked ← ifBranches loops locals branches
    -- Every branch left and there is no ELSE: only the path that took no branch continues.
    let onlyUntakenPathContinues := !branches.hasOtherwise && branches.guaranteeReturn
    return (.if_ locals checked,
      if onlyUntakenPathContinues then checked.remaining else endNarrowings branches.written locals)
  | .loop _ (.while_ condition _) body => do
    let entry := endNarrowings body.written locals
    analyzer.requireBoolean condition entry
    let bodyLocals ← analyzer.narrowed condition entry true
    let checked ← block (.while_ :: loops) false bodyLocals body
    return (.loop locals (.while_ condition entry) checked, endNarrowings body.written locals)
  | .loop _ (.repeat_ condition _) body => do
    -- A later iteration starts after the body's writes.
    let after := endNarrowings body.written locals
    let checked ← block (.repeat_ :: loops) false after body
    -- `UNTIL` belongs to the block and sees the body's bindings.
    analyzer.requireBoolean condition checked.last
    return (.loop locals (.repeat_ condition checked.last) checked, after)
  | .loop _ (.for_ header) body => do
    -- The header runs once, before any write of the body.
    analyzer.typing.header locals header
    let loopLocals ← declareLocal header.name header.ty.ty header.constant false locals
    let checked ← block (.for_ :: loops) false (endNarrowings body.written loopLocals) body
    return (.loop locals (.for_ header) checked, endNarrowings body.written locals)
  | .assignment _ target value => do
    analyzer.checkSimple loops locals (.assignment () target value)
    return (.assignment locals target value, endNarrowingOfTarget target locals)
  | .input _ prompt target => do
    analyzer.checkSimple loops locals (.input () prompt target)
    return (.input locals prompt target, endNarrowingOfTarget target locals)
  | .print _ values => do
    analyzer.checkSimple loops locals (.print () values)
    return (.print locals values, locals)
  | .call _ expression => do
    analyzer.checkSimple loops locals (.call () expression)
    return (.call locals expression, locals)
  | .release _ value => do
    analyzer.checkSimple loops locals (.release () value)
    return (.release locals value, locals)
  | .return_ _ value => do
    analyzer.checkSimple loops locals (.return_ () value)
    return (.return_ locals value, locals)
  | .stop _ code => do
    analyzer.checkSimple loops locals (.stop () code)
    return (.stop locals code, locals)
  | .control _ kind target => do
    analyzer.checkSimple loops locals (.control () kind target)
    return (.control locals kind target, locals)

/-- `Analyzer::block`, from where the statement before has left this path (`terminated`) or not. -/
def block (loops : List LoopKind) (terminated : Bool) (locals : Locals) :
    Block Unit → Except Rejected (Block Locals)
  | .nil _ => .ok (.nil locals)
  | .cons first rest =>
    if terminated then
      if analyzer.collectWarnings then do
        -- An unreachable statement is skipped with a warning.
        return .cons (first.map fun _ => locals) (← block loops true locals rest)
      else .error .unreachableCode
    else do
      let (checked, after) ← statement loops locals first
      return .cons checked (← block loops (terminates first) after rest)

/-- The branches of an `IF`, where those before are not taken. -/
def ifBranches (loops : List LoopKind) (remainingLocals : Locals) :
    Branches Unit → Except Rejected (Branches Locals)
  | .untaken _ => .ok (.untaken remainingLocals)
  | .otherwise body => do return .otherwise (← block loops false remainingLocals body)
  | .branch _ condition body rest => do
    analyzer.requireBoolean condition remainingLocals
    let branchLocals ← analyzer.narrowed condition remainingLocals true
    let checked ← block loops false branchLocals body
    let untaken ← analyzer.narrowed condition remainingLocals false
    return .branch remainingLocals condition checked (← ifBranches loops untaken rest)

end

end Analyzer

end BasicNext.Semantic
