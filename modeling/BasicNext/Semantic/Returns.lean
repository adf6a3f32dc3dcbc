import BasicNext.Semantic.FunctionBodies

/-!
# Missing returns

`validate_returns` refuses a body of a function that is not `VOID` unless its text guarantees a `RETURN` or
a `STOP`. Control leaves a statement here with any outcome of each condition and after any number of
iterations, so that the executions on slots are among these.
-/

namespace BasicNext.Semantic

open Frontend Lib

/-! ### The check -/

inductive ReturnRejected where
  | invalidExitCode (message : String)
  | typeMismatch (expected actual context : String)
  | missingReturn (message : String)
deriving DecidableEq, Repr

/-- What is written after the parameters of a function. -/
structure TypeReference where
  alternatives : List TypeAtom
deriving Repr

namespace TypeReference

/-- `allows_empty` -/
def allowsEmpty (returnType : TypeReference) : Bool := returnType.alternatives.any fun atom => atom.name == "VOID"

def isVoidOnly (returnType : TypeReference) : Bool :=
  returnType.alternatives.length == 1 && returnType.alternatives.head?.any fun atom => atom.name == "VOID"

end TypeReference

/-- The value of one `RETURN`. -/
def checkReturn (returnType : TypeReference) (isStart : Bool) : Option Expression → Except ReturnRejected Unit
  | some value =>
    if isStart && (integerLiteral value).any fun code => !decide (0 ≤ code ∧ code ≤ 255) then
      .error (.invalidExitCode "Start return code must be in 0..255")
    else if returnType.isVoidOnly then .error (.typeMismatch "VOID return" "value" "VOID FUNCTION return")
    else .ok ()
  | none =>
    if returnType.allowsEmpty then .ok ()
    else .error (.typeMismatch "return value" "no value" "non-VOID FUNCTION return")

variable {α : Type}

mutual

def validateReturnStatement (returnType : TypeReference) (isStart : Bool) :
    Statement α → Except ReturnRejected Unit
  | .return_ _ value => checkReturn returnType isStart value
  | .if_ _ branches => validateReturnBranches returnType isStart branches
  | .loop _ _ body => validateReturnStatements returnType isStart body
  | _ => .ok ()

def validateReturnStatements (returnType : TypeReference) (isStart : Bool) :
    Block α → Except ReturnRejected Unit
  | .nil _ => .ok ()
  | .cons first rest => do
    validateReturnStatement returnType isStart first
    validateReturnStatements returnType isStart rest

def validateReturnBranches (returnType : TypeReference) (isStart : Bool) :
    Branches α → Except ReturnRejected Unit
  | .untaken _ => .ok ()
  | .otherwise body => validateReturnStatements returnType isStart body
  | .branch _ _ body rest => do
    validateReturnStatements returnType isStart body
    validateReturnBranches returnType isStart rest

end

def validateReturns (statements : Block α) (returnType : TypeReference) (isStart : Bool) :
    Except ReturnRejected Unit := do
  validateReturnStatements returnType isStart statements
  if !returnType.allowsEmpty && !statements.guaranteesReturn then
    throw (.missingReturn "non-VOID FUNCTION can complete without RETURN expression")

/-! ### How control leaves -/

/-- How control leaves a statement or a block, with what it leaves on. -/
inductive Ending where
  | normal
  | jump (kind : Jump) (target : LoopKind)
  | returned (value : Option Expression)
  | stopped (code : Expression)
deriving DecidableEq

namespace Ending

def outcome : Ending → Outcome
  | normal => .normal
  | jump kind target => .jump kind target
  | returned _ => .returned
  | stopped _ => .stopped

/-- How control leaves a loop whose body it leaves so. -/
def ofLoop (kind : LoopKind) (ending : Ending) : Ending :=
  if ending = .jump .exit kind then .normal else ending

/-- A jump has one of these loops around it. -/
def JumpsWithin (loops : List LoopKind) (ending : Ending) : Prop :=
  ∀ kind target, ending = .jump kind target → target ∈ loops

end Ending

inductive Code (α : Type) where
  | statement (statement : Statement α)
  | block (block : Block α)
  | branches (branches : Branches α)
  | loop (head : LoopHead α) (body : Block α)

/-- Statements without blocks that end where the next one begins. -/
def isPlain : Statement α → Bool
  | .return_ .. | .stop .. | .control .. | .if_ .. | .loop .. => false
  | _ => true

/-- A condition may have either value, and a loop any number of iterations. -/
inductive Leaves : Code α → Ending → Prop
  | plain {statement} : isPlain statement = true → Leaves (.statement statement) .normal
  | return_ {note value} : Leaves (.statement (.return_ note value)) (.returned value)
  | stop {note code} : Leaves (.statement (.stop note code)) (.stopped code)
  | control {note kind target} : Leaves (.statement (.control note kind target)) (.jump kind target)
  | if_ {note branches ending} : Leaves (.branches branches) ending → Leaves (.statement (.if_ note branches)) ending
  | loop {note head body ending} : Leaves (.loop head body) ending → Leaves (.statement (.loop note head body)) ending
  | nil {note} : Leaves (.block (.nil note)) .normal
  | cons {first rest ending} : Leaves (.statement first) .normal → Leaves (.block rest) ending →
      Leaves (.block (.cons first rest)) ending
  | leave {first rest ending} : Leaves (.statement first) ending → ending ≠ .normal →
      Leaves (.block (.cons first rest)) ending
  | untaken {note} : Leaves (.branches (.untaken note)) .normal
  | otherwise {body ending} : Leaves (.block body) ending → Leaves (.branches (.otherwise body)) ending
  | taken {note condition body rest ending} : Leaves (.block body) ending →
      Leaves (.branches (.branch note condition body rest)) ending
  | next {note condition body rest ending} : Leaves (.branches rest) ending →
      Leaves (.branches (.branch note condition body rest)) ending
  /-- `WHILE` is false, or `FOR` has no value left. -/
  | ends {head body} : head.kind ≠ .repeat_ → Leaves (.loop head body) .normal
  | left {head body ending} : Leaves (.block body) ending → ¬ending.outcome.EndsIteration head.kind →
      Leaves (.loop head body) (ending.ofLoop head.kind)
  /-- `UNTIL` is true. -/
  | completes {head body ending} : Leaves (.block body) ending → ending.outcome.EndsIteration head.kind →
      head.kind = .repeat_ → Leaves (.loop head body) .normal
  | repeats {head body ending ending'} : Leaves (.block body) ending →
      ending.outcome.EndsIteration head.kind → Leaves (.loop head body) ending' →
      Leaves (.loop head body) ending'

/-! ### Notes -/

section notes

variable {β : Type} (f : α → β)

def Code.map : Code α → Code β
  | .statement first => .statement (first.map f)
  | .block body => .block (body.map f)
  | .branches chain => .branches (chain.map f)
  | .loop head body => .loop (head.map f) (body.map f)

theorem isPlain_map (statement : Statement α) : isPlain (statement.map f) = isPlain statement := by
  cases statement <;> rfl

theorem LoopHead.kind_map (head : LoopHead α) : (head.map f).kind = head.kind := by
  cases head <;> rfl

theorem Leaves.map {code : Code α} {ending : Ending} (leaves : Leaves code ending) :
    Leaves (code.map f) ending := by
  induction leaves with
  | plain simple => exact .plain ((isPlain_map f _).trans simple)
  | return_ => exact .return_
  | stop => exact .stop
  | control => exact .control
  | if_ _ ih => exact .if_ ih
  | loop _ ih => exact .loop ih
  | nil => exact .nil
  | cons _ _ ihFirst ihRest => exact .cons ihFirst ihRest
  | leave _ other ih => exact .leave ih other
  | untaken => exact .untaken
  | otherwise _ ih => exact .otherwise ih
  | taken _ ih => exact .taken ih
  | next _ ih => exact .next ih
  | @ends head _ notRepeat =>
    apply Leaves.ends
    rw [LoopHead.kind_map]
    exact notRepeat
  | @left head _ ending _ leaves ih =>
    rw [← LoopHead.kind_map f head] at leaves ⊢
    exact .left ih leaves
  | @completes head _ _ _ ends isRepeat ih =>
    rw [← LoopHead.kind_map f head] at ends isRepeat
    exact .completes ih ends isRepeat
  | @repeats head _ _ _ _ ends _ ihBody ihLoop =>
    rw [← LoopHead.kind_map f head] at ends
    exact .repeats ihBody ends ihLoop

end notes

/-! ### Executions on slots -/

def Task.code : Task → Code Locals
  | .statement first => .statement first
  | .block _ body => .block body
  | .branches chain => .branches chain
  | .loop head body => .loop head body

theorem Ending.outcome_ne_normal {ending : Ending} : ending.outcome ≠ .normal ↔ ending ≠ .normal := by
  cases ending <;> simp [Ending.outcome]

theorem Ending.outcome_ofLoop (kind : LoopKind) (ending : Ending) :
    (ending.ofLoop kind).outcome = ending.outcome.ofLoop kind := by
  have same : ending.outcome = .jump .exit kind ↔ ending = .jump .exit kind := by
    cases ending <;> simp [Ending.outcome]
  by_cases exits : ending = .jump .exit kind
  · rw [Ending.ofLoop, Outcome.ofLoop, if_pos exits, if_pos (same.2 exits)]
    rfl
  · rw [Ending.ofLoop, Outcome.ofLoop, if_neg exits, if_neg (mt same.1 exits)]

theorem Executes.leaves {world : World} {scope : TypeScope} {guard : Guard world}
    {found : List String} {task : Task} {store after : Store world} {outcome : Outcome}
    (executes : Executes scope guard found task store outcome after) :
    ∃ ending, Leaves task.code ending ∧ ending.outcome = outcome := by
  induction executes with
  | binding | destructuring | assignment | input | print | call | release =>
    exact ⟨_, .plain rfl, rfl⟩
  | return_ => exact ⟨_, .return_, rfl⟩
  | stop => exact ⟨_, .stop, rfl⟩
  | control => exact ⟨_, .control, rfl⟩
  | if_ _ ih =>
    obtain ⟨ending, leaves, same⟩ := ih
    exact ⟨ending, .if_ leaves, same⟩
  | loop _ _ ih =>
    obtain ⟨ending, leaves, same⟩ := ih
    exact ⟨ending, .loop leaves, same⟩
  | nil => exact ⟨_, .nil, rfl⟩
  | cons _ _ ihFirst ihRest =>
    obtain ⟨first, leavesFirst, normal⟩ := ihFirst
    obtain ⟨ending, leaves, same⟩ := ihRest
    obtain rfl : first = .normal := by
      by_contra other
      exact Ending.outcome_ne_normal.2 other normal
    exact ⟨ending, .cons leavesFirst leaves, same⟩
  | leave _ other _ ih =>
    obtain ⟨ending, leaves, rfl⟩ := ih
    exact ⟨ending, .leave leaves (Ending.outcome_ne_normal.1 other), rfl⟩
  | dies _ _ _ ih => exact ih
  | untaken => exact ⟨_, .untaken, rfl⟩
  | otherwise _ ih =>
    obtain ⟨ending, leaves, same⟩ := ih
    exact ⟨ending, .otherwise leaves, same⟩
  | taken _ _ ih =>
    obtain ⟨ending, leaves, same⟩ := ih
    exact ⟨ending, .taken leaves, same⟩
  | next _ _ ih =>
    obtain ⟨ending, leaves, same⟩ := ih
    exact ⟨ending, .next leaves, same⟩
  | @ends _ head body _ _ isEnd =>
    refine ⟨.normal, .ends ?_, rfl⟩
    cases head with
    | repeat_ => exact isEnd.elim
    | _ => nofun
  | left _ _ left ih =>
    obtain ⟨ending, leaves, rfl⟩ := ih
    exact ⟨_, .left leaves left, Ending.outcome_ofLoop _ ending⟩
  | @completes _ head _ _ _ _ _ _ _ _ ends isUntil ih =>
    obtain ⟨ending, leaves, rfl⟩ := ih
    refine ⟨.normal, .completes leaves ends ?_, rfl⟩
    cases head with
    | repeat_ => rfl
    | _ => exact isUntil.elim
  | repeats _ _ ends _ _ ihBody ihLoop =>
    obtain ⟨ending, leaves, rfl⟩ := ihBody
    obtain ⟨ending', again, same⟩ := ihLoop
    exact ⟨ending', .repeats leaves ends again, same⟩

/-! ### Running off the end -/

def Code.guaranteesReturn : Code α → Bool
  | .statement first => first.guaranteesReturn
  | .block body => body.guaranteesReturn
  | .branches chain => chain.hasOtherwise && chain.guaranteeReturn
  | .loop .. => false

theorem Leaves.ne_normal {code : Code α} {ending : Ending} (leaves : Leaves code ending)
    (guarantees : code.guaranteesReturn = true) : ending ≠ .normal := by
  induction leaves with
  | @plain statement simple => cases statement <;> cases simple <;> cases guarantees
  | return_ | stop | control => nofun
  | if_ _ ih => exact ih guarantees
  | loop => cases guarantees
  | nil => cases guarantees
  | cons _ _ ihFirst ihRest =>
    rcases (Bool.or_eq_true _ _).mp guarantees with first | rest
    · exact absurd rfl (ihFirst first)
    · exact ihRest rest
  | leave _ other => exact other
  | untaken => cases guarantees
  | otherwise _ ih => exact ih guarantees
  | taken _ ih =>
    obtain ⟨-, all⟩ := (Bool.and_eq_true _ _).mp guarantees
    exact ih ((Bool.and_eq_true _ _).mp all).1
  | next _ ih =>
    obtain ⟨closed, all⟩ := (Bool.and_eq_true _ _).mp guarantees
    exact ih ((Bool.and_eq_true _ _).mpr ⟨closed, ((Bool.and_eq_true _ _).mp all).2⟩)
  | ends | left | completes | repeats => cases guarantees

/-! ### Jumps -/

mutual

def StatementJumpsWithin (loops : List LoopKind) : Statement α → Prop
  | .control _ _ target => target ∈ loops
  | .if_ _ branches => BranchesJumpWithin loops branches
  | .loop _ head body => BlockJumpsWithin (head.kind :: loops) body
  | _ => True

/-- Every `EXIT` and `CONTINUE` that can be reached has its loop around it. -/
def BlockJumpsWithin (loops : List LoopKind) : Block α → Prop
  | .nil _ => True
  | .cons first rest =>
    StatementJumpsWithin loops first ∧ (terminates first = false → BlockJumpsWithin loops rest)

def BranchesJumpWithin (loops : List LoopKind) : Branches α → Prop
  | .untaken _ => True
  | .otherwise body => BlockJumpsWithin loops body
  | .branch _ _ body rest => BlockJumpsWithin loops body ∧ BranchesJumpWithin loops rest

end

section analyzed

variable {analyzer : Analyzer} {loops : List LoopKind} {locals : Locals}

mutual

theorem statementJumpsWithin_of_ok (source : Statement Unit) {loops : List LoopKind} {locals : Locals}
    {checked : Statement Locals × Locals} (accepted : analyzer.statement loops locals source = .ok checked) :
    StatementJumpsWithin loops source := by
  cases source with
  | control note kind target =>
    obtain ⟨_, simple, -⟩ := bind_eq_ok.1 accepted
    rw [Analyzer.checkSimple] at simple
    split at simple
    next listed => exact List.contains_iff_mem.1 listed
    next => cases simple
  | if_ note branches =>
    obtain ⟨_, analyzed, -⟩ := bind_eq_ok.1 accepted
    exact branchesJumpWithin_of_ok branches analyzed
  | loop note head body =>
    cases head with
    | while_ condition note =>
      obtain ⟨_, -, accepted⟩ := bind_eq_ok.1 accepted
      obtain ⟨_, -, accepted⟩ := bind_eq_ok.1 accepted
      obtain ⟨_, analyzed, -⟩ := bind_eq_ok.1 accepted
      exact blockJumpsWithin_of_ok body analyzed
    | repeat_ condition note =>
      obtain ⟨_, analyzed, -⟩ := bind_eq_ok.1 accepted
      exact blockJumpsWithin_of_ok body analyzed
    | for_ header =>
      obtain ⟨_, -, accepted⟩ := bind_eq_ok.1 accepted
      obtain ⟨_, -, accepted⟩ := bind_eq_ok.1 accepted
      obtain ⟨_, analyzed, -⟩ := bind_eq_ok.1 accepted
      exact blockJumpsWithin_of_ok body analyzed
  | _ => trivial

theorem blockJumpsWithin_of_ok (source : Block Unit) {loops : List LoopKind} {locals : Locals}
    {checked : Block Locals} (accepted : analyzer.block loops false locals source = .ok checked) :
    BlockJumpsWithin loops source := by
  cases source with
  | nil note => trivial
  | cons first rest =>
    rw [Analyzer.block, if_neg nofun] at accepted
    obtain ⟨⟨statement, after⟩, analyzed, accepted⟩ := bind_eq_ok.1 accepted
    obtain ⟨others, analyzedRest, -⟩ := bind_eq_ok.1 accepted
    refine ⟨statementJumpsWithin_of_ok first analyzed, fun goesOn => ?_⟩
    rw [goesOn] at analyzedRest
    exact blockJumpsWithin_of_ok rest analyzedRest

theorem branchesJumpWithin_of_ok (source : Branches Unit) {loops : List LoopKind} {locals : Locals}
    {checked : Branches Locals} (accepted : analyzer.ifBranches loops locals source = .ok checked) :
    BranchesJumpWithin loops source := by
  cases source with
  | untaken note => trivial
  | otherwise body =>
    obtain ⟨_, analyzed, -⟩ := bind_eq_ok.1 accepted
    exact blockJumpsWithin_of_ok body analyzed
  | branch note condition body rest =>
    obtain ⟨_, -, accepted⟩ := bind_eq_ok.1 accepted
    obtain ⟨_, -, accepted⟩ := bind_eq_ok.1 accepted
    obtain ⟨_, analyzed, accepted⟩ := bind_eq_ok.1 accepted
    obtain ⟨_, -, accepted⟩ := bind_eq_ok.1 accepted
    obtain ⟨_, analyzedRest, -⟩ := bind_eq_ok.1 accepted
    exact ⟨blockJumpsWithin_of_ok body analyzed, branchesJumpWithin_of_ok rest analyzedRest⟩

end

end analyzed

def Code.JumpsWithin (loops : List LoopKind) : Code α → Prop
  | .statement first => StatementJumpsWithin loops first
  | .block body => BlockJumpsWithin loops body
  | .branches chain => BranchesJumpWithin loops chain
  | .loop head body => BlockJumpsWithin (head.kind :: loops) body

theorem terminates_of_leaves_normal {first : Statement α} {ending : Ending}
    (leaves : Leaves (.statement first) ending) (normal : ending = .normal) : terminates first = false := by
  cases leaves with
  | plain simple => cases first <;> first | rfl | cases simple
  | return_ | stop | control => cases normal
  | if_ | loop => rfl

theorem Ending.JumpsWithin.ofLoop {loops : List LoopKind} {kind : LoopKind} {ending : Ending}
    (within : ending.JumpsWithin (kind :: loops)) (leaves : ¬ending.outcome.EndsIteration kind) :
    (ending.ofLoop kind).JumpsWithin loops := by
  intro jump target same
  rw [Ending.ofLoop] at same
  split at same
  next => cases same
  next stays =>
    subst same
    rcases List.mem_cons.mp (within jump target rfl) with rfl | outer
    · cases jump with
      | exit => exact absurd rfl stays
      | continue_ => exact absurd (.inr rfl) leaves
    · exact outer

theorem Leaves.jumpsWithin {code : Code α} {ending : Ending} {loops : List LoopKind}
    (leaves : Leaves code ending) (within : code.JumpsWithin loops) : ending.JumpsWithin loops := by
  induction leaves generalizing loops with
  | plain | return_ | stop | nil | untaken | ends | completes => nofun
  | control =>
    intro kind target same
    cases same
    exact within
  | if_ _ ih => exact ih within
  | loop _ ih => exact ih within
  | cons first _ _ ihRest => exact ihRest (within.2 (terminates_of_leaves_normal first rfl))
  | leave _ _ ih => exact ih within.1
  | otherwise _ ih => exact ih within
  | taken _ ih => exact ih within.1
  | next _ ih => exact ih within.2
  | left _ leaves ih => exact (ih within).ofLoop leaves
  | repeats _ _ _ _ ihLoop => exact ihLoop within

/-! ### Values -/

def Code.validateReturns (returnType : TypeReference) (isStart : Bool) : Code α → Except ReturnRejected Unit
  | .statement first => validateReturnStatement returnType isStart first
  | .block body => validateReturnStatements returnType isStart body
  | .branches chain => validateReturnBranches returnType isStart chain
  | .loop _ body => validateReturnStatements returnType isStart body

theorem Leaves.checkReturn {code : Code α} {ending : Ending} {returnType : TypeReference} {isStart : Bool}
    {value : Option Expression} (leaves : Leaves code ending)
    (accepted : code.validateReturns returnType isStart = .ok ()) (returned : ending = .returned value) :
    checkReturn returnType isStart value = .ok () := by
  induction leaves with
  | plain | stop | control | nil | untaken | ends | completes => cases returned
  | return_ =>
    cases returned
    exact accepted
  | if_ _ ih => exact ih accepted returned
  | loop _ ih => exact ih accepted returned
  | cons _ _ _ ihRest =>
    obtain ⟨_, -, rest⟩ := bind_eq_ok.1 accepted
    exact ihRest rest returned
  | leave _ _ ih =>
    obtain ⟨_, first, -⟩ := bind_eq_ok.1 accepted
    exact ih first returned
  | otherwise _ ih => exact ih accepted returned
  | taken _ ih =>
    obtain ⟨_, body, -⟩ := bind_eq_ok.1 accepted
    exact ih body returned
  | next _ ih =>
    obtain ⟨_, -, rest⟩ := bind_eq_ok.1 accepted
    exact ih rest returned
  | left _ _ ih =>
    refine ih accepted ?_
    rw [Ending.ofLoop] at returned
    split at returned
    · cases returned
    · exact returned
  | repeats _ _ _ _ ihLoop => exact ihLoop accepted returned

/-! ### Accepted bodies -/

theorem validateReturns_eq_ok {statements : Block α} {returnType : TypeReference} {isStart : Bool} :
    validateReturns statements returnType isStart = .ok () ↔
      validateReturnStatements returnType isStart statements = .ok () ∧
        (returnType.allowsEmpty = true ∨ statements.guaranteesReturn = true) := by
  rw [validateReturns, bind_eq_ok]
  constructor
  · rintro ⟨_, valued, found⟩
    refine ⟨valued, ?_⟩
    by_contra neither
    rw [not_or, Bool.not_eq_true, Bool.not_eq_true] at neither
    rw [neither.1, neither.2] at found
    cases found
  · rintro ⟨valued, accepted⟩
    refine ⟨(), valued, ?_⟩
    rcases accepted with allows | guarantees
    · rw [allows]
      rfl
    · rw [guarantees, Bool.not_true, Bool.and_false]
      rfl

/-- No execution runs off the end of a list that guarantees a return; and where the analyzer and this check
accept the body of a function that is not `VOID`, it ends with a `RETURN` of a value or with `STOP`, on slots
too. -/
theorem validateReturns_sound : (∀ (α : Type) (statements : Block α) (ending : Ending), statements.guaranteesReturn = true →
      Leaves (.block statements) ending → ending ≠ .normal) ∧
    ∀ (analyzer : Analyzer) (locals : Locals) (source : Block Unit) (body : Block Locals)
      (returnType : TypeReference) (isStart : Bool),
      analyzer.block [] false locals source = .ok body →
      validateReturns source returnType isStart = .ok () → returnType.allowsEmpty = false →
      (∀ ending, Leaves (.block source) ending →
        (∃ value, ending = .returned (some value)) ∨ ∃ code, ending = .stopped code) ∧
      ∀ (world : World) (guard : Guard world) (store after : Store world)
        (outcome : Outcome), Executes analyzer.scope guard [] (.block none body) store outcome after →
        outcome = .returned ∨ outcome = .stopped := by
  refine ⟨fun α statements ending guarantees leaves => leaves.ne_normal guarantees, ?_⟩
  intro analyzer locals source body returnType isStart accepted validated notVoid
  obtain ⟨valued, guarantees⟩ := validateReturns_eq_ok.1 validated
  have within := blockJumpsWithin_of_ok source accepted
  have ends (ending : Ending) (leaves : Leaves (.block source) ending) :
      (∃ value, ending = .returned (some value)) ∨ ∃ code, ending = .stopped code := by
    have left := leaves.ne_normal (guarantees.resolve_left (by rw [notVoid]; nofun))
    cases ending with
    | normal => exact absurd rfl left
    | jump kind target => exact nomatch leaves.jumpsWithin within kind target rfl
    | returned value =>
      cases value with
      | some value => exact .inl ⟨value, rfl⟩
      | none =>
        have checked := leaves.checkReturn valued rfl
        rw [BasicNext.Semantic.checkReturn, notVoid] at checked
        cases checked
    | stopped code => exact .inr ⟨code, rfl⟩
  refine ⟨ends, fun world guard store after outcome executes => ?_⟩
  obtain ⟨ending, leaves, rfl⟩ := executes.leaves
  have erased : body.map erase = source := (blockFlows_of_ok source accepted).2.1
  have leavesSource : Leaves (.block source) ending := erased ▸ leaves.map erase
  rcases ends ending leavesSource with ⟨value, rfl⟩ | ⟨code, rfl⟩
  · exact .inl rfl
  · exact .inr rfl

/-- `WHILE f`, `IF f THEN EXIT WHILE ELSE RETURN 1`, `END WHILE`, `STOP 2` -/
def exitsOrReturns {α : Type} (note : α) : Block α :=
  .cons (.loop note (.while_ (.name "f") note)
    (.cons (.if_ note (.branch note (.name "f") (.cons (.control note .exit .while_) (.nil note))
      (.otherwise (.cons (.return_ note (some (.literal (.integer "1")))) (.nil note))))) (.nil note)))
    (.cons (.stop note (.literal (.integer "2"))) (.nil note))

theorem validateReturns_sound_exitsOrReturns :
    (exitsOrReturns ()).guaranteesReturn = true ∧ Leaves (.block (exitsOrReturns ())) (.returned (some (.literal (.integer "1")))) ∧
      ∀ ending, Leaves (.block (exitsOrReturns ())) ending →
        (∃ value, ending = .returned (some value)) ∨ ∃ code, ending = .stopped code := by
  refine ⟨rfl, .leave (.loop (.left (.leave (.if_ (.next (.otherwise (.leave .return_ nofun)))) nofun) ?_)) nofun, ?_⟩
  · rintro (never | never) <;> cases never
  · exact (validateReturns_sound.2 simpleAnalyzer flagOnly (exitsOrReturns ()) (exitsOrReturns flagOnly)
      ⟨[⟨"INTEGER", [], []⟩]⟩ false rfl rfl rfl).1

end BasicNext.Semantic
