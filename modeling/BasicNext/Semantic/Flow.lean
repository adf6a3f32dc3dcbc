import BasicNext.Semantic.Blocks

/-!
# The flow of narrowing

How the locals at one place of an analyzed body come from those at another. The analyzer threads them
through its statements; what it leaves behind is a body whose notes are related, statement by statement.
-/

namespace BasicNext.Semantic

open Frontend Lib

/-! ### Notes -/

section notes

variable {α β : Type} (f : α → β)

mutual

theorem Statement.written_map (statement : Statement α) : (statement.map f).written = statement.written := by
  cases statement with
  | if_ note branches => exact Branches.written_map branches
  | loop note head body => exact Block.written_map body
  | _ => rfl

theorem Block.written_map (block : Block α) : (block.map f).written = block.written := by
  cases block with
  | nil => rfl
  | cons statement rest =>
    show (statement.map f).written ++ (rest.map f).written = statement.written ++ rest.written
    rw [Statement.written_map statement, Block.written_map rest]

theorem Branches.written_map (branches : Branches α) : (branches.map f).written = branches.written := by
  cases branches with
  | untaken => rfl
  | otherwise body => exact Block.written_map body
  | branch note condition body rest =>
    show (body.map f).written ++ (rest.map f).written = body.written ++ rest.written
    rw [Block.written_map body, Branches.written_map rest]

end

mutual

theorem Statement.conditions_map (statement : Statement α) : (statement.map f).conditions = statement.conditions := by
  cases statement with
  | if_ note branches => exact Branches.allConditions_map branches
  | loop note head body =>
    show (head.map f).conditions ++ (body.map f).conditions = head.conditions ++ body.conditions
    rw [Block.conditions_map body]
    cases head <;> rfl
  | _ => rfl

theorem Block.conditions_map (block : Block α) : (block.map f).conditions = block.conditions := by
  cases block with
  | nil => rfl
  | cons statement rest =>
    show (statement.map f).conditions ++ (rest.map f).conditions = statement.conditions ++ rest.conditions
    rw [Statement.conditions_map statement, Block.conditions_map rest]

theorem Branches.allConditions_map (branches : Branches α) : (branches.map f).allConditions = branches.allConditions := by
  cases branches with
  | untaken => rfl
  | otherwise body => exact Block.conditions_map body
  | branch note condition body rest =>
    show condition :: ((body.map f).conditions ++ (rest.map f).allConditions) =
      condition :: (body.conditions ++ rest.allConditions)
    rw [Block.conditions_map body, Branches.allConditions_map rest]

end

mutual

theorem Statement.guaranteesReturn_map (statement : Statement α) :
    (statement.map f).guaranteesReturn = statement.guaranteesReturn := by
  cases statement with
  | if_ note branches =>
    show ((branches.map f).hasOtherwise && (branches.map f).guaranteeReturn) =
      (branches.hasOtherwise && branches.guaranteeReturn)
    rw [(Branches.exits_map branches).1, (Branches.exits_map branches).2]
  | _ => rfl

theorem Block.guaranteesReturn_map (block : Block α) : (block.map f).guaranteesReturn = block.guaranteesReturn := by
  cases block with
  | nil => rfl
  | cons statement rest =>
    show ((statement.map f).guaranteesReturn || (rest.map f).guaranteesReturn) =
      (statement.guaranteesReturn || rest.guaranteesReturn)
    rw [Statement.guaranteesReturn_map statement, Block.guaranteesReturn_map rest]

theorem Branches.exits_map (branches : Branches α) : (branches.map f).hasOtherwise = branches.hasOtherwise ∧
      (branches.map f).guaranteeReturn = branches.guaranteeReturn := by
  cases branches with
  | untaken => exact ⟨rfl, rfl⟩
  | otherwise body => exact ⟨rfl, Block.guaranteesReturn_map body⟩
  | branch note condition body rest =>
    have ih := Branches.exits_map rest
    refine ⟨ih.1, ?_⟩
    show ((body.map f).guaranteesReturn && (rest.map f).guaranteeReturn) = (body.guaranteesReturn && rest.guaranteeReturn)
    rw [Block.guaranteesReturn_map body, ih.2]

end

mutual

theorem Statement.map_map {γ : Type} (g : β → γ) (statement : Statement α) :
    (statement.map f).map g = statement.map (g ∘ f) := by
  cases statement with
  | if_ note branches => exact congrArg (Statement.if_ (g (f note))) (Branches.map_map g branches)
  | loop note head body =>
    show Statement.loop _ ((head.map f).map g) ((body.map f).map g) = Statement.loop _ _ _
    rw [Block.map_map g body]
    cases head <;> rfl
  | _ => rfl

theorem Block.map_map {γ : Type} (g : β → γ) (block : Block α) : (block.map f).map g = block.map (g ∘ f) := by
  cases block with
  | nil => rfl
  | cons statement rest =>
    show Block.cons ((statement.map f).map g) ((rest.map f).map g) = Block.cons _ _
    rw [Statement.map_map g statement, Block.map_map g rest]

theorem Branches.map_map {γ : Type} (g : β → γ) (branches : Branches α) :
    (branches.map f).map g = branches.map (g ∘ f) := by
  cases branches with
  | untaken => rfl
  | otherwise body => exact congrArg Branches.otherwise (Block.map_map g body)
  | branch note condition body rest =>
    show Branches.branch _ _ ((body.map f).map g) ((rest.map f).map g) = Branches.branch _ _ _ _
    rw [Block.map_map g body, Branches.map_map g rest]
    rfl

end

end notes

/-- The statements as parsed. -/
def erase : Locals → Unit := fun _ => ()

mutual

theorem Statement.map_unit (statement : Statement Unit) : statement.map (fun _ => ()) = statement := by
  cases statement with
  | if_ note branches => exact congrArg (Statement.if_ ()) (Branches.map_unit branches)
  | loop note head body =>
    show Statement.loop () (head.map _) (body.map _) = Statement.loop () head body
    rw [Block.map_unit body]
    cases head <;> rfl
  | _ => rfl

theorem Block.map_unit (block : Block Unit) : block.map (fun _ => ()) = block := by
  cases block with
  | nil => rfl
  | cons statement rest =>
    show Block.cons (statement.map _) (rest.map _) = Block.cons statement rest
    rw [Statement.map_unit statement, Block.map_unit rest]

theorem Branches.map_unit (branches : Branches Unit) : branches.map (fun _ => ()) = branches := by
  cases branches with
  | untaken => rfl
  | otherwise body => exact congrArg Branches.otherwise (Block.map_unit body)
  | branch note condition body rest =>
    show Branches.branch () condition (body.map _) (rest.map _) = Branches.branch () condition body rest
    rw [Block.map_unit body, Branches.map_unit rest]

end

/-! ### Flow -/

def Declares (constant parameter : Bool) : List (String × DeclaredType) → Locals → Locals → Prop
  | [], locals, after => after = locals
  | (name, declared) :: rest, locals, after =>
    locals[name]? = none ∧ Declares constant parameter rest
        (locals.insert name
          { ty := declared.ty, declaredTy := declared.ty, constant := constant, parameter := parameter }) after

/-- The head of a loop that is checked with `locals`, and its body. -/
def HeadFlows (scope : TypeScope) (head : LoopHead Locals) (locals : Locals) (body : Block Locals) : Prop :=
  match head with
  | .while_ condition note =>
    note = endNarrowings body.written locals ∧ narrowedLocals scope condition note true = .ok body.note
  | .repeat_ _ note => body.note = endNarrowings body.written locals ∧ note = body.last
  | .for_ header => ∃ loopLocals, Declares header.constant false [(header.name, header.ty)] locals loopLocals ∧
    body.note = endNarrowings body.written loopLocals

/-- Only the path that takes no branch goes on after the `IF`. -/
def onlyUntaken (branches : Branches Locals) : Bool := !branches.hasOtherwise && branches.guaranteeReturn

mutual

def StatementFlows (scope : TypeScope) : Statement Locals → Locals → Prop
  | .binding locals constant ty names, after =>
    Declares constant false (names.map fun declared => (declared.name, ty)) locals after
  | .destructuring locals bindings _, after => Declares false false bindings locals after
  | .if_ locals branches, after =>
    branches.note = locals ∧ BranchesFlow scope branches ∧
      after = if onlyUntaken branches then branches.remaining else endNarrowings branches.written locals
  | .loop locals head body, after =>
    HeadFlows scope head locals body ∧ BlockFlows scope body ∧ after = endNarrowings body.written locals
  | .assignment locals target _, after | .input locals _ target, after =>
    after = endNarrowings target.written locals
  | .print locals _, after | .call locals _, after | .release locals _, after | .return_ locals _, after
  | .stop locals _, after | .control locals _ _, after => after = locals

/-- The statements after one that leaves the path are never reached. -/
def BlockFlows (scope : TypeScope) : Block Locals → Prop
  | .nil _ => True
  | .cons first rest =>
    StatementFlows scope first rest.note ∧ if terminates first then rest.last = rest.note else BlockFlows scope rest

def BranchesFlow (scope : TypeScope) : Branches Locals → Prop
  | .untaken _ => True
  | .otherwise body => BlockFlows scope body
  | .branch note condition body rest =>
    narrowedLocals scope condition note true = .ok body.note ∧ BlockFlows scope body ∧
      narrowedLocals scope condition note false = .ok rest.note ∧ BranchesFlow scope rest

end

/-! ### What the analyzer leaves -/

theorem declareLocal_eq_ok {name : String} {ty : Ty} {constant parameter : Bool} {locals after : Locals} :
    declareLocal name ty constant parameter locals = .ok after ↔ locals[name]? = none ∧ after = locals.insert name
        { ty := ty, declaredTy := ty, constant := constant, parameter := parameter } := by
  unfold declareLocal
  split
  next symbol known =>
    rw [known]
    exact ⟨nofun, fun never => nomatch never.1⟩
  next unknown =>
    constructor
    · rintro ⟨⟩
      exact ⟨unknown, rfl⟩
    · rintro ⟨-, rfl⟩
      rfl

variable {analyzer : Analyzer}

theorem declares_of_bindNames {constant first : Bool} {ty : DeclaredType} {names : List Declared}
    {locals after : Locals} (found : analyzer.bindNames constant ty first names locals = .ok after) :
    Declares constant false (names.map fun declared => (declared.name, ty)) locals after := by
  induction names generalizing first locals with
  | nil =>
    cases found
    rfl
  | cons declared names ih =>
    obtain ⟨_, -, rest⟩ := bind_eq_ok.1 found
    obtain ⟨next, declares, rest⟩ := bind_eq_ok.1 rest
    obtain ⟨new, rfl⟩ := declareLocal_eq_ok.1 declares
    exact ⟨new, ih rest⟩

theorem declares_of_bindEach {bindings : List (String × DeclaredType)} {locals after : Locals}
    (found : Analyzer.bindEach bindings locals = .ok after) : Declares false false bindings locals after := by
  induction bindings generalizing locals with
  | nil =>
    cases found
    rfl
  | cons binding bindings ih =>
    obtain ⟨next, declares, rest⟩ := bind_eq_ok.1 found
    obtain ⟨new, rfl⟩ := declareLocal_eq_ok.1 declares
    exact ⟨new, ih rest⟩

theorem narrowed_eq_ok {condition : Expression} {locals after : Locals} {truth : Bool} :
    analyzer.narrowed condition locals truth = .ok after ↔
      narrowedLocals analyzer.scope condition locals truth = .ok after := mapError_eq_ok

theorem terminates_map {α β : Type} (f : α → β) (statement : Statement α) :
    terminates (statement.map f) = terminates statement := by
  cases statement <;> rfl

theorem written_of_erased {checked : Block Locals} {source : Block Unit} (erased : checked.map erase = source) :
    source.written = checked.written := by
  rw [← erased, Block.written_map]

theorem last_of_terminated {loops : List LoopKind} {locals : Locals} :
    ∀ (source : Block Unit) {checked : Block Locals}, analyzer.block loops true locals source = .ok checked →
        checked.note = locals ∧ checked.last = locals ∧ checked.map erase = source
  | .nil _, _, found => by
    cases found
    exact ⟨rfl, rfl, rfl⟩
  | .cons first rest, checked, found => by
    rw [Analyzer.block, if_pos rfl] at found
    split at found
    · obtain ⟨others, analyzed, found⟩ := bind_eq_ok.1 found
      obtain ⟨-, last, erased⟩ := last_of_terminated rest analyzed
      cases found
      refine ⟨?_, last, ?_⟩
      · cases first <;> rfl
      · show Block.cons ((first.map fun _ => locals).map erase) (others.map erase) = Block.cons first rest
        rw [Statement.map_map, erased]
        exact congrArg (fun first => Block.cons first rest) (Statement.map_unit first)
    · cases found

mutual

theorem statementFlows_of_ok (source : Statement Unit) {loops : List LoopKind} {locals after : Locals}
    {checked : Statement Locals} (found : analyzer.statement loops locals source = .ok (checked, after)) :
    checked.note = locals ∧ checked.map erase = source ∧ StatementFlows analyzer.scope checked after := by
  cases source with
  | binding note constant ty names =>
    obtain ⟨_, -, found⟩ := bind_eq_ok.1 found
    obtain ⟨bound, binds, found⟩ := bind_eq_ok.1 found
    cases found
    exact ⟨rfl, rfl, declares_of_bindNames binds⟩
  | destructuring note bindings source =>
    rw [Analyzer.statement] at found
    split at found
    · obtain ⟨_, -, found⟩ := bind_eq_ok.1 found
      obtain ⟨_, -, found⟩ := bind_eq_ok.1 found
      obtain ⟨bound, binds, found⟩ := bind_eq_ok.1 found
      cases found
      exact ⟨rfl, rfl, declares_of_bindEach binds⟩
    · cases found
  | assignment | input | print | call | release | return_ | stop | control =>
    obtain ⟨_, -, found⟩ := bind_eq_ok.1 found
    cases found
    exact ⟨rfl, rfl, rfl⟩
  | if_ note branches =>
    obtain ⟨chain, analyzed, found⟩ := bind_eq_ok.1 found
    obtain ⟨begins, erased, flows⟩ := branchesFlow_of_ok branches analyzed
    cases found
    refine ⟨rfl, congrArg (Statement.if_ ()) erased, begins, flows, ?_⟩
    obtain rfl := erased
    rw [(Branches.exits_map erase chain).1, (Branches.exits_map erase chain).2, Branches.written_map]
    rfl
  | loop note head body =>
    cases head with
    | while_ condition note =>
      obtain ⟨_, -, found⟩ := bind_eq_ok.1 found
      obtain ⟨bodyLocals, narrows, found⟩ := bind_eq_ok.1 found
      obtain ⟨block, analyzed, found⟩ := bind_eq_ok.1 found
      obtain ⟨begins, erased, flows⟩ := blockFlows_of_ok body analyzed
      cases found
      rw [written_of_erased erased] at narrows ⊢
      exact ⟨rfl, congrArg (Statement.loop () _) erased, ⟨rfl, begins ▸ narrowed_eq_ok.1 narrows⟩, flows, rfl⟩
    | repeat_ condition note =>
      obtain ⟨block, analyzed, found⟩ := bind_eq_ok.1 found
      obtain ⟨_, -, found⟩ := bind_eq_ok.1 found
      obtain ⟨begins, erased, flows⟩ := blockFlows_of_ok body analyzed
      cases found
      rw [written_of_erased erased] at begins ⊢
      exact ⟨rfl, congrArg (Statement.loop () _) erased, ⟨begins, rfl⟩, flows, rfl⟩
    | for_ header =>
      obtain ⟨_, -, found⟩ := bind_eq_ok.1 found
      obtain ⟨loopLocals, declares, found⟩ := bind_eq_ok.1 found
      obtain ⟨block, analyzed, found⟩ := bind_eq_ok.1 found
      obtain ⟨begins, erased, flows⟩ := blockFlows_of_ok body analyzed
      obtain ⟨new, declared⟩ := declareLocal_eq_ok.1 declares
      cases found
      rw [written_of_erased erased] at begins ⊢
      exact ⟨rfl, congrArg (Statement.loop () _) erased, ⟨_, ⟨new, declared⟩, begins⟩, flows, rfl⟩

theorem blockFlows_of_ok (source : Block Unit) {loops : List LoopKind} {locals : Locals}
    {checked : Block Locals} (found : analyzer.block loops false locals source = .ok checked) :
    checked.note = locals ∧ checked.map erase = source ∧ BlockFlows analyzer.scope checked := by
  cases source with
  | nil note =>
    cases found
    exact ⟨rfl, rfl, trivial⟩
  | cons first rest =>
    rw [Analyzer.block, if_neg nofun] at found
    obtain ⟨⟨statement, after⟩, analyzed, found⟩ := bind_eq_ok.1 found
    obtain ⟨others, analyzedRest, found⟩ := bind_eq_ok.1 found
    obtain ⟨begins, erased, flows⟩ := statementFlows_of_ok first analyzed
    cases found
    have same : terminates statement = terminates first := by
      rw [← erased, terminates_map]
    cases left : terminates first with
    | true =>
      rw [left] at analyzedRest
      obtain ⟨follows, last, erasedRest⟩ := last_of_terminated rest analyzedRest
      refine ⟨begins, congrArg₂ Block.cons erased erasedRest, follows ▸ flows, ?_⟩
      rw [if_pos (same.trans left), last, follows]
    | false =>
      rw [left] at analyzedRest
      obtain ⟨follows, erasedRest, flowsRest⟩ := blockFlows_of_ok rest analyzedRest
      refine ⟨begins, congrArg₂ Block.cons erased erasedRest, follows ▸ flows, ?_⟩
      rw [if_neg (by rw [same, left]; nofun)]
      exact flowsRest

theorem branchesFlow_of_ok (source : Branches Unit) {loops : List LoopKind} {locals : Locals}
    {checked : Branches Locals} (found : analyzer.ifBranches loops locals source = .ok checked) :
    checked.note = locals ∧ checked.map erase = source ∧ BranchesFlow analyzer.scope checked := by
  cases source with
  | untaken note =>
    cases found
    exact ⟨rfl, rfl, trivial⟩
  | otherwise body =>
    obtain ⟨block, analyzed, found⟩ := bind_eq_ok.1 found
    obtain ⟨begins, erased, flows⟩ := blockFlows_of_ok body analyzed
    cases found
    exact ⟨begins, congrArg Branches.otherwise erased, flows⟩
  | branch note condition body rest =>
    obtain ⟨_, -, found⟩ := bind_eq_ok.1 found
    obtain ⟨branchLocals, narrows, found⟩ := bind_eq_ok.1 found
    obtain ⟨block, analyzed, found⟩ := bind_eq_ok.1 found
    obtain ⟨untaken, narrowsUntaken, found⟩ := bind_eq_ok.1 found
    obtain ⟨others, analyzedRest, found⟩ := bind_eq_ok.1 found
    obtain ⟨begins, erased, flows⟩ := blockFlows_of_ok body analyzed
    obtain ⟨follows, erasedRest, flowsRest⟩ := branchesFlow_of_ok rest analyzedRest
    cases found
    refine ⟨rfl, congrArg₂ (Branches.branch () condition) erased erasedRest, ?_, flows, ?_, flowsRest⟩
    · rw [begins]
      exact narrowed_eq_ok.1 narrows
    · rw [follows]
      exact narrowed_eq_ok.1 narrowsUntaken

end

end BasicNext.Semantic
