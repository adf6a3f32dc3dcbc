import BasicNext.Semantic.FlowSound

/-!
# `UNTIL` after `CONTINUE REPEAT`

The analyzer checks `UNTIL` with the locals at the end of the body, and `CONTINUE REPEAT` comes to it from
anywhere in the body. What is listed there holds if the statements that are skipped declare nothing and if
the narrowings that they leave in force hold at the `CONTINUE` already.
-/

namespace BasicNext.Semantic

open Frontend Interp Lib

variable {world : World} {scope : TypeScope}

/-! ### The skipped statements -/

def declaresLocals : Statement Locals → Bool
  | .binding .. | .destructuring .. => true
  | _ => false

/-- The conditions whose narrowings stay in force after a statement. -/
def lastingConditions : Statement Locals → List Expression
  | .if_ _ branches => if onlyUntaken branches then branches.conditions else []
  | _ => []

def endedNames : Statement Locals → List String
  | .if_ _ branches => if onlyUntaken branches then [] else branches.written
  | statement => statement.written

def endedInBlock : Block Locals → List String
  | .nil _ => []
  | .cons first rest => endedNames first ++ if terminates first then [] else endedInBlock rest

/-- The condition can be false with these slots, while no object dies. -/
def CanBeFalse (scope : TypeScope) (store : Store world) (condition : Expression) : Prop :=
  ∃ after, Evaluates scope (fun _ => False) condition store false after

/-- The condition narrows only names whose narrowings end later, or it can be false with these slots. -/
def Settled (scope : TypeScope) (later : List String) (store : Store world) (condition : Expression) : Prop :=
  (∀ test ∈ narrowings condition false, test.name ∈ later) ∨ CanBeFalse scope store condition

/-- No statement declares a local, and every narrowing that one leaves in force holds or is ended later. -/
def KeepsTail (scope : TypeScope) (store : Store world) : Block Locals → Prop
  | .nil _ => True
  | .cons first rest =>
    declaresLocals first = false ∧
      (∀ condition ∈ lastingConditions first, Settled scope (endedInBlock rest) store condition) ∧
      (terminates first = false → KeepsTail scope store rest)

/-- The condition on a `CONTINUE REPEAT`, for the statements of the body from the one that holds it on: they
keep what is known, and an `IF` that only its untaken path leaves wrote nothing that stays narrowed. -/
def KeepsUntil (scope : TypeScope) (tail : Block Locals) (store : Store world) : Prop :=
  KeepsTail scope store tail ∧ match tail with
    | .nil _ => True
    | .cons first rest => ∀ name ∈ first.written, name ∈ endedNames first ∨ name ∈ endedInBlock rest

/-! ### Narrowing beside ended names -/

/-- The same locals, up to the types of the ended names. -/
def Beside (ended : List String) (inner outer : Locals) : Prop :=
  ∀ name : String, Option.Rel (fun symbol symbol' : Symbol => symbol.declaredTy = symbol'.declaredTy ∧
    (name ∉ ended → symbol = symbol')) inner[name]? outer[name]?

theorem beside_endNarrowings (ended : List String) (locals : Locals) :
    Beside ended (endNarrowings ended locals) locals := by
  intro name
  rw [getElem?_endNarrowings]
  cases locals[name]? with
  | none => exact .none
  | some symbol =>
    refine .some ⟨?_, fun kept => ?_⟩
    · dsimp only
      split <;> rfl
    · exact if_neg kept

theorem Beside.refines {ended : List String} {inner outer : Locals} (beside : Beside ended inner outer) :
    Refines world inner (endNarrowings ended outer) := by
  intro name symbol known
  rw [getElem?_endNarrowings] at known
  obtain ⟨symbol', known', rfl⟩ := Option.map_eq_some_iff.1 known
  have related := beside name
  rw [known'] at related
  generalize found : inner[name]? = entry at related
  cases related with
  | @some symbolInner _ related =>
    refine ⟨symbolInner, rfl, ?_, fun value declared inhabits => ?_⟩
    · split <;> exact related.1
    · split
      · exact related.1 ▸ declared
      · exact related.2 ‹_› ▸ inhabits

theorem Beside.insert {ended : List String} {inner outer : Locals} {name : String} {symbol symbol' : Symbol}
    (beside : Beside ended inner outer) (declared : symbol.declaredTy = symbol'.declaredTy)
    (same : name ∉ ended → symbol = symbol') :
    Beside ended (inner.insert name symbol) (outer.insert name symbol') := by
  intro other
  rw [Std.TreeMap.getElem?_insert, Std.TreeMap.getElem?_insert]
  split
  next equal =>
    obtain rfl := Std.LawfulEqCmp.eq_of_compare equal
    exact .some ⟨declared, same⟩
  next => exact beside other

theorem Beside.insert_ended {ended : List String} {inner outer : Locals} {name : String}
    {symbol symbol' : Symbol} (beside : Beside ended inner outer) (known : outer[name]? = some symbol)
    (declared : symbol'.declaredTy = symbol.declaredTy) (isEnded : name ∈ ended) :
    Beside ended inner (outer.insert name symbol') := by
  intro other
  rw [Std.TreeMap.getElem?_insert]
  split
  next equal =>
    obtain rfl := Std.LawfulEqCmp.eq_of_compare equal
    have related := beside name
    rw [known] at related
    generalize inner[name]? = entry at related ⊢
    cases related with
    | some related => exact .some ⟨related.1.trans declared.symm, fun kept => absurd isEnded kept⟩
  next => exact beside other

theorem Beside.narrowed {ended : List String} {tests : List Narrowing} {inner outer narrowed : Locals}
    (beside : Beside ended inner outer)
    (found : tests.foldlM (Narrowing.apply scope) outer = .ok narrowed) :
    ∃ narrowed', tests.foldlM (Narrowing.apply scope) inner = .ok narrowed' ∧ Beside ended narrowed' narrowed := by
  induction tests generalizing inner outer with
  | nil =>
    obtain rfl := pure_eq_ok.1 found
    exact ⟨inner, rfl, beside⟩
  | cons test tests ih =>
    obtain ⟨next, applied, rest⟩ := bind_eq_ok.1 found
    have step : ∃ next', test.apply scope inner = .ok next' ∧ Beside ended next' next := by
      rcases narrowByTest_eq_ok applied with ⟨narrows, rfl⟩ | ⟨testType, symbol, narrows, known, rfl⟩
      · refine ⟨inner, ?_, beside⟩
        rw [Narrowing.apply, narrowByTest, narrows]
        rfl
      · have related := beside test.name
        rw [known] at related
        generalize found' : inner[test.name]? = entry at related
        cases related with
        | @some symbol' _ related =>
          refine ⟨inner.insert test.name (symbol'.narrow testType (testHolds test.operator test.truth)), ?_,
            beside.insert ?_ fun kept => by rw [related.2 kept]⟩
          · simp only [Narrowing.apply, narrowByTest, narrows, found', bind, Except.bind]
            rfl
          · rw [declaredTy_narrow, declaredTy_narrow, related.1]
    obtain ⟨next', applied', beside'⟩ := step
    obtain ⟨narrowed', found', beside''⟩ := ih beside' rest
    exact ⟨narrowed', bind_eq_ok.2 ⟨next', applied', found'⟩, beside''⟩

theorem Beside.narrowed_ended {ended : List String} {tests : List Narrowing} {inner outer narrowed : Locals}
    (beside : Beside ended inner outer) (names : ∀ test ∈ tests, test.name ∈ ended)
    (found : tests.foldlM (Narrowing.apply scope) outer = .ok narrowed) : Beside ended inner narrowed := by
  induction tests generalizing outer with
  | nil =>
    obtain rfl := pure_eq_ok.1 found
    exact beside
  | cons test tests ih =>
    obtain ⟨next, applied, rest⟩ := bind_eq_ok.1 found
    refine ih ?_ (fun other member => names other (List.mem_cons_of_mem _ member)) rest
    rcases narrowByTest_eq_ok applied with ⟨-, rfl⟩ | ⟨testType, symbol, -, known, rfl⟩
    · exact beside
    · exact beside.insert_ended known (declaredTy_narrow symbol testType _) (names test List.mem_cons_self)

theorem Holds.of_evolves {locals : Locals} {store after : Store world} (holds : Holds after locals)
    (evolves : store.Evolves after) : Holds store locals := by
  intro name symbol known
  obtain ⟨slot', filled', declared', inhabits⟩ := holds name symbol known
  cases filled : store name with
  | none =>
    rw [evolves.1 name filled] at filled'
    cases filled'
  | some slot =>
    obtain ⟨slot'', filled'', declared'', same⟩ := evolves.2 name slot filled
    obtain rfl := Option.some.inj (filled'.symm.trans filled'')
    exact ⟨slot, rfl, declared''.symm.trans declared', (same _).2 inhabits⟩

section

variable {condition : Expression} {truth : Bool} {store after : Store world}

theorem Evaluates.evolves (evaluates : Evaluates scope (fun _ => False) condition store truth after) :
    store.Evolves after := by
  induction evaluates with
  | not _ _ ih | andLeft _ _ ih | orLeft _ _ ih => exact ih
  | andRight _ _ _ ihLeft ihRight | orRight _ _ _ ihLeft ihRight => exact ihLeft.trans ihRight
  | test _ _ _ _ _ _ evolves | free _ _ evolves => exact evolves
  | dies dies =>
    obtain ⟨-, -, -, -, -, never, -⟩ := dies
    exact never.elim

end

theorem holds_of_settled {condition : Expression} {later : List String} {locals narrowed : Locals}
    {store : Store world} (flat : AllFlat locals) (sound : NarrowsSoundly world scope condition)
    (settled : Settled scope later store condition)
    (narrows : narrowedLocals scope condition locals false = .ok narrowed)
    (holds : Holds store (endNarrowings later locals)) : Holds store (endNarrowings later narrowed) := by
  have beside := beside_endNarrowings later locals
  have tests := narrows
  rw [narrowedLocals_eq_foldlM] at tests
  rcases settled with names | ⟨after, evaluates⟩
  · exact (beside.narrowed_ended names tests).refines.holds holds
  · obtain ⟨narrowed', found', beside'⟩ := beside.narrowed tests
    rw [← narrowedLocals_eq_foldlM] at found'
    have kept := sound _ store after false _ narrowed' (flat.endNarrowings later) (fun _ _ _ never => never.elim)
      (fun _ _ _ never => never) holds evaluates found'
    exact beside'.refines.holds (kept.of_evolves evaluates.evolves)

/-! ### The tail of a body -/

theorem holds_of_untaken {branches : Branches Locals} {later : List String} {store : Store world}
    (flat : AllFlat branches.note) (flows : BranchesFlow scope branches)
    (sound : ∀ condition ∈ branches.allConditions, NarrowsSoundly world scope condition)
    (settled : ∀ condition ∈ branches.conditions, Settled scope later store condition)
    (holds : Holds store (endNarrowings later branches.note)) :
    Holds store (endNarrowings later branches.remaining) := by
  induction branches using Branches.rec (motive_1 := fun _ => True) (motive_2 := fun _ => True) with
  | untaken | otherwise => exact holds
  | branch note condition body rest _ ih =>
    obtain ⟨-, -, narrows, flowsRest⟩ := flows
    exact ih (flat.narrowed narrows) flowsRest
      (fun other member => sound other (List.mem_cons_of_mem _ (List.mem_append_right _ member)))
      (fun other member => settled other (List.mem_cons_of_mem _ member))
      (holds_of_settled flat (sound condition List.mem_cons_self) (settled condition List.mem_cons_self) narrows
        holds)
  | _ => trivial

theorem holds_of_skipped {first : Statement Locals} {next : Locals} {later : List String}
    {store : Store world} (flat : AllFlat first.note) (flows : StatementFlows scope first next)
    (sound : ∀ condition ∈ first.conditions, NarrowsSoundly world scope condition)
    (undeclared : declaresLocals first = false)
    (settled : ∀ condition ∈ lastingConditions first, Settled scope later store condition)
    (holds : Holds store (endNarrowings (endedNames first ++ later) first.note)) :
    Holds store (endNarrowings later next) := by
  rw [endNarrowings_append] at holds
  cases first with
  | binding | destructuring => cases undeclared
  | assignment | input | print | call | release | return_ | stop | control =>
    obtain rfl := flows
    exact holds
  | loop =>
    obtain ⟨-, -, rfl⟩ := flows
    exact holds
  | if_ note branches =>
    obtain ⟨begins, flows, rfl⟩ := flows
    obtain rfl := begins
    rw [endedNames] at holds
    rw [lastingConditions] at settled
    split
    next only =>
      rw [if_pos only] at holds settled
      exact holds_of_untaken flat flows sound settled holds
    next only =>
      rw [if_neg only] at holds
      exact holds

theorem holds_of_tail {tail : Block Locals} {store : Store world} (flat : AllFlat tail.note) (flows : BlockFlows scope tail)
    (sound : ∀ condition ∈ tail.conditions, NarrowsSoundly world scope condition)
    (keeps : KeepsTail scope store tail) (holds : Holds store (endNarrowings (endedInBlock tail) tail.note)) :
    Holds store tail.last := by
  induction tail using Block.rec (motive_1 := fun _ => True) (motive_3 := fun _ => True) with
  | nil => exact holds
  | cons first rest _ ih =>
    obtain ⟨flowsFirst, flowsRest⟩ := flows
    obtain ⟨undeclared, settled, keepsRest⟩ := keeps
    have soundFirst := fun condition member => sound condition (List.mem_append_left _ member)
    rw [endedInBlock] at holds
    split at flowsRest
    next leaves =>
      rw [if_pos leaves] at holds
      have lasting : lastingConditions first = [] := by cases first <;> first | rfl | cases leaves
      have settledNone : ∀ condition ∈ lastingConditions first, Settled scope [] store condition := by
        rw [lasting]
        exact nofun
      show Holds store rest.last
      rw [flowsRest]
      exact holds_of_skipped flat flowsFirst soundFirst undeclared settledNone holds
    next stays =>
      rw [if_neg stays] at holds
      exact ih (flat.statement flowsFirst) flowsRest (fun condition member =>
        sound condition (List.mem_append_right _ member)) (keepsRest (Bool.not_eq_true _ ▸ stays))
        (holds_of_skipped flat flowsFirst soundFirst undeclared settled holds)
  | _ => trivial

theorem guardSound_keepsUntil :
    GuardSound scope (KeepsUntil scope : Block Locals → Store world → Prop) := by
  intro first rest store ⟨keeps, writes⟩ flows flat sound holds
  have last := @holds_of_tail world scope (.cons first rest) store flat flows sound keeps
  refine last (((Refines.refl _).endNarrowings fun name written => ?_).holds holds)
  rw [endedInBlock, List.mem_append]
  cases leaves : terminates first with
  | true =>
    have none_ : first.written = [] := by cases first <;> first | rfl | cases leaves
    rw [none_] at written
    cases written
  | false => exact (writes name written).imp id fun later => later

end BasicNext.Semantic
