import BasicNext.Ir.OwnershipBalance

/-!
# Reads after a consumption

The walk checks a block with the consumed values that have arrived when the block leaves the queue. A
consumption that arrives later, over a back edge or a longer way, is merged into a block that is not
checked again. Most reads are safe all the same: what is defined on every path to a block and owned by
its defining instruction is, on the path the walk took, still owned or known to be consumed. Two reads
escape that argument: a phi reads at the end of a predecessor, and an instruction may name its own
destination.
-/

namespace BasicNext.Ir

open Lib

/-! ### The property and its condition -/

/-- Along every path from the entry, a consumed value is read only after it has been defined again. -/
def Function.NoReadAfterConsume (module : Module) (function : Function) : Prop :=
  ∀ path last, function.IsPath path last → ReadsUnconsumed (pathTrace module function none (path ++ [last]))

/-- No instruction other than a phi, in a block on a loop that some path reaches, reads the owned value
it defines. -/
def Function.NoOwnReadInLoop (module : Module) (function : Function) : Prop :=
  ∀ path last back, function.IsPath path last → Walk function.Edge last back last → back ≠ [] →
    ∀ instruction ∈ function.instructionsAt last, instruction.isPhi = false → ∀ value ∈ instructionUses instruction,
        ownedResult module (ownershipTypes function) instruction ≠ some value

/-- The block consumes `value` and does not define it from there on. -/
def LeavesConsumed (module : Module) (function : Function) (value : ValueId) (index : Nat) : Prop :=
  ∃ earlier instruction later, function.instructionsAt index = earlier ++ instruction :: later
    ∧ value ∈ consumed module function instruction (ownershipTypes function)
    ∧ ∀ other ∈ instruction :: later, instructionDefines other ≠ some value

/-- A consumption of `value` reaches the end of a block without passing a definition of it. -/
inductive ConsumptionReaches (module : Module) (function : Function) (value : ValueId) : Nat → Prop
  | here {path : List Nat} {index : Nat} : function.IsPath path index →
      LeavesConsumed module function value index → ConsumptionReaches module function value index
  | through {source target : Nat} : ConsumptionReaches module function value source → function.Edge source target →
      (∀ instruction ∈ function.instructionsAt target, instructionDefines instruction ≠ some value) →
      ConsumptionReaches module function value target

def Function.NoConsumedPhiOperand (module : Module) (function : Function) : Prop :=
  ∀ predecessor last, function.Edge predecessor last → ∀ instruction ∈ function.instructionsAt last,
    instruction.isPhi = true → ∀ value ∈ instructionReads (some predecessor) instruction,
      ¬ ConsumptionReaches module function value predecessor

variable {module : Module} {function : Function} {reachable : Finset Nat} {sets : MustDefined}
  {path : List Nat} {last : Nat} {value : ValueId} {instruction : Instruction} {block : BasicBlock}

/-! ### The types of the two validators -/

variable {ty : Ty}

theorem recordType_eq_some {types : ValueTypes} (h : recordType types instruction value = some ty) : types value = some ty
      ∨ instructionDefines instruction = some value ∧ instructionType instruction = some ty := by
  unfold recordType at h
  cases defines : instructionDefines instruction with
  | none => exact .inl (by simpa [defines] using h)
  | some destination =>
    cases typed : instructionType instruction with
    | none => exact .inl (by simpa [defines, typed] using h)
    | some ty' =>
      simp only [defines, typed] at h
      by_cases same : value = destination
      · subst same
        rw [Function.update_self] at h
        exact .inr ⟨rfl, h⟩
      · rw [Function.update_of_ne same] at h
        exact .inl h

theorem ownershipTypes_eq_some (h : ownershipTypes function value = some ty) :
    ∃ instruction ∈ function.instructions, instructionDefines instruction = some value
      ∧ instructionType instruction = some ty := by
  have scan : ∀ (instructions : List Instruction) (types : ValueTypes),
      instructions.foldl recordType types value = some ty → types value = some ty ∨ ∃ instruction ∈ instructions,
          instructionDefines instruction = some value ∧ instructionType instruction = some ty := by
    intro instructions
    induction instructions with
    | nil => exact fun types found => .inl found
    | cons instruction instructions ih =>
      intro types found
      rcases ih _ found with before | ⟨other, member, facts⟩
      · exact (recordType_eq_some before).imp_right fun facts =>
          ⟨instruction, List.mem_cons_self, facts⟩
      · exact .inr ⟨other, List.mem_cons_of_mem _ member, facts⟩
  rcases scan _ _ h with initial | found
  · cases initial
  · exact found

theorem recordValueType_of_ne {types : ValueTypes} (h : instructionDefines instruction ≠ some value) :
    recordValueType types instruction value = types value := by
  unfold recordValueType
  cases defines : instructionDefines instruction with
  | none => rfl
  | some destination =>
    have differs : value ≠ destination := fun same => h (same ▸ defines)
    cases typed : instructionType instruction with
    | some ty => exact Function.update_of_ne differs _ _
    | none => cases instruction <;> simp [Function.update_of_ne differs]

theorem validatedTypes_eq_some (once : function.DefinesOnce) (member : instruction ∈ function.instructions)
    (defines : instructionDefines instruction = some value)
    (typed : instructionType instruction = some ty) : validatedTypes function value = some ty := by
  have untouched : ∀ (instructions : List Instruction) (types : ValueTypes),
      value ∉ instructions.filterMap instructionDefines → instructions.foldl recordValueType types value = types value := by
    intro instructions
    induction instructions with
    | nil => exact fun _ _ => rfl
    | cons other instructions ih =>
      intro types absent
      rw [List.foldl_cons, ih, recordValueType_of_ne]
      · exact fun defines => absent (List.mem_filterMap.2 ⟨other, List.mem_cons_self, defines⟩)
      · exact fun later => absent (((List.sublist_cons_self _ _).filterMap _).subset later)
  obtain ⟨before, after, split⟩ := List.append_of_mem member
  unfold Function.DefinesOnce at once
  rw [split, List.filterMap_append, List.filterMap_cons_some defines, List.nodup_append, List.nodup_cons] at once
  unfold validatedTypes
  rw [split, List.foldl_append, List.foldl_cons, untouched _ _ once.2.1.1]
  simp [recordValueType, defines, typed]

theorem validatedTypes_of_hasArcType (once : function.DefinesOnce)
    (arc : hasArcType module (ownershipTypes function) value = true) :
    ∃ ty, validatedTypes function value = some ty ∧ isArcType module ty = true := by
  obtain ⟨ty, typed, isArc⟩ := (Option.any_eq_true _ _).1 arc
  obtain ⟨instruction, member, defines, typed⟩ := ownershipTypes_eq_some typed
  exact ⟨ty, validatedTypes_eq_some once member defines typed, isArc⟩

theorem returnedValue_of_read {context : PhiContext} {defined : Finset ValueId} {terminator : Terminator}
    (h : validateTerminator module context defined terminator = .ok ())
    (reads : value ∈ terminatorReads terminator) (typed : context.valueTypes value = some ty)
    (arc : isArcType module ty = true) : terminator = .return (some value) := by
  cases terminator with
  | jump => simp [terminatorReads] at reads
  | branch condition thenBlock elseBlock =>
    simp only [validateTerminator, bind_eq_ok, rejectIf_eq_ok] at h
    obtain ⟨-, -, boolean⟩ := h
    obtain rfl : value = condition := by simpa [terminatorReads] using reads
    obtain rfl : ty = .boolean := by simpa [typed, isBoolean] using boolean
    simp [isArcType] at arc
  | «return» returned =>
    obtain rfl : returned = some value := by simpa [terminatorReads] using reads
    rfl
  | stop code =>
    simp only [validateTerminator, bind_eq_ok, rejectIf_eq_ok] at h
    obtain ⟨-, -, integer⟩ := h
    obtain rfl : value = code := by simpa [terminatorReads] using reads
    rw [typed] at integer
    cases ty <;> simp_all [isInteger, isIntegerType, isArcType]

/-! ### Where a consumption comes from -/

theorem consumptionReaches_of_trace {target : Nat} {earlier between : List (Access ValueId)}
    (walk : function.IsPath path last) (edge : function.Edge last target)
    (trace : pathTrace module function none (path ++ [last]) = earlier ++ .consume value :: between)
    (undefined : ¬ Defines value between) : ConsumptionReaches module function value last := by
  have inBlock : ∀ {origin index target before after path}, function.IsPath path index → function.Edge index target →
      blockTrace module function origin index = before ++ .consume value :: after →
        ¬ Defines value after → ConsumptionReaches module function value index := by
    intro origin index target before after path walk edge split undefined
    unfold blockTrace at split
    cases found : function.blocks[index]? with
    | none => simp [found] at split
    | some block =>
      rw [found] at split
      rcases append_eq_split split with ⟨rest, within, rfl⟩ | ⟨rest, -, atEnd⟩
      · obtain ⟨first, instruction, later, left, right, instructions, here, -, rfl⟩ :=
          flatMap_eq_split within
        refine .here walk ⟨first, instruction, later, ?_, ?_, ?_⟩
        · simp [Function.instructionsAt, found, instructions]
        · exact mem_instructionTrace_consume.1 (here ▸ List.mem_append_right _ List.mem_cons_self)
        · intro other member defines
          apply undefined
          rw [defines_append, defines_append]
          rcases List.mem_cons.1 member with rfl | member
          · exact .inl (.inl (defines_after_consume here defines))
          · exact .inl (.inr (defines_instructionsTrace.2 ⟨other, member, defines⟩))
      · cases terminator : block.terminator with
        | «return» returned =>
          simp [Function.Edge, Function.successors, found, terminator, blockSuccessors] at edge
        | _ =>
          have member : Access.consume value ∈ terminatorTrace module function block.terminator := by
            simp [atEnd]
          simp [terminator, terminatorTrace, terminatorConsumes] at member
  induction walk generalizing target earlier between with
  | refl =>
    rw [List.nil_append, pathTrace_singleton] at trace
    exact inBlock .refl edge trace undefined
  | step walk before ih =>
    rename_i path source last
    rw [pathTrace_append, pathTrace_singleton] at trace
    rcases append_eq_split trace with ⟨rest, first_eq, rfl⟩ | ⟨rest, -, second_eq⟩
    · rw [defines_append, not_or, defines_blockTrace] at undefined
      refine .through (ih before first_eq undefined.1) before fun instruction member defines => ?_
      exact undefined.2 ⟨instruction, member, defines⟩
    · exact inBlock (walk.step before) edge second_eq undefined

theorem ConsumptionReaches.exists_trace {index : Nat} (reaches : ConsumptionReaches module function value index) :
    ∃ path earlier between, function.IsPath path index
      ∧ pathTrace module function none (path ++ [index]) = earlier ++ .consume value :: between
      ∧ ¬ Defines value between := by
  induction reaches with
  | here walk leaves =>
    rename_i path index
    obtain ⟨earlier, instruction, later, instructions, consumes, undefined⟩ := leaves
    cases found : function.blocks[index]? with
    | none => simp [Function.instructionsAt, found] at instructions
    | some block =>
      have split : block.instructions = earlier ++ instruction :: later := by
        simpa [Function.instructionsAt, found] using instructions
      obtain ⟨left, right, consumed_eq⟩ := List.append_of_mem
        (mem_instructionTrace_consume.2 consumes : .consume value
          ∈ instructionTrace module function path.getLast? instruction)
      refine ⟨path, pathTrace module function none path
          ++ (instructionsTrace module function path.getLast? earlier ++ left),
        right ++ (instructionsTrace module function path.getLast? later
          ++ terminatorTrace module function block.terminator), walk, ?_, ?_⟩
      · rw [pathTrace_append, pathTrace_singleton, Option.or_none, blockTrace_split found split, consumed_eq]
        simp
      · rw [defines_append, defines_append, defines_instructionsTrace]
        rintro (here | ⟨other, member, defines⟩ | atEnd)
        · have own : Defines value (instructionTrace module function path.getLast? instruction) := by
            rw [consumed_eq, defines_append, defines_cons]
            exact .inr (.inr here)
          exact undefined instruction List.mem_cons_self (defines_instructionTrace.1 own)
        · exact undefined other (List.mem_cons_of_mem _ member) defines
        · exact not_defines_terminatorTrace atEnd
  | through reaches edge undefined ih =>
    rename_i source target
    obtain ⟨path, earlier, between, walk, trace, undefinedBefore⟩ := ih
    refine ⟨path ++ [source], earlier, between ++ blockTrace module function (some source) target, walk.step edge, ?_, ?_⟩
    · rw [pathTrace_append, pathTrace_singleton, trace]
      simp
    · rw [defines_append, defines_blockTrace]
      rintro (before | ⟨instruction, member, defines⟩)
      · exact undefinedBefore before
      · exact undefined instruction member defines

/-! ### Reads that the argument covers -/

/-- A path brought the walk to the block, and every reference of that path is still owned or known to be
consumed. -/
def ReachedWith (module : Module) (function : Function) (index : Nat) (state : OwnershipState) : Prop :=
  ∃ path, function.IsPath path index ∧ ∀ value, .define value true ∈ pathTrace module function none path →
      value ∈ state.owned ∨ value ∈ state.consumed

theorem Checked.reachedSets {fuel : Nat} (checked : Checked module function reachable sets)
    (h : validateOwnershipOf fuel module function = .ok ()) :
    ∃ owned, OwnedSets module function (ReachedWith module function) owned := by
  refine checked.ownedSets h _ ⟨[], .refl, by simp [pathTrace]⟩ ?_ ?_
  · rintro index owned consumed more ⟨path, walk, covers⟩
    exact ⟨path, walk, fun value defined =>
      (covers value defined).imp_right fun known => Finset.mem_union_left _ known⟩
  · rintro index state block after target ⟨path, walk, covers⟩ found passes edge
    refine ⟨path ++ [index], walk.step edge, fun value defined => ?_⟩
    apply (checkInstructions_transfer passes).covers
    rw [pathTrace_append, pathTrace_singleton, List.mem_append, define_mem_blockTrace] at defined
    rcases defined with before | ⟨instruction, member, defines, produces⟩
    · exact (covers value before).imp_right .inl
    · refine .inr (.inr ⟨instruction, ?_, ownedResult_eq_some.2 ⟨produces, defines⟩⟩)
      simpa [Function.instructionsAt, found] using member

variable {origin : Option Nat}

theorem producesOwned_of_define (once : function.DefinesOnce)
    (owned : .define value true ∈ pathTrace module function origin path)
    (member : instruction ∈ function.instructions)
    (defines : instructionDefines instruction = some value) :
    producesOwned module instruction (ownershipTypes function) = true := by
  obtain ⟨index, -, other, within, defines', produces⟩ := define_mem_pathTrace.1 owned
  rw [once.instruction_eq member defines (Function.mem_instructions within) defines']
  exact produces

variable {earlier later : List Instruction} {values : List ValueId}

theorem mem_pathTrace_of_earlier {access : Access ValueId} (found : function.blocks[last]? = some block)
    (split : block.instructions = earlier ++ later) (noRead : ∀ value, access ≠ .read value)
    (h : access ∈ pathTrace module function none path
      ++ (instructionsTrace module function path.getLast? earlier ++ List.map .read values)) :
    access ∈ pathTrace module function none (path ++ [last]) := by
  have blockTrace_eq : blockTrace module function path.getLast? last
      = instructionsTrace module function path.getLast? earlier
        ++ (instructionsTrace module function path.getLast? later
          ++ terminatorTrace module function block.terminator) := by
    simp [blockTrace, instructionsTrace, found, split]
  rw [pathTrace_append, pathTrace_singleton, Option.or_none, blockTrace_eq]
  rcases List.mem_append.1 h with before | within
  · exact List.mem_append_left _ before
  · rcases List.mem_append.1 within with within | reads
    · exact List.mem_append_right _ (List.mem_append_left _ within)
    · obtain ⟨value, -, rfl⟩ := List.mem_map.1 reads
      exact absurd rfl (noRead value)

theorem Checked.owned_or_consumed {path' : List Nat} {state middle : OwnershipState}
    (checked : Checked module function reachable sets) (found : function.blocks[last]? = some block)
    (holds : ReachedWith module function last state)
    (split : block.instructions = earlier ++ later)
    (passes : checkInstructions module function earlier (ownershipTypes function) state = .ok middle)
    (defined : value ∈ defineAll earlier (sets.incoming last))
    (owned : .define value true ∈ pathTrace module function origin path') :
    value ∈ middle.owned ∨ value ∈ middle.consumed := by
  obtain ⟨path, walk, covers⟩ := holds
  apply (checkInstructions_transfer passes).covers
  rcases mem_defineAll.1 defined with atStart | ⟨instruction, within, defines⟩
  · have defined : Defines value (pathTrace module function none path) :=
      checked.incoming_defined walk atStart
    obtain ⟨index, passed, instruction, member, defines⟩ := defines_pathTrace.1 defined
    have produces := producesOwned_of_define checked.definesOnce owned
      (Function.mem_instructions member) defines
    exact (covers value (define_mem_pathTrace.2 ⟨index, passed, instruction, member, defines, produces⟩)).imp_right
      .inl
  · have member : instruction ∈ function.instructionsAt last := by
      simp [Function.instructionsAt, found, split, within]
    have produces := producesOwned_of_define checked.definesOnce owned
      (Function.mem_instructions member) defines
    exact .inr (.inr ⟨instruction, within, ownedResult_eq_some.2 ⟨produces, defines⟩⟩)

variable {owned : Nat → Finset ValueId} {P : Nat → OwnershipState → Prop}

theorem OwnedSets.held_before {state middle : OwnershipState}
    (ownedSets : OwnedSets module function P owned) (values : List ValueId) (once : function.DefinesOnce)
    (walk : function.IsPath path last) (found : function.blocks[last]? = some block)
    (entered : state.owned = owned last) (split : block.instructions = earlier ++ later)
    (passes : checkInstructions module function earlier (ownershipTypes function) state = .ok middle) :
    held ∅ (pathTrace module function none path
      ++ (instructionsTrace module function path.getLast? earlier ++ List.map .read values))
        = some middle.owned := by
  rw [held_append, ownedSets.held_path once walk, Option.bind_some, held_append,
    ownedSets.held_earlier once walk found entered split passes, Option.bind_some, held_reads]

variable {consumedBefore between : List (Access ValueId)}

theorem Checked.instruction_unconsumed (checked : Checked module function reachable sets)
    (ownedSets : OwnedSets module function (ReachedWith module function) owned)
    (condition : function.NoOwnReadInLoop module) (walk : function.IsPath path last)
    (found : function.blocks[last]? = some block)
    (split : block.instructions = earlier ++ instruction :: later) (noPhi : instruction.isPhi = false)
    (operand : value ∈ instructionUses instruction)
    (trace : pathTrace module function none path
        ++ (instructionsTrace module function path.getLast? earlier ++ List.map .read values)
      = consumedBefore ++ .consume value :: between) : Defines value between := by
  by_contra undefined
  obtain ⟨block', state, after, holds, found', entered, passes, -, -⟩ := ownedSets.block path last walk
  obtain rfl : block = block' := by simpa [found] using found'
  have once := checked.definesOnce
  have member : instruction ∈ function.instructionsAt last := by
    simp [Function.instructionsAt, found, split]
  unfold checkInstructions at passes
  rw [split] at passes
  obtain ⟨middle, first, rest⟩ := foldlM_append_eq_ok.1 passes
  obtain ⟨next, here, -⟩ := foldlM_cons_eq_ok.1 rest
  have replay := ownedSets.held_before values once walk found entered split first
  rw [trace] at replay
  have notHeld := held_of_consumed replay undefined
  have acquired : .define value true ∈ pathTrace module function none path
      ++ (instructionsTrace module function path.getLast? earlier ++ List.map .read values) := by
    rw [trace]
    exact List.mem_append_left _ (define_mem_of_consumed replay)
  have onPath := mem_pathTrace_of_earlier found split (by simp) acquired
  rcases ((checked.operands walk found).1 earlier instruction later split).of_not_phi noPhi value operand
    with defined | own
  · rcases checked.owned_or_consumed found holds split first defined onPath with isOwned | isConsumed
    · exact notHeld isOwned
    · exact (checkInstruction_passes here).reads value operand isConsumed
  · -- the instruction defined the value when the path was here before
    have produces := producesOwned_of_define once onPath (Function.mem_instructions member) own
    have passed : last ∈ path := by
      rcases List.mem_append.1 acquired with before | within
      · obtain ⟨index, passed, other, there, defines, -⟩ := define_mem_pathTrace.1 before
        exact once.block_eq member own there defines ▸ passed
      · rcases List.mem_append.1 within with within | reads
        · obtain ⟨other, before, defines⟩ := defines_instructionsTrace.1 (Defines.of_mem within)
          exact absurd defines (once.not_mem_before found split own before)
        · simp at reads
    obtain ⟨before, back, rfl⟩ := List.append_of_mem passed
    exact condition _ last (last :: back) walk walk.since (List.cons_ne_nil _ _) instruction member noPhi
      value operand (ownedResult_eq_some.2 ⟨produces, own⟩)

theorem not_consume_of_phis {earlier : List Instruction} (phis : ∀ other ∈ earlier, other.isPhi = true) :
    .consume value ∉ instructionsTrace module function origin earlier ++ List.map .read values := by
  intro h
  rcases List.mem_append.1 h with within | reads
  · obtain ⟨other, member, consumes⟩ := List.mem_flatMap.1 within
    have isPhi := phis other member
    cases other with
    | phi => simp [mem_instructionTrace_consume, consumed, consumedCandidates] at consumes
    | _ => cases isPhi
  · simp at reads

theorem Checked.phi_unconsumed (checked : Checked module function reachable sets)
    (condition : function.NoConsumedPhiOperand module) (walk : function.IsPath path last)
    (found : function.blocks[last]? = some block)
    (split : block.instructions = earlier ++ instruction :: later) (isPhi : instruction.isPhi = true)
    (operand : value ∈ instructionReads path.getLast? instruction)
    (trace : pathTrace module function none path
        ++ (instructionsTrace module function path.getLast? earlier ++ List.map .read values)
      = consumedBefore ++ .consume value :: between) : Defines value between := by
  by_contra undefined
  obtain ⟨predecessor, origin, -⟩ := ((checked.operands walk found).1 earlier instruction later split).of_phi isPhi operand
  obtain ⟨path, rfl⟩ := List.getLast?_eq_some_iff.1 origin
  rcases append_eq_split trace with ⟨rest, onPath, rfl⟩ | ⟨rest, -, within⟩
  · rw [defines_append, not_or] at undefined
    have reaches := consumptionReaches_of_trace walk.last_step.1 walk.last_step.2 onPath undefined.1
    refine condition predecessor last walk.last_step.2 instruction ?_ isPhi value ?_ reaches
    · simp [Function.instructionsAt, found, split]
    · rwa [origin] at operand
  · have consumes : Access.consume value ∈
        instructionsTrace module function (path ++ [predecessor]).getLast? earlier
          ++ List.map .read values := by
      rw [within]
      simp
    exact not_consume_of_phis (checked.earlier_isPhi walk found split isPhi) consumes

theorem Checked.terminator_unconsumed (checked : Checked module function reachable sets)
    (ownedSets : OwnedSets module function (ReachedWith module function) owned)
    (walk : function.IsPath path last) (found : function.blocks[last]? = some block)
    (operand : value ∈ terminatorReads block.terminator)
    (trace : pathTrace module function none path
        ++ (instructionsTrace module function path.getLast? block.instructions
          ++ List.map .read values)
      = consumedBefore ++ .consume value :: between) : Defines value between := by
  by_contra undefined
  obtain ⟨block', state, after, -, found', entered, passes, returns, -⟩ := ownedSets.block path last walk
  obtain rfl : block = block' := by simpa [found] using found'
  have once := checked.definesOnce
  have whole : block.instructions = block.instructions ++ [] := (List.append_nil _).symm
  have replay := ownedSets.held_before values once walk found entered whole passes
  rw [trace] at replay
  have notHeld := held_of_consumed replay undefined
  have consumes : .consume value ∈ pathTrace module function none (path ++ [last]) := by
    refine mem_pathTrace_of_earlier found whole (by simp) (?_ : _ ∈ _ ++ (_ ++ List.map Access.read values))
    rw [trace]
    simp
  have arc := hasArcType_of_consume consumes
  obtain ⟨ty, typed, isArc⟩ := validatedTypes_of_hasArcType once arc
  have returned := returnedValue_of_read (checked.operands walk found).2 operand typed isArc
  have accepted := returns _ returned
  simp only [checkReturn, returnedValue, Option.filter_some, arc, if_true, bind_eq_ok, rejectIf_eq_ok,
    decide_eq_false_iff_not, not_not] at accepted
  exact notHeld accepted.choose_spec.1

/-! ### Reads that escape it -/

theorem Function.NoReadAfterConsume.at_block {earlier between before rest : List (Access ValueId)}
    (safe : function.NoReadAfterConsume module) (walk : function.IsPath path last)
    (trace : pathTrace module function none path = earlier ++ .consume value :: between)
    (reads : blockTrace module function path.getLast? last = before ++ .read value :: rest) :
    Defines value (between ++ before) := by
  refine safe path last walk (earlier ++ .consume value :: (between ++ before)) value rest ?_ earlier _ rfl
  rw [pathTrace_append, pathTrace_singleton, Option.or_none, trace, reads]
  simp

theorem Function.NoReadAfterConsume.noConsumedPhiOperand (checked : Checked module function reachable sets)
    (ownedSets : OwnedSets module function P owned)
    (safe : function.NoReadAfterConsume module) : function.NoConsumedPhiOperand module := by
  intro predecessor last edge instruction member isPhi value reads reaches
  obtain ⟨path, earlier, between, walk, trace, undefined⟩ := reaches.exists_trace
  have walk' := walk.step edge
  obtain ⟨block, found⟩ := checked.block_of_path walk'
  have within : instruction ∈ block.instructions := by
    simpa [Function.instructionsAt, found] using member
  obtain ⟨before, after, split⟩ := List.append_of_mem within
  obtain ⟨values, rest, blockTrace_eq⟩ := blockTrace_of_read module found split reads
  have defined := safe.at_block walk' trace
    (by rw [List.getLast?_append_of_ne_nil _ (List.cons_ne_nil _ _)]; exact blockTrace_eq)
  rw [defines_append, defines_append, defines_instructionsTrace] at defined
  rcases defined with onPath | ⟨other, earlier', defines⟩ | reads
  · exact undefined onPath
  · -- the value carries a reference, and no phi yields one
    have replay := ownedSets.held_path checked.definesOnce walk'
    rw [trace] at replay
    have onPath : .define value true ∈ pathTrace module function none (path ++ [predecessor]) := by
      rw [trace]
      exact List.mem_append_left _ (define_mem_of_consumed replay)
    have listed : other ∈ function.instructionsAt last := by
      simp [Function.instructionsAt, found, split, earlier']
    have produces := producesOwned_of_define checked.definesOnce onPath
      (Function.mem_instructions listed) defines
    have otherPhi := checked.earlier_isPhi walk' found split isPhi other earlier'
    cases other with
    | phi => simp [producesOwned] at produces
    | _ => cases otherPhi
  · simp [Defines] at reads

theorem Function.NoReadAfterConsume.noOwnReadInLoop (checked : Checked module function reachable sets)
    (ownedSets : OwnedSets module function P owned)
    (safe : function.NoReadAfterConsume module) : function.NoOwnReadInLoop module := by
  intro path last back walk loop moved instruction member noPhi value reads result
  obtain ⟨produces, own⟩ := ownedResult_eq_some.1 result
  obtain ⟨back, loop, fresh⟩ := loop.first_return moved
  have once := checked.definesOnce
  obtain ⟨block, found⟩ := checked.block_of_path walk
  have within : instruction ∈ block.instructions := by
    simpa [Function.instructionsAt, found] using member
  obtain ⟨before, after, split⟩ := List.append_of_mem within
  have walk' := walk.trans loop
  -- the first round, up to the definition and from there back to the block
  have firstRound : pathTrace module function none (path ++ last :: back)
      = (pathTrace module function none path
          ++ (instructionsTrace module function path.getLast? before
            ++ ((instructionReads path.getLast? instruction).map .read
              ++ (consumed module function instruction (ownershipTypes function)).map .consume)))
        ++ .define value true :: (instructionsTrace module function path.getLast? after
          ++ (terminatorTrace module function block.terminator
            ++ pathTrace module function (some last) back)) := by
    rw [pathTrace_append, pathTrace, Option.or_none, blockTrace_split found split, instructionTrace]
    simp [own, produces]
  have replay := ownedSets.held_path once walk'
  rw [firstRound, held_append_eq_some] at replay
  obtain ⟨middle, -, afterDefinition⟩ := replay
  rw [held] at afterDefinition
  split at afterDefinition
  · cases afterDefinition
  have gone := ownedSets.not_owned_of_defines once walk' member own
  have consumes := consume_mem_of_held afterDefinition (by simp) gone
  have undefined : ¬ Defines value (instructionsTrace module function path.getLast? after
      ++ (terminatorTrace module function block.terminator
        ++ pathTrace module function (some last) back)) := by
    rw [defines_append, defines_append, defines_instructionsTrace, defines_pathTrace]
    rintro (⟨other, later, defines⟩ | atEnd | ⟨index, passed, other, there, defines⟩)
    · have nodup := once.block_nodup found
      rw [split, List.filterMap_append, List.filterMap_cons_some own, List.nodup_append, List.nodup_cons] at nodup
      exact nodup.2.1.1 (List.mem_filterMap.2 ⟨other, later, defines⟩)
    · exact not_defines_terminatorTrace atEnd
    · exact fresh (once.block_eq member own there defines ▸ passed)
  obtain ⟨left, right, consumption⟩ := List.append_of_mem consumes
  rw [consumption, defines_append, defines_cons, not_or, not_or] at undefined
  rw [← instructionReads_of_not_phi (path ++ last :: back).getLast? noPhi] at reads
  obtain ⟨values, rest, blockTrace_eq⟩ := blockTrace_of_read module found split reads
  rw [consumption] at firstRound
  rw [← List.cons_append, ← List.append_assoc] at firstRound
  have defined := safe.at_block walk' firstRound blockTrace_eq
  rw [defines_append, defines_append, defines_instructionsTrace] at defined
  rcases defined with onPath | ⟨other, earlier, defines⟩ | reads
  · exact undefined.2.2 onPath
  · exact once.not_mem_before found split own earlier defines
  · simp [Defines] at reads

/-! ### The condition -/

/-- In an accepted function a consumed value is never read, exactly when no phi takes a value that its
predecessor leaves consumed and no instruction on a loop reads the owned value it defines. -/
theorem noReadAfterConsume_iff (accepted : module.Accepted) (member : function ∈ module.functions) :
    function.NoReadAfterConsume module ↔ function.NoOwnReadInLoop module ∧ function.NoConsumedPhiOperand module := by
  obtain ⟨⟨reachable, sets, checked⟩, fuel, ownership⟩ := accepted.checked member
  obtain ⟨owned, ownedSets⟩ := checked.reachedSets ownership
  constructor
  · exact fun safe => ⟨safe.noOwnReadInLoop checked ownedSets, safe.noConsumedPhiOperand checked ownedSets⟩
  · rintro ⟨noOwnRead, noConsumedOperand⟩ path last walk
    refine everyRead_path ?_ ?_ walk
    · intro path last block earlier instruction later values value walk found split operand
        consumedBefore between trace
      cases phi : instruction.isPhi with
      | false =>
        rw [instructionReads_of_not_phi _ phi] at operand
        exact checked.instruction_unconsumed ownedSets noOwnRead walk found split phi operand trace
      | true => exact checked.phi_unconsumed noConsumedOperand walk found split phi operand trace
    · intro path last block values value walk found operand consumedBefore between trace
      exact checked.terminator_unconsumed ownedSets walk found operand trace

/-! ### A phi that reads a released buffer -/

/-- The second round of the loop takes `%3` from block 2, where it was released. -/
def releasedOperand : Function :=
  { name := "Work", kind := .user, owner := none, parameters := [], weakSymbols := ∅,
    returnType := .named "VOID", entry := 0,
    blocks := [
      ⟨0, [.constant 0 (.string "a") .string defaultModuleSpan,
          .constant 1 (.boolean true) .boolean defaultModuleSpan], .jump 1⟩,
      ⟨1, [.phi 2 [(0, 0), (2, 3)] .string defaultModuleSpan], .branch 1 2 3⟩,
      ⟨2, [.binary 3 "Plus" 0 0 .string defaultModuleSpan, .release 3 none defaultModuleSpan], .jump 1⟩,
      ⟨3, [], .return none⟩],
    span := defaultModuleSpan }

def releasedOperandModule : Module := { functions := [releasedOperand] }

/-- The validator accepts the function, and the path through block 2 back to block 1 reads `%3` after its
release. -/
theorem releasedOperand_reads_consumed :
    releasedOperandModule.Accepted ∧ releasedOperand ∈ releasedOperandModule.functions
      ∧ ¬ releasedOperand.NoReadAfterConsume releasedOperandModule := by
  refine ⟨⟨20, by decide⟩, by simp [releasedOperandModule], fun safe => ?_⟩
  have walk : releasedOperand.IsPath [0, 1, 2] 1 :=
    ((Walk.refl.step (v := 1) (by decide)).step (v := 2) (by decide)).step (by decide)
  have trace : pathTrace releasedOperandModule releasedOperand none [0, 1, 2]
      = [.define 0 false, .define 1 false, .read 0, .define 2 false, .read 1, .read 0, .read 0,
          .define 3 true, .read 3] ++ .consume 3 :: [] := by decide
  have reads : blockTrace releasedOperandModule releasedOperand (some 2) 1
      = [] ++ .read 3 :: [.define 2 false, .read 1] := by decide
  have defined := safe.at_block walk trace reads
  simp at defined

theorem noReadAfterConsume_iff_releasedOperand :
    releasedOperandModule.Accepted ∧ releasedOperand ∈ releasedOperandModule.functions
      ∧ (releasedOperand.NoReadAfterConsume releasedOperandModule ↔ releasedOperand.NoOwnReadInLoop releasedOperandModule
          ∧ releasedOperand.NoConsumedPhiOperand releasedOperandModule) :=
  have accepted : releasedOperandModule.Accepted := ⟨20, by decide⟩
  have member : releasedOperand ∈ releasedOperandModule.functions := by simp [releasedOperandModule]
  ⟨accepted, member, noReadAfterConsume_iff accepted member⟩

end BasicNext.Ir
