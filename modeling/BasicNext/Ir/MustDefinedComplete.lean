import BasicNext.Ir.MustDefinedRounds

/-!
# What the must-defined loop loses

When the loop has stopped, a value that every path to a block defines is in the incoming set of the block, unless
the entry defines it and the sweep of the early successors goes around a cycle: there the value is lost for good.
Where nothing is lost, the walk over the instructions refuses no function whose reads come after a definition on
every path: it passes exactly when it passes with every value defined everywhere.
-/

namespace BasicNext.Ir

open Lib

variable {function : Function} {reachable : Finset Nat} {allValues : Finset ValueId} {sets sets' result : MustDefined}
  {value : ValueId} {index count fuel : Nat} {module : Module}

/-! ### Definitions on every path -/

/-- Every path from the entry to the start of the block passes a definition of the value. -/
def Function.DefinedBefore (function : Function) (index : Nat) (value : ValueId) : Prop :=
  ∀ path, function.IsPath path index → ∃ passed ∈ path, function.DefinesAt passed value

/-- Along every path, each value read was defined before: in a block that the path passed, or for an instruction
other than a phi earlier in its block. A phi reads where control leaves the block it names. -/
def Function.ReadsPreceded (function : Function) : Prop :=
  ∀ path last, function.IsPath path last → ∀ block, function.blocks[last]? = some block →
    (∀ earlier instruction later, block.instructions = earlier ++ instruction :: later →
      ∀ value ∈ instructionReads path.getLast? instruction, (∃ passed ∈ path, function.DefinesAt passed value) ∨
        instruction.isPhi = false ∧ ∃ other ∈ earlier, instructionDefines other = some value) ∧
    ∀ value ∈ terminatorReads block.terminator, (∃ passed ∈ path, function.DefinesAt passed value) ∨
      ∃ other ∈ block.instructions, instructionDefines other = some value

/-! ### The walk with other sets -/

/-- The sets with every value of the function in every block. -/
def everywhere (allValues : Finset ValueId) : MustDefined := ⟨fun _ => allValues, fun _ => allValues⟩

/-- The context of the phis, with the given sets. -/
def MustDefined.context (sets : MustDefined) (function : Function) (reachable : Finset Nat) : PhiContext :=
  { function, reachable, outgoing := sets.outgoing, valueTypes := validatedTypes function }

/-- The walk over the blocks that ends `validateFunction`. -/
def MustDefined.walk (sets : MustDefined) (fuel : Nat) (module : Module) (function : Function) (reachable : Finset Nat) :
    Check Unit :=
  function.blocks.zipIdx.forM (validateBlockBody fuel module (sets.context function reachable) sets.incoming)

def MustDefined.FindsOperands (sets : MustDefined) (function : Function) (reachable : Finset Nat) (index : Nat)
    (defined : Finset ValueId) : Instruction → Prop
  | .phi _ incoming .. => ∀ predecessor value, (predecessor, value) ∈ incoming → predecessor ∈ reachable →
      predecessor ∈ function.predecessors index → value ∈ sets.outgoing predecessor
  | instruction => ∀ value ∈ instructionUses instruction, value ∈ defined ∨ instructionDefines instruction = some value

theorem MustDefined.FindsOperands.of_not_phi {defined : Finset ValueId} {instruction : Instruction}
    (noPhi : instruction.isPhi = false)
    (uses : ∀ value ∈ instructionUses instruction, value ∈ defined ∨ instructionDefines instruction = some value) :
    sets.FindsOperands function reachable index defined instruction := by
  cases instruction <;> first | exact uses | cases noPhi

/-- The walk finds the operands of a block. -/
structure MustDefined.FindsBlock (sets : MustDefined) (function : Function) (reachable : Finset Nat) (index : Nat)
    (block : BasicBlock) : Prop where
  operands : ∀ earlier instruction later, block.instructions = earlier ++ instruction :: later →
    sets.FindsOperands function reachable index (defineAll earlier (sets.incoming index)) instruction
  terminator : ∀ value ∈ terminatorReads block.terminator, value ∈ defineAll block.instructions (sets.incoming index)

theorem validateIncoming_subset {context : PhiContext} {span : Span} {incoming : List (BlockId × ValueId)}
    {seen actual : Finset Nat} (passes : validateIncoming context index span seen incoming = .ok actual) :
    seen ⊆ actual := by
  induction incoming generalizing seen with
  | nil =>
    obtain rfl : seen = actual := by simpa [validateIncoming] using passes
    exact subset_rfl
  | cons edge incoming ih =>
    simp only [validateIncoming, bind_eq_ok] at passes
    obtain ⟨-, -, rest⟩ := passes
    exact (Finset.subset_insert _ _).trans (ih rest)

theorem validateIncoming_transfer {span : Span} {incoming : List (BlockId × ValueId)} {seen actual : Finset Nat}
    (passes : validateIncoming (sets.context function reachable) index span seen incoming = .ok actual)
    (finds : ∀ predecessor ∈ actual, ∀ value, (predecessor, value) ∈ incoming → value ∈ sets'.outgoing predecessor) :
    validateIncoming (sets'.context function reachable) index span seen incoming = .ok actual := by
  induction incoming generalizing seen with
  | nil => exact passes
  | cons edge incoming ih =>
    obtain ⟨predecessor, value⟩ := edge
    simp only [validateIncoming, bind_eq_ok, rejectIf_eq_ok, Bool.or_eq_false_iff, decide_eq_false_iff_not] at passes ⊢
    obtain ⟨-, ⟨⟨⟨bound, known⟩, new⟩, -⟩, rest⟩ := passes
    have named : predecessor ∈ actual := validateIncoming_subset rest (Finset.mem_insert_self _ _)
    refine ⟨(), ⟨⟨⟨bound, known⟩, new⟩, ?_⟩, ?_⟩
    · have found := finds predecessor named value (by simp)
      simpa [MustDefined.context] using found
    · exact ih rest fun other member value listed => finds other member value (by simp [listed])

theorem validateInstruction_transfer {walk next : BlockWalk} {defined : Finset ValueId} {instruction : Instruction}
    (passes : validateInstruction fuel module (sets.context function reachable) index walk instruction = .ok next)
    (finds : sets'.FindsOperands function reachable index defined instruction) :
    validateInstruction fuel module (sets'.context function reachable) index ⟨defined, walk.sawNonPhi⟩ instruction =
      .ok ⟨defineAll [instruction] defined, next.sawNonPhi⟩ := by
  unfold validateInstruction at passes ⊢
  split at passes
  · next destination incoming ty span =>
    simp only [validatePhi, bind_eq_ok, rejectIf_eq_ok, pure_eq_ok] at passes ⊢
    obtain ⟨-, first, -, ⟨actual, edges, -, exact', types⟩, rfl⟩ := passes
    have expected : ∀ predecessor, predecessor ∈ actual ↔
        predecessor ∈ function.predecessors index ∧ predecessor ∈ reachable := by
      intro predecessor
      rw [not_not.1 (of_decide_eq_false exact'), List.mem_toFinset, List.mem_filter, decide_eq_true_iff]
      rfl
    refine ⟨(), first, (), ⟨actual, validateIncoming_transfer edges ?_, (), exact', types⟩, rfl⟩
    intro predecessor member value listed
    obtain ⟨edge, known⟩ := (expected predecessor).1 member
    exact finds predecessor value listed known edge
  · next other =>
    simp only [bind_eq_ok, rejectIf_eq_ok, pure_eq_ok] at passes ⊢
    obtain ⟨-, -, passed, types, rfl⟩ := passes
    refine ⟨(), ?_, passed, types, rfl⟩
    have uses : ∀ value ∈ instructionUses instruction, value ∈ defined ∨ instructionDefines instruction = some value := by
      unfold MustDefined.FindsOperands at finds
      split at finds
      · exact absurd rfl (other _ _ _ _)
      · exact finds
    rw [List.any_eq_false]
    intro value member
    have found := uses value member
    simp only [Bool.and_eq_true, decide_eq_true_eq, bne_iff_ne, ne_eq, not_and_or, not_not]
    exact found

theorem validateInstructions_transfer {instructions : List Instruction} {walk final : BlockWalk} {defined : Finset ValueId}
    (passes : instructions.foldlM (validateInstruction fuel module (sets.context function reachable) index) walk = .ok final)
    (finds : ∀ earlier instruction later, instructions = earlier ++ instruction :: later →
      sets'.FindsOperands function reachable index (defineAll earlier defined) instruction) :
    instructions.foldlM (validateInstruction fuel module (sets'.context function reachable) index)
      ⟨defined, walk.sawNonPhi⟩ = .ok ⟨defineAll instructions defined, final.sawNonPhi⟩ := by
  induction instructions generalizing walk defined with
  | nil =>
    obtain rfl : walk = final := by simpa [pure_eq_ok] using passes
    rfl
  | cons instruction instructions ih =>
    obtain ⟨next, first, rest⟩ := foldlM_cons_eq_ok.1 passes
    refine foldlM_cons_eq_ok.2 ⟨_, validateInstruction_transfer first (finds [] instruction instructions rfl), ?_⟩
    refine ih rest fun earlier other later split => ?_
    exact finds (instruction :: earlier) other later (by rw [split, List.cons_append])

theorem validateTerminator_transfer {defined defined' : Finset ValueId} {terminator : Terminator}
    (passes : validateTerminator module (sets.context function reachable) defined terminator = .ok ())
    (finds : ∀ value ∈ terminatorReads terminator, value ∈ defined') :
    validateTerminator module (sets'.context function reachable) defined' terminator = .ok () := by
  cases terminator with
  | jump target => rfl
  | branch condition thenBlock elseBlock =>
    simp only [validateTerminator, bind_eq_ok, rejectIf_eq_ok] at passes ⊢
    obtain ⟨-, -, boolean⟩ := passes
    exact ⟨(), by simpa [terminatorReads] using finds, boolean⟩
  | «return» returned =>
    simp only [validateTerminator, bind_eq_ok, rejectIf_eq_ok] at passes ⊢
    obtain ⟨-, -, type⟩ := passes
    refine ⟨(), ?_, type⟩
    cases returned with
    | none => rfl
    | some value => simpa [terminatorReads] using finds
  | stop code =>
    simp only [validateTerminator, bind_eq_ok, rejectIf_eq_ok] at passes ⊢
    obtain ⟨-, -, integer⟩ := passes
    exact ⟨(), by simpa [terminatorReads] using finds, integer⟩

theorem MustDefined.walk_transfer (passes : sets.walk fuel module function reachable = .ok ())
    (finds : ∀ index block, function.blocks[index]? = some block → index ∈ reachable →
      sets'.FindsBlock function reachable index block) :
    sets'.walk fuel module function reachable = .ok () := by
  unfold MustDefined.walk at passes ⊢
  rw [forM_eq_ok] at passes ⊢
  intro ⟨block, index⟩ listed
  have found : function.blocks[index]? = some block := List.mk_mem_zipIdx_iff_getElem?.1 listed
  have body := passes ⟨block, index⟩ listed
  simp only [validateBlockBody] at body ⊢
  by_cases member : index ∈ reachable
  · have block_finds := finds index block found member
    have known (sets : MustDefined) : index ∈ (sets.context function reachable).reachable := member
    simp only [known, not_true_eq_false, if_false, bind_eq_ok] at body ⊢
    obtain ⟨final, instructions, terminator⟩ := body
    exact ⟨_, validateInstructions_transfer instructions block_finds.operands,
      validateTerminator_transfer terminator block_finds.terminator⟩
  · simp [MustDefined.context, member]

/-! ### What is lost -/

theorem findsBlock_of_readsPreceded (structured : function.Structured reachable allValues)
    (reads : function.ReadsPreceded) (incoming : ∀ index ∈ reachable, ∀ value, function.DefinedBefore index value →
      value ∈ sets.incoming index)
    (outgoing : ∀ index ∈ reachable, ∀ value, value ∈ sets.incoming index ∨ function.DefinesAt index value →
      value ∈ sets.outgoing index) {block : BasicBlock} (found : function.blocks[index]? = some block)
    (member : index ∈ reachable) : sets.FindsBlock function reachable index block := by
  constructor
  · intro earlier instruction later split
    cases phi : instruction.isPhi with
    | false =>
      refine .of_not_phi phi fun value used => .inl (mem_defineAll.2 ?_)
      by_cases within : ∃ other ∈ earlier, instructionDefines other = some value
      · exact .inr within
      refine .inl (incoming index member value fun path walk => ?_)
      have read := (reads path index walk block found).1 earlier instruction later split value
      rw [instructionReads_of_not_phi _ phi] at read
      obtain passed | ⟨-, within'⟩ := read used
      · exact passed
      · exact absurd within' within
    | true =>
      cases instruction with
      | phi destination edges ty span =>
        intro predecessor value listed known edge
        rw [structured.mem_predecessors known] at edge
        refine outgoing predecessor known value ?_
        by_cases here : function.DefinesAt predecessor value
        · exact .inr here
        refine .inl (incoming predecessor known value fun path walk => ?_)
        have read := (reads (path ++ [predecessor]) index (walk.step edge) block found).1 earlier _ later split value
          (List.mem_filterMap.2 ⟨(predecessor, value), listed, by simp⟩)
        obtain ⟨passed, member, defines⟩ | ⟨none, -⟩ := read
        · obtain member | last := List.mem_append.1 member
          · exact ⟨passed, member, defines⟩
          · obtain rfl : passed = predecessor := by simpa using last
            exact absurd defines here
        · simp [phi] at none
      | _ => cases phi
  · intro value used
    refine mem_defineAll.2 ?_
    by_cases within : ∃ other ∈ block.instructions, instructionDefines other = some value
    · exact .inr within
    refine .inl (incoming index member value fun path walk => ?_)
    exact ((reads path index walk block found).2 value used).resolve_right within

section
variable (structured : function.Structured reachable allValues)
include structured

theorem LostAfter.path (free : ¬ function.DefinesAt function.entry value)
    (lost : LostAfter function reachable allValues count value index) :
    ∃ path, function.IsPath path index ∧ ∀ passed ∈ path ++ [index], ¬ function.DefinesAt passed value := by
  induction count generalizing index with
  | zero =>
    obtain ⟨member, rfl | unknown⟩ := lostAfter_zero.1 lost
    · exact ⟨[], .refl, by simpa using free⟩
    · obtain ⟨path, walk⟩ := structured.path member
      exact ⟨path, walk, fun passed _ defines => unknown (structured.definesAt_mem defines)⟩
  | succ count ih =>
    refine (lostAfter_sweep structured count value).induct (fun _ => ih) ?_ ?_ index lost
    · intro index ⟨_, free⟩ entry
      subst entry
      exact ⟨[], .refl, by simpa using free⟩
    · intro source target ⟨path, walk, nowhere⟩ edge ⟨_, free⟩
      refine ⟨path ++ [source], walk.step edge, fun passed member => ?_⟩
      obtain member | last := List.mem_append.1 member
      · exact nowhere passed member
      · obtain rfl : passed = target := by simpa using last
        exact free

theorem incoming_of_definedBefore {fuel : Nat}
    (loop : mustDefinedLoop function reachable fuel (initialSets function reachable allValues) = .ok result)
    (condition : (∀ value, ¬ function.DefinesAt function.entry value) ∨
      ∃ turns, ∀ index, ¬ Turns function.Inner function.Early turns index)
    (member : index ∈ reachable) (defined : function.DefinedBefore index value) : value ∈ result.incoming index := by
  obtain ⟨count, rfl, solves⟩ := (mustDefinedLoop_eq_ok structured).1 ⟨fuel, loop⟩
  rw [(solves index (structured.lt member) member).1, mem_nextIncoming structured member]
  constructor
  · intro entry
    obtain ⟨passed, none, -⟩ := defined [] (entry ▸ .refl)
    simp at none
  · intro source known edge
    by_contra missing
    have lost : LostAfter function reachable allValues count value source := ⟨known, missing⟩
    by_cases defines : function.DefinesAt function.entry value
    · obtain none | ⟨turns, none⟩ := condition
      · exact none value defines
      have later : LostAfter function reachable allValues (turns + count + 1) value source := by
        unfold LostAfter at lost ⊢
        rwa [setsAfter_of_le structured (by omega) solves]
      rw [lostAfter_entry structured defines] at later
      exact Turns.none none (Nat.le_add_right turns count) source later
    · obtain ⟨path, walk, none⟩ := lost.path structured defines
      obtain ⟨passed, member, defines⟩ := defined _ (walk.step edge)
      exact none passed member defines

/-- The stopped loop loses no value that every path defines, and the walk refuses no function for a value that every
path defines before it is read, exactly when the entry defines no value or its early successors reach no cycle around
it: some number of backward edges is one too many. -/
theorem mustDefined_complete_iff {fuel : Nat}
    (loop : mustDefinedLoop function reachable fuel (initialSets function reachable allValues) = .ok result) :
    ((∀ index ∈ reachable, ∀ value, function.DefinedBefore index value → value ∈ result.incoming index) ∧
        (function.ReadsPreceded → ∀ fuel module, result.walk fuel module function reachable = .ok () ↔
          (everywhere allValues).walk fuel module function reachable = .ok ())) ↔
      (∀ value, ¬ function.DefinesAt function.entry value) ∨
        ∃ turns, ∀ index, ¬ Turns function.Inner function.Early turns index := by
  obtain ⟨count, after, solves⟩ := (mustDefinedLoop_eq_ok structured).1 ⟨fuel, loop⟩
  have atEnd : ∀ index ∈ reachable, ∀ value, value ∈ result.incoming index ∨ function.DefinesAt index value →
      value ∈ result.outgoing index := by
    intro index member value known
    rw [(solves index (structured.lt member) member).2, mem_defineAll]
    exact known
  constructor
  · intro ⟨complete, _⟩
    by_cases none : ∀ value, ¬ function.DefinesAt function.entry value
    · exact .inl none
    push Not at none
    obtain ⟨value, defines⟩ := none
    refine .inr ⟨count, fun index turns => ?_⟩
    have lost := (lostAfter_entry structured defines count index).2 turns
    have away := (lostAfter_sweep structured count value index).1 lost
    unfold LostAfter at lost
    subst after
    rw [setsAfter_of_le structured (Nat.le_succ count) solves] at lost
    refine lost.2 (atEnd index lost.1 value (.inl (complete index lost.1 value fun path walk => ?_)))
    exact ⟨function.entry, walk.start_mem_of_ne fun entry => away.1.2 (entry ▸ defines), defines⟩
  · intro condition
    have complete : ∀ index ∈ reachable, ∀ value, function.DefinedBefore index value → value ∈ result.incoming index :=
      fun index member value => incoming_of_definedBefore structured loop condition member
    refine ⟨complete, fun reads fuel module => ⟨fun passes => ?_, fun passes => ?_⟩⟩
    · refine MustDefined.walk_transfer passes fun index block found member => ?_
      refine findsBlock_of_readsPreceded structured reads ?_ ?_ found member
      · intro index member value defined
        obtain ⟨path, walk⟩ := structured.path member
        obtain ⟨passed, -, defines⟩ := defined path walk
        exact structured.definesAt_mem defines
      · intro index member value known
        exact known.elim id fun defines => structured.definesAt_mem defines
    · refine MustDefined.walk_transfer passes fun index block found member => ?_
      exact findsBlock_of_readsPreceded structured reads complete atEnd found member

end

/-! ### A value lost around a cycle -/

/-- A cycle in front of the entry that jumps into it, and reads in the cycle what the entry defines. -/
def cycleBeforeEntry : Function :=
  { name := "Work", kind := .user, owner := none, parameters := [], weakSymbols := ∅,
    returnType := .named "VOID", entry := 2,
    blocks := [⟨0, [.copy 1 0 .boolean defaultModuleSpan], .jump 1⟩, ⟨1, [], .jump 0⟩,
      ⟨2, [.constant 0 (.boolean true) .boolean defaultModuleSpan], .jump 0⟩],
    span := defaultModuleSpan }

theorem cycleBeforeEntry_structured : cycleBeforeEntry.Structured {1, 0, 2} {0, 1} := ⟨by decide, ⟨8, rfl⟩, rfl⟩

theorem cycleBeforeEntry_stops : ∃ result,
    mustDefinedLoop cycleBeforeEntry {1, 0, 2} 4 (initialSets cycleBeforeEntry {1, 0, 2} {0, 1}) = .ok result ∧
      0 ∉ result.incoming 0 :=
  ⟨_, rfl, by decide⟩

theorem cycleBeforeEntry_passed {path : List Nat} (walk : cycleBeforeEntry.IsPath path index) (ne : index ≠ 2) :
    ∃ passed ∈ path, cycleBeforeEntry.DefinesAt passed 0 := by
  refine ⟨2, walk.start_mem_of_ne ne, .constant 0 (.boolean true) .boolean defaultModuleSpan, ?_, rfl⟩
  simp [cycleBeforeEntry, Function.instructionsAt]

/-- The loop stops without the value that every path defines. -/
theorem mustDefined_incomplete : ¬ ∀ (function : Function) (reachable : Finset Nat) (allValues : Finset ValueId)
    (fuel : Nat) (result : MustDefined), function.Structured reachable allValues →
      mustDefinedLoop function reachable fuel (initialSets function reachable allValues) = .ok result →
        (∀ index ∈ reachable, ∀ value, function.DefinedBefore index value → value ∈ result.incoming index) ∧
          (function.ReadsPreceded → ∀ fuel module, result.walk fuel module function reachable = .ok () ↔
            (everywhere allValues).walk fuel module function reachable = .ok ()) := by
  intro always
  obtain ⟨result, loop, missing⟩ := cycleBeforeEntry_stops
  obtain ⟨complete, -⟩ := always _ _ _ _ result cycleBeforeEntry_structured loop
  exact missing (complete 0 (by simp) 0 fun path walk => cycleBeforeEntry_passed walk (by omega))

theorem mustDefined_complete_cycleBeforeEntry : ∃ result,
    mustDefinedLoop cycleBeforeEntry {1, 0, 2} 4 (initialSets cycleBeforeEntry {1, 0, 2} {0, 1}) = .ok result ∧
      (((∀ index ∈ ({1, 0, 2} : Finset Nat), ∀ value, cycleBeforeEntry.DefinedBefore index value →
            value ∈ result.incoming index) ∧
          (cycleBeforeEntry.ReadsPreceded → ∀ fuel module, result.walk fuel module cycleBeforeEntry {1, 0, 2} = .ok () ↔
            (everywhere {0, 1}).walk fuel module cycleBeforeEntry {1, 0, 2} = .ok ())) ↔
        (∀ value, ¬ cycleBeforeEntry.DefinesAt cycleBeforeEntry.entry value) ∨
          ∃ turns, ∀ index, ¬ Turns cycleBeforeEntry.Inner cycleBeforeEntry.Early turns index) := by
  obtain ⟨result, loop, -⟩ := cycleBeforeEntry_stops
  exact ⟨result, loop, mustDefined_complete_iff cycleBeforeEntry_structured loop⟩

end BasicNext.Ir
