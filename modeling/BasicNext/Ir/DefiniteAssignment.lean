import BasicNext.Ir.Accepted

/-!
# Definite assignment

On every path of an accepted function each operand is defined before it is read, with one exception the
walk over the instructions makes: it lets an instruction name its own destination. An accepted function
is therefore sound exactly when no instruction on a path does.
-/

namespace BasicNext.Ir

open Lib

/-! ### The property and its condition -/

/-- Along every path from the entry, each value read was defined earlier on the path. -/
def Function.DefinitelyAssigned (module : Module) (function : Function) : Prop :=
  ∀ path last, function.IsPath path last → ReadsDefined (pathTrace module function none (path ++ [last]))

/-- No instruction other than a phi, in a block that some path reaches, reads its own destination. -/
def Function.NoOwnOperand (function : Function) : Prop :=
  ∀ path last, function.IsPath path last → ∀ instruction ∈ function.instructionsAt last,
    instruction.isPhi = false → ∀ value ∈ instructionUses instruction, instructionDefines instruction ≠ some value

/-! ### What the walk over a block checks -/

/-- The operands of a phi are defined at the end of their predecessors; the operands of any other
instruction are defined before it, or are its own destination. -/
def OperandsDefined (context : PhiContext) (defined : Finset ValueId) : Instruction → Prop
  | .phi _ incoming .. => ∀ predecessor value, (predecessor, value) ∈ incoming →
      predecessor ∈ context.reachable ∧ value ∈ context.outgoing predecessor
  | instruction => ∀ value ∈ instructionUses instruction, value ∈ defined ∨ instructionDefines instruction = some value

section
variable {fuel : Nat} {module : Module} {context : PhiContext} {index : Nat}
  {instruction : Instruction}

theorem OperandsDefined.of_not_phi {defined : Finset ValueId}
    (h : OperandsDefined context defined instruction) (noPhi : instruction.isPhi = false) :
    ∀ value ∈ instructionUses instruction, value ∈ defined ∨ instructionDefines instruction = some value := by
  cases instruction <;> first | exact h | cases noPhi

theorem OperandsDefined.of_phi {defined : Finset ValueId} {origin : Option Nat} {value : ValueId}
    (h : OperandsDefined context defined instruction) (isPhi : instruction.isPhi = true)
    (reads : value ∈ instructionReads origin instruction) :
    ∃ predecessor, origin = some predecessor ∧ value ∈ context.outgoing predecessor := by
  cases instruction with
  | phi destination incoming ty span =>
    obtain ⟨⟨predecessor, other⟩, member, found⟩ := List.mem_filterMap.1 reads
    obtain ⟨origin_eq, rfl⟩ : origin = some predecessor ∧ other = value := by
      simpa [Option.ite_none_right_eq_some] using found
    exact ⟨predecessor, origin_eq, (h predecessor other member).2⟩
  | _ => cases isPhi

theorem validateIncoming_defined {span : Span} {incoming : List (BlockId × ValueId)}
    {seen result : Finset Nat} (h : validateIncoming context index span seen incoming = .ok result) :
    ∀ predecessor value, (predecessor, value) ∈ incoming →
      predecessor ∈ context.reachable ∧ value ∈ context.outgoing predecessor := by
  induction incoming generalizing seen with
  | nil => simp
  | cons edge incoming ih =>
    obtain ⟨first, operand⟩ := edge
    simp only [validateIncoming, bind_eq_ok, rejectIf_eq_ok, Bool.or_eq_false_iff, decide_eq_false_iff_not, not_not] at h
    obtain ⟨-, ⟨⟨⟨-, known⟩, -⟩, defined⟩, rest⟩ := h
    intro predecessor value member
    rcases List.mem_cons.1 member with same | member
    · obtain ⟨rfl, rfl⟩ := Prod.mk.inj same
      exact ⟨known, defined⟩
    · exact ih rest predecessor value member

theorem validateInstruction_operands {walk next : BlockWalk}
    (h : validateInstruction fuel module context index walk instruction = .ok next) :
    OperandsDefined context walk.defined instruction
      ∧ next.defined = defineAll [instruction] walk.defined := by
  unfold validateInstruction at h
  split at h
  · next destination incoming ty span =>
    simp only [validatePhi, bind_eq_ok, rejectIf_eq_ok, pure_eq_ok] at h
    obtain ⟨-, -, -, ⟨actual, edges, -⟩, rfl⟩ := h
    exact ⟨validateIncoming_defined edges, rfl⟩
  · next other =>
    simp only [bind_eq_ok, rejectIf_eq_ok, pure_eq_ok] at h
    obtain ⟨-, operands, -, -, rfl⟩ := h
    refine ⟨?_, rfl⟩
    have reads : ∀ value ∈ instructionUses instruction,
        value ∈ walk.defined ∨ instructionDefines instruction = some value := by
      intro value member
      by_contra undefined
      rw [not_or] at undefined
      have passes := List.any_eq_false.1 operands value member
      simp [undefined.1, undefined.2] at passes
    unfold OperandsDefined
    split
    · exact absurd rfl (other _ _ _ _)
    · exact reads

theorem validateInstruction_order {walk next : BlockWalk}
    (h : validateInstruction fuel module context index walk instruction = .ok next) :
    (instruction.isPhi = true → walk.sawNonPhi = false)
      ∧ (next.sawNonPhi = false → walk.sawNonPhi = false ∧ instruction.isPhi = true) := by
  unfold validateInstruction at h
  split at h
  · simp only [bind_eq_ok, rejectIf_eq_ok, pure_eq_ok] at h
    obtain ⟨-, first, -, -, rfl⟩ := h
    exact ⟨fun _ => first, fun _ => ⟨first, rfl⟩⟩
  · next other =>
    simp only [bind_eq_ok, rejectIf_eq_ok, pure_eq_ok] at h
    obtain ⟨-, -, -, -, rfl⟩ := h
    refine ⟨fun isPhi => ?_, fun seen => by simp at seen⟩
    cases instruction with
    | phi destination incoming ty span => exact absurd rfl (other _ _ _ _)
    | _ => cases isPhi

variable {walk final : BlockWalk}

theorem validateInstructions_phis {earlier : List Instruction}
    (h : earlier.foldlM (validateInstruction fuel module context index) walk = .ok final)
    (onlyPhis : final.sawNonPhi = false) : ∀ other ∈ earlier, other.isPhi = true := by
  induction earlier using List.reverseRecOn generalizing final with
  | nil => simp
  | append_singleton earlier last ih =>
    obtain ⟨middle, first, rest⟩ := foldlM_append_eq_ok.1 h
    obtain ⟨next, here, done⟩ := foldlM_cons_eq_ok.1 rest
    obtain rfl : next = final := by simpa [pure_eq_ok] using done
    obtain ⟨before, isPhi⟩ := (validateInstruction_order here).2 onlyPhis
    intro other member
    rcases List.mem_append.1 member with member | member
    · exact ih first before other member
    · obtain rfl : other = last := by simpa using member
      exact isPhi

theorem validateInstructions_defined {instructions : List Instruction}
    (h : instructions.foldlM (validateInstruction fuel module context index) walk = .ok final) :
    final.defined = defineAll instructions walk.defined := by
  induction instructions generalizing walk with
  | nil =>
    obtain rfl : walk = final := by simpa [pure_eq_ok] using h
    rfl
  | cons instruction instructions ih =>
    obtain ⟨next, first, rest⟩ := foldlM_cons_eq_ok.1 h
    rw [ih rest, (validateInstruction_operands first).2]
    rfl

theorem validateInstructions_operands {instructions earlier later : List Instruction}
    (h : instructions.foldlM (validateInstruction fuel module context index) walk = .ok final)
    (split : instructions = earlier ++ instruction :: later) :
    OperandsDefined context (defineAll earlier walk.defined) instruction := by
  rw [split] at h
  obtain ⟨middle, first, rest⟩ := foldlM_append_eq_ok.1 h
  obtain ⟨next, here, -⟩ := foldlM_cons_eq_ok.1 rest
  rw [← validateInstructions_defined first]
  exact (validateInstruction_operands here).1

end

/-! ### Along a path -/

variable {function : Function}

theorem mem_predecessors {source target : Nat} (bound : source < function.blocks.length)
    (edge : function.Edge source target) : source ∈ function.predecessors target :=
  List.mem_flatMap.2 ⟨source, List.mem_range.2 bound, List.mem_filterMap.2 ⟨target, edge, by simp⟩⟩

namespace Checked

variable {module : Module} {function : Function} {reachable : Finset Nat} {sets : MustDefined}
  {path : List Nat} {last : Nat} {value : ValueId} (checked : Checked module function reachable sets)
include checked

theorem mem_of_path (walk : function.IsPath path last) :
    last ∈ reachable ∧ last < function.blocks.length := by
  refine walk.induct (P := fun index => index ∈ reachable ∧ index < function.blocks.length)
    ⟨checked.entry_mem, checked.entry_lt⟩ ?_
  intro source target known edge
  exact ⟨checked.closed source known.1 target edge, checked.edge_lt source target edge⟩

theorem block_of_path (walk : function.IsPath path last) :
    ∃ block, function.blocks[last]? = some block :=
  ⟨_, List.getElem?_eq_getElem (checked.mem_of_path walk).2⟩

theorem mem_outgoing (walk : function.IsPath path last) :
    value ∈ sets.outgoing last ↔ value ∈ sets.incoming last
      ∨ ∃ instruction ∈ function.instructionsAt last, instructionDefines instruction = some value := by
  obtain ⟨member, bound⟩ := checked.mem_of_path walk
  rw [(checked.solves last bound member).2, mem_defineAll]

theorem incoming_defined (walk : function.IsPath path last) (member : value ∈ sets.incoming last) :
    Defines value (pathTrace module function none path) := by
  induction walk generalizing value with
  | refl =>
    rw [(checked.solves _ checked.entry_lt checked.entry_mem).1, nextIncoming_entry] at member
    simp at member
  | step walk edge ih =>
    rename_i path source target
    obtain ⟨known, bound⟩ := checked.mem_of_path walk
    obtain ⟨known', bound'⟩ := checked.mem_of_path (walk.step edge)
    rw [(checked.solves target bound' known').1] at member
    have atEnd := nextIncoming_subset (mem_predecessors bound edge) known member
    rw [pathTrace_append, defines_append, pathTrace_singleton]
    rcases (checked.mem_outgoing walk).1 atEnd with atStart | within
    · exact .inl (ih atStart)
    · exact .inr (defines_blockTrace.2 within)

theorem operands (walk : function.IsPath path last) {block : BasicBlock} (found : function.blocks[last]? = some block) :
    let context : PhiContext := ⟨function, reachable, sets.outgoing, validatedTypes function⟩
    (∀ earlier instruction later, block.instructions = earlier ++ instruction :: later →
        OperandsDefined context (defineAll earlier (sets.incoming last)) instruction)
      ∧ validateTerminator module context (defineAll block.instructions (sets.incoming last))
          block.terminator = .ok () := by
  intro context
  obtain ⟨fuel, body⟩ := checked.body
  have passes := body last block found (checked.mem_of_path walk).1
  simp only [validateBlockBody, (checked.mem_of_path walk).1, not_true_eq_false, if_false, bind_eq_ok] at passes
  obtain ⟨final, instructions, terminator⟩ := passes
  refine ⟨fun earlier instruction later split => validateInstructions_operands instructions split, ?_⟩
  rw [← validateInstructions_defined instructions]
  exact terminator

theorem earlier_isPhi (walk : function.IsPath path last) {block : BasicBlock}
    {earlier later : List Instruction} {instruction : Instruction}
    (found : function.blocks[last]? = some block)
    (split : block.instructions = earlier ++ instruction :: later) (isPhi : instruction.isPhi = true) :
    ∀ other ∈ earlier, other.isPhi = true := by
  obtain ⟨fuel, body⟩ := checked.body
  have passes := body last block found (checked.mem_of_path walk).1
  simp only [validateBlockBody, (checked.mem_of_path walk).1, not_true_eq_false, if_false, bind_eq_ok, split] at passes
  obtain ⟨final, instructions, -⟩ := passes
  obtain ⟨middle, first, rest⟩ := foldlM_append_eq_ok.1 instructions
  obtain ⟨next, here, -⟩ := foldlM_cons_eq_ok.1 rest
  exact validateInstructions_phis first ((validateInstruction_order here).1 isPhi)

end Checked

variable {module : Module}

theorem validateTerminator_reads {context : PhiContext} {defined : Finset ValueId}
    {terminator : Terminator} (h : validateTerminator module context defined terminator = .ok ()) :
    ∀ value ∈ terminatorReads terminator, value ∈ defined := by
  cases terminator with
  | jump => simp [terminatorReads]
  | branch condition thenBlock elseBlock =>
    simp only [validateTerminator, bind_eq_ok, rejectIf_eq_ok] at h
    simpa [terminatorReads] using h.choose_spec.1
  | «return» value =>
    simp only [validateTerminator, bind_eq_ok, rejectIf_eq_ok] at h
    have defined := h.choose_spec.1
    cases value with
    | none => simp [terminatorReads]
    | some value => simpa [terminatorReads] using defined
  | stop code =>
    simp only [validateTerminator, bind_eq_ok, rejectIf_eq_ok] at h
    simpa [terminatorReads] using h.choose_spec.1

theorem Checked.readsDefined {reachable : Finset Nat} {sets : MustDefined} {path : List Nat} {last : Nat}
    (checked : Checked module function reachable sets) (condition : function.NoOwnOperand)
    (walk : function.IsPath path last) :
    ReadsDefined (pathTrace module function none (path ++ [last])) := by
  have earlierDefined : ∀ {path last earlier values value}, function.IsPath path last →
      value ∈ defineAll earlier (sets.incoming last) → Defines value (pathTrace module function none path
          ++ (instructionsTrace module function path.getLast? earlier ++ List.map .read values)) := by
    intro path last earlier values value walk defined
    rw [defines_append, defines_append, defines_instructionsTrace]
    rcases mem_defineAll.1 defined with atStart | within
    · exact .inl (checked.incoming_defined walk atStart)
    · exact .inr (.inl within)
  refine everyRead_path ?_ ?_ walk
  · intro path last block earlier instruction later values value walk found split operand
    have member : instruction ∈ function.instructionsAt last := by
      simp [Function.instructionsAt, found, split]
    have operands := (checked.operands walk found).1 earlier instruction later split
    cases phi : instruction.isPhi with
    | false =>
      rw [instructionReads_of_not_phi _ phi] at operand
      rcases operands.of_not_phi phi value operand with defined | own
      · exact earlierDefined walk defined
      · exact absurd own (condition path last walk instruction member phi value operand)
    | true =>
      obtain ⟨predecessor, origin, defined⟩ := operands.of_phi phi operand
      obtain ⟨path, rfl⟩ := List.getLast?_eq_some_iff.1 origin
      rw [defines_append, pathTrace_append, defines_append, pathTrace_singleton]
      rcases (checked.mem_outgoing walk.last_step.1).1 defined with atStart | within
      · exact .inl (.inl (checked.incoming_defined walk.last_step.1 atStart))
      · exact .inl (.inr (defines_blockTrace.2 within))
  · intro path last block values value walk found operand
    exact earlierDefined walk
      (validateTerminator_reads (checked.operands walk found).2 value operand)

theorem Function.DefinitelyAssigned.noOwnOperand
    (once : function.DefinesOnce) (assigned : function.DefinitelyAssigned module) :
    function.NoOwnOperand := by
  intro path last walk instruction member noPhi value reads own
  obtain ⟨path, walk, fresh⟩ := walk.first_visit
  obtain ⟨block, found⟩ : ∃ block, function.blocks[last]? = some block := by
    cases found : function.blocks[last]? with
    | none => simp [Function.instructionsAt, found] at member
    | some block => exact ⟨block, rfl⟩
  have within : instruction ∈ block.instructions := by
    simpa [Function.instructionsAt, found] using member
  obtain ⟨earlier, later, split⟩ := List.append_of_mem within
  rw [← instructionReads_of_not_phi path.getLast? noPhi] at reads
  obtain ⟨values, after, trace⟩ := blockTrace_of_read module found split reads
  have defined : Defines value (pathTrace module function none path
      ++ (instructionsTrace module function path.getLast? earlier ++ List.map .read values)) :=
    assigned path last walk _ value after (by simp [pathTrace_append, pathTrace_singleton, trace])
  rw [defines_append, defines_pathTrace, defines_append, defines_instructionsTrace] at defined
  rcases defined with ⟨index, passed, other, there, defines⟩ | ⟨other, before, defines⟩ | reads
  · exact fresh (once.block_eq member own there defines ▸ passed)
  · exact once.not_mem_before found split own before defines
  · simp [Defines] at reads

/-- An accepted function is definitely assigned exactly when no instruction on a path reads its own
destination. -/
theorem definitelyAssigned_iff {module : Module} {function : Function} (accepted : module.Accepted)
    (member : function ∈ module.functions) :
    function.DefinitelyAssigned module ↔ function.NoOwnOperand := by
  obtain ⟨⟨reachable, sets, checked⟩, -⟩ := accepted.checked member
  constructor
  · exact fun assigned => assigned.noOwnOperand checked.definesOnce
  · exact fun condition path last walk => checked.readsDefined condition walk

/-! ### A function that copies an undefined value -/

/-- `%0 = copy %0`, then a return. -/
def selfCopy : Function :=
  { name := "Work", kind := .user, owner := none, parameters := [], weakSymbols := ∅,
    returnType := .named "VOID", entry := 0,
    blocks := [⟨0, [.copy 0 0 .boolean defaultModuleSpan], .return none⟩],
    span := defaultModuleSpan }

def selfCopyModule : Module := { functions := [selfCopy] }

/-- The validator accepts the function, and its only path reads `%0` before anything defines it. -/
theorem selfCopy_not_definitelyAssigned :
    selfCopyModule.Accepted ∧ selfCopy ∈ selfCopyModule.functions
      ∧ ¬ selfCopy.DefinitelyAssigned selfCopyModule := by
  refine ⟨⟨10, by decide⟩, by simp [selfCopyModule], fun assigned => ?_⟩
  have defined := assigned [] 0 .refl [] 0 [.define 0 false] (by decide)
  simp at defined

theorem definitelyAssigned_iff_selfCopy :
    selfCopyModule.Accepted ∧ selfCopy ∈ selfCopyModule.functions
      ∧ (selfCopy.DefinitelyAssigned selfCopyModule ↔ selfCopy.NoOwnOperand) :=
  have accepted : selfCopyModule.Accepted := ⟨10, by decide⟩
  have member : selfCopy ∈ selfCopyModule.functions := by simp [selfCopyModule]
  ⟨accepted, member, definitelyAssigned_iff accepted member⟩

end BasicNext.Ir
