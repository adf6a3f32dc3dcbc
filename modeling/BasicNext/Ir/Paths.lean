import BasicNext.Ir.Validate
import BasicNext.Lib.Linear
import BasicNext.Lib.Walk

/-!
# Executions along the control-flow graph

A path of a function is a walk over its blocks from the entry. Along a path every instruction reads
its operands, then consumes some of them, then defines its result; a phi reads the operand labelled
with the block the path came from. Definite assignment and ownership are properties of these traces.
-/

namespace BasicNext.Ir

open Lib

/-! ### Paths -/

/-- The terminator of `source` names `target`. -/
def Function.Edge (function : Function) (source target : Nat) : Prop := target ∈ function.successors source

instance (function : Function) (source target : Nat) : Decidable (function.Edge source target) :=
  inferInstanceAs (Decidable (target ∈ function.successors source))

/-- A path from the entry block, through the blocks of `path`, that stands at the start of `last`. -/
abbrev Function.IsPath (function : Function) (path : List Nat) (last : Nat) : Prop :=
  Walk function.Edge function.entry path last

/-! ### Traces -/

/-- What an instruction reads when control came from the block `origin`. -/
def instructionReads (origin : Option Nat) : Instruction → List ValueId
  | .phi _ incoming .. =>
    incoming.filterMap fun (predecessor, value) =>
      if origin = some predecessor then some value else none
  | instruction => instructionUses instruction

section
variable (module : Module) (function : Function)

def instructionTrace (origin : Option Nat) (instruction : Instruction) : List (Access ValueId) :=
  (instructionReads origin instruction).map .read
    ++ (consumed module function instruction (ownershipTypes function)).map .consume
    ++ (instructionDefines instruction).toList.map fun value =>
        .define value (producesOwned module instruction (ownershipTypes function))

def terminatorReads : Terminator → List ValueId
  | .branch condition _ _ => [condition]
  | .return value => value.toList
  | .stop code => [code]
  | .jump _ => []

/-- `Return` gives its ARC value away. -/
def terminatorConsumes : Terminator → List ValueId
  | .return value => (returnedValue module (ownershipTypes function) value).toList
  | _ => []

def terminatorTrace (terminator : Terminator) : List (Access ValueId) :=
  (terminatorReads terminator).map .read
    ++ (terminatorConsumes module function terminator).map .consume

def instructionsTrace (origin : Option Nat) (instructions : List Instruction) :
    List (Access ValueId) :=
  instructions.flatMap (instructionTrace module function origin)

def blockTrace (origin : Option Nat) (index : Nat) : List (Access ValueId) :=
  match function.blocks[index]? with
  | some block =>
    instructionsTrace module function origin block.instructions
      ++ terminatorTrace module function block.terminator
  | none => []

/-- The trace of the blocks of `path`, one after the other. -/
def pathTrace (origin : Option Nat) : List Nat → List (Access ValueId)
  | [] => []
  | index :: path => blockTrace module function origin index ++ pathTrace (some index) path

end

/-! ### Facts about traces -/

section
variable {module : Module} {function : Function} {origin : Option Nat} {path : List Nat}
  {index : Nat} {value : ValueId} {instruction : Instruction}

theorem pathTrace_append {path' : List Nat} :
    pathTrace module function origin (path ++ path')
      = pathTrace module function origin path
        ++ pathTrace module function (path.getLast?.or origin) path' := by
  induction path generalizing origin with
  | nil => rfl
  | cons first path ih =>
    rw [List.cons_append, pathTrace, pathTrace, ih, List.append_assoc]
    cases path with
    | nil => rfl
    | cons second path =>
      rw [List.getLast?_cons_cons, List.getLast?_eq_some_getLast (List.cons_ne_nil second path)]
      rfl

theorem pathTrace_singleton :
    pathTrace module function origin [index] = blockTrace module function origin index := by
  simp [pathTrace]

theorem instructionReads_of_not_phi (origin : Option Nat) (h : instruction.isPhi = false) :
    instructionReads origin instruction = instructionUses instruction := by
  cases instruction <;> first | rfl | cases h

theorem mem_instructionTrace_consume :
    .consume value ∈ instructionTrace module function origin instruction
      ↔ value ∈ consumed module function instruction (ownershipTypes function) := by
  simp [instructionTrace]

theorem mem_instructionTrace_define {owned : Bool} :
    .define value owned ∈ instructionTrace module function origin instruction
      ↔ instructionDefines instruction = some value
        ∧ producesOwned module instruction (ownershipTypes function) = owned := by
  simp [instructionTrace]

theorem defines_instructionTrace :
    Defines value (instructionTrace module function origin instruction)
      ↔ instructionDefines instruction = some value := by
  simp [Defines, mem_instructionTrace_define]

theorem defines_after_consume {other : ValueId} {left right : List (Access ValueId)}
    (h : instructionTrace module function origin instruction = left ++ .consume other :: right)
    (defines : instructionDefines instruction = some value) : Defines value right := by
  unfold instructionTrace at h
  rcases append_eq_split h with ⟨rest, -, rfl⟩ | ⟨rest, -, results⟩
  · simp [defines, Defines]
  · have member : Access.consume other ∈ (instructionDefines instruction).toList.map fun value =>
        Access.define value (producesOwned module instruction (ownershipTypes function)) := by
      rw [results]
      simp
    simp at member

theorem not_defines_terminatorTrace {terminator : Terminator} :
    ¬ Defines value (terminatorTrace module function terminator) := by
  simp [terminatorTrace, Defines]

theorem defines_instructionsTrace {instructions : List Instruction} :
    Defines value (instructionsTrace module function origin instructions)
      ↔ ∃ instruction ∈ instructions, instructionDefines instruction = some value := by
  induction instructions with
  | nil => simp [instructionsTrace]
  | cons instruction instructions ih =>
    simpa [instructionsTrace, defines_instructionTrace] using or_congr_right ih

theorem define_mem_blockTrace {owned : Bool} :
    .define value owned ∈ blockTrace module function origin index
      ↔ ∃ instruction ∈ function.instructionsAt index, instructionDefines instruction = some value
          ∧ producesOwned module instruction (ownershipTypes function) = owned := by
  unfold blockTrace Function.instructionsAt
  cases function.blocks[index]? with
  | none => simp
  | some block => simp [instructionsTrace, mem_instructionTrace_define, terminatorTrace]

theorem defines_blockTrace :
    Defines value (blockTrace module function origin index)
      ↔ ∃ instruction ∈ function.instructionsAt index, instructionDefines instruction = some value := by
  simp only [Defines, define_mem_blockTrace]
  constructor
  · rintro ⟨_, instruction, member, defines, -⟩
    exact ⟨instruction, member, defines⟩
  · rintro ⟨instruction, member, defines⟩
    exact ⟨_, instruction, member, defines, rfl⟩

theorem blockTrace_read {block : BasicBlock} {before after : List (Access ValueId)}
    (found : function.blocks[index]? = some block)
    (h : blockTrace module function origin index = before ++ .read value :: after) :
    (∃ earlier instruction later values, block.instructions = earlier ++ instruction :: later
        ∧ value ∈ instructionReads origin instruction
        ∧ before = instructionsTrace module function origin earlier ++ List.map .read values)
      ∨ value ∈ terminatorReads block.terminator ∧ ∃ values,
          before = instructionsTrace module function origin block.instructions
            ++ List.map .read values := by
  unfold blockTrace at h
  rw [found] at h
  rcases append_eq_split h with ⟨rest, within, -⟩ | ⟨rest, rfl, atEnd⟩
  · obtain ⟨earlier, instruction, later, first, last, instructions, here, rfl, -⟩ :=
      flatMap_eq_split within
    unfold instructionTrace at here
    rw [List.append_assoc] at here
    obtain ⟨member, values, rfl⟩ := reads_append_eq_split (by simp) here
    exact .inl ⟨earlier, instruction, later, values, instructions, member, rfl⟩
  · obtain ⟨member, values, rfl⟩ := reads_append_eq_split (by simp) atEnd
    exact .inr ⟨member, values, rfl⟩

theorem blockTrace_split {block : BasicBlock} {earlier later : List Instruction}
    (found : function.blocks[index]? = some block)
    (instructions : block.instructions = earlier ++ instruction :: later) :
    blockTrace module function origin index
      = instructionsTrace module function origin earlier
        ++ (instructionTrace module function origin instruction
          ++ (instructionsTrace module function origin later
            ++ terminatorTrace module function block.terminator)) := by
  simp [blockTrace, instructionsTrace, found, instructions]

theorem blockTrace_of_read (module : Module) {block : BasicBlock} {earlier later : List Instruction}
    (found : function.blocks[index]? = some block)
    (instructions : block.instructions = earlier ++ instruction :: later)
    (reads : value ∈ instructionReads origin instruction) :
    ∃ values after, blockTrace module function origin index
      = instructionsTrace module function origin earlier ++ List.map .read values
        ++ .read value :: after := by
  obtain ⟨before, after, split⟩ := List.append_of_mem reads
  rw [blockTrace_split found instructions]
  simp only [instructionTrace, split, List.map_append, List.map_cons, List.append_assoc, List.cons_append]
  exact ⟨before, _, rfl⟩

theorem everyRead_path {R : List (Access ValueId) → ValueId → Prop} {last : Nat}
    (instruction : ∀ path last block earlier instruction later values value,
      function.IsPath path last → function.blocks[last]? = some block →
      block.instructions = earlier ++ instruction :: later →
      value ∈ instructionReads path.getLast? instruction →
      R (pathTrace module function none path
        ++ (instructionsTrace module function path.getLast? earlier ++ List.map .read values)) value)
    (terminator : ∀ path last block values value, function.IsPath path last → function.blocks[last]? = some block →
      value ∈ terminatorReads block.terminator →
      R (pathTrace module function none path
        ++ (instructionsTrace module function path.getLast? block.instructions
          ++ List.map .read values)) value)
    (walk : function.IsPath path last) :
    EveryRead R (pathTrace module function none (path ++ [last])) := by
  have atBlock : ∀ {path last}, function.IsPath path last → ∀ before value after,
      blockTrace module function path.getLast? last = before ++ .read value :: after →
        R (pathTrace module function none path ++ before) value := by
    intro path last walk before value after reads
    cases found : function.blocks[last]? with
    | none => simp [blockTrace, found] at reads
    | some block =>
      rcases blockTrace_read found reads with
        ⟨earlier, _, later, values, split, operand, rfl⟩ | ⟨operand, values, rfl⟩
      · exact instruction path last block earlier _ later values value walk found split operand
      · exact terminator path last block values value walk found operand
  induction walk with
  | refl =>
    rw [List.nil_append, pathTrace_singleton]
    exact atBlock .refl
  | step walk edge ih =>
    rw [pathTrace_append, pathTrace_singleton, Option.or_none]
    exact everyRead_append ih (atBlock (walk.step edge))

theorem define_mem_pathTrace {owned : Bool} :
    .define value owned ∈ pathTrace module function origin path
      ↔ ∃ index ∈ path, ∃ instruction ∈ function.instructionsAt index, instructionDefines instruction = some value
            ∧ producesOwned module instruction (ownershipTypes function) = owned := by
  induction path generalizing origin with
  | nil => simp [pathTrace]
  | cons index path ih => simp [pathTrace, define_mem_blockTrace, ih]

theorem defines_pathTrace :
    Defines value (pathTrace module function origin path)
      ↔ ∃ index ∈ path, ∃ instruction ∈ function.instructionsAt index, instructionDefines instruction = some value := by
  induction path generalizing origin with
  | nil => simp [pathTrace]
  | cons index path ih => simp [pathTrace, defines_blockTrace, ih]

theorem hasArcType_of_consume (h : .consume value ∈ pathTrace module function origin path) :
    hasArcType module (ownershipTypes function) value = true := by
  induction path generalizing origin with
  | nil => simp [pathTrace] at h
  | cons index path ih =>
    rcases List.mem_append.1 h with here | later
    · unfold blockTrace at here
      cases found : function.blocks[index]? with
      | none => simp [found] at here
      | some block =>
        rw [found] at here
        rcases List.mem_append.1 here with within | atEnd
        · obtain ⟨instruction, -, consumes⟩ := List.mem_flatMap.1 within
          exact (List.mem_filter.1 (mem_instructionTrace_consume.1 consumes)).2
        · cases terminator : block.terminator with
          | «return» returned =>
            simp only [terminator, terminatorTrace, terminatorConsumes, List.mem_append, List.mem_map,
              Option.mem_toList, reduceCtorEq, and_false, exists_false, false_or] at atEnd
            obtain ⟨other, given, same⟩ := atEnd
            obtain rfl : other = value := by simpa using same
            exact (Option.filter_eq_some_iff.1 given).2
          | _ => simp [terminator, terminatorTrace, terminatorConsumes] at atEnd
    · exact ih later

end

end BasicNext.Ir
