import BasicNext.Ir.Validate.Types

/-!
# The language-level validator

`validate` enforces IR well-formedness: the module-wide rules, then for every function the block
structure, one definition per value, the must-defined sets of every block, and a walk over the
instructions of the blocks the entry reaches. Block positions are natural numbers; a vector indexed by
them is a function from positions.
-/

namespace BasicNext.Ir

/-! ### Blocks and edges -/

def blockSuccessors : Terminator → List BlockId
  | .jump target => [target]
  | .branch _ thenBlock elseBlock => [thenBlock, elseBlock]
  | .return _ | .stop _ => []

def validateSuccessorBounds (block : BasicBlock) (blockCount : Nat) (span : Span) : Check Unit :=
  rejectIf ((blockSuccessors block.terminator).any fun target => blockCount ≤ target)
    "terminator references a basic block that does not exist" span

def validateBlock (function : Function) (block : BasicBlock × Nat) : Check Unit := do
  let (block, index) := block
  rejectIf (block.id != index) "basic block IDs must be dense and ordered" function.span
  validateSuccessorBounds block function.blocks.length function.span

/-- The number of blocks fits a `u32`, the entry block exists, and the block IDs are the positions. -/
def validateBlocks (function : Function) : Check Unit := do
  rejectIf (2 ^ 32 ≤ function.blocks.length) "function has too many basic blocks" function.span
  rejectIf (function.blocks.length ≤ function.entry) "function entry block does not exist"
    function.span
  function.blocks.zipIdx.forM (validateBlock function)

/-- `successors[index]` -/
def Function.successors (function : Function) (index : Nat) : List Nat :=
  match function.blocks[index]? with
  | some block => blockSuccessors block.terminator
  | none => []

/-- `predecessors[target]`: one entry per edge, in the order the blocks push them. -/
def Function.predecessors (function : Function) (target : Nat) : List Nat :=
  (List.range function.blocks.length).flatMap fun index =>
    (function.successors index).filterMap fun successor =>
      if successor = target then some index else none

/-- `while let Some(index) = pending.pop()`; the top of the stack is the head of the list. -/
def reachableLoop (function : Function) : Nat → Finset Nat → List Nat → Check (Finset Nat)
  | _, reachable, [] => .ok reachable
  | 0, _, _ :: _ => .error .outOfFuel
  | fuel + 1, reachable, index :: pending =>
    if index ∈ reachable then reachableLoop function fuel reachable pending
    else
      reachableLoop function fuel (insert index reachable)
        ((function.successors index).reverse ++ pending)

def reachableBlocks (fuel : Nat) (function : Function) : Check (Finset Nat) :=
  reachableLoop function fuel ∅ [function.entry]

/-! ### One definition per value -/

def duplicateMessage (function : Function) (value : ValueId) : String :=
  "value %" ++ toString value ++ " is defined by more than one instruction in function "
    ++ function.name

def collectValue (function : Function) (allValues : Finset ValueId) (instruction : Instruction) :
    Check (Finset ValueId) :=
  match instructionDefines instruction with
  | none => .ok allValues
  | some destination => do
    rejectIf (destination ∈ allValues) (duplicateMessage function destination) instruction.span
    return insert destination allValues

def collectValues (function : Function) : Check (Finset ValueId) :=
  function.instructions.foldlM (collectValue function) ∅

/-- The type of a value: that of its instruction, `INT32` for `Length` and `SizeOf`. -/
def recordValueType (valueTypes : ValueTypes) (instruction : Instruction) : ValueTypes :=
  match instructionDefines instruction with
  | none => valueTypes
  | some destination =>
    match instructionType instruction with
    | some ty => Function.update valueTypes destination (some ty)
    | none =>
      match instruction with
      | .length .. | .sizeOf .. =>
        Function.update valueTypes destination (some (.integer .int32))
      | _ => valueTypes

def validatedTypes (function : Function) : ValueTypes :=
  function.instructions.foldl recordValueType fun _ => none

/-! ### The must-defined sets -/

/-- The sets of values defined on every path to the start and to the end of each block. -/
structure MustDefined where
  incoming : Nat → Finset ValueId
  outgoing : Nat → Finset ValueId

def initialSets (function : Function) (reachable : Finset Nat) (allValues : Finset ValueId) :
    MustDefined :=
  let sets := fun index =>
    if index ∈ reachable ∧ index ≠ function.entry then allValues else ∅
  ⟨sets, sets⟩

def nextIncoming (function : Function) (reachable : Finset Nat) (sets : MustDefined) (index : Nat) :
    Finset ValueId :=
  if index = function.entry then ∅
  else
    match (function.predecessors index).filter (· ∈ reachable) with
    | [] => ∅
    | first :: rest =>
      rest.foldl (fun intersection predecessor => intersection ∩ sets.outgoing predecessor)
        (sets.outgoing first)

/-- `defined` and the values the instructions define. -/
def defineAll (instructions : List Instruction) (defined : Finset ValueId) : Finset ValueId :=
  instructions.foldl
    (fun defined instruction =>
      match instructionDefines instruction with
      | some destination => insert destination defined
      | none => defined)
    defined

def Function.instructionsAt (function : Function) (index : Nat) : List Instruction :=
  match function.blocks[index]? with
  | some block => block.instructions
  | none => []

/-- One block of a round: its new sets, and whether either changed. -/
def updateBlock (function : Function) (reachable : Finset Nat) (state : MustDefined × Bool)
    (index : Nat) : MustDefined × Bool :=
  let (sets, changed) := state
  if index ∉ reachable then (sets, changed)
  else
    let incoming := nextIncoming function reachable sets index
    let outgoing := defineAll (function.instructionsAt index) incoming
    (⟨Function.update sets.incoming index incoming, Function.update sets.outgoing index outgoing⟩,
      changed || incoming != sets.incoming index || outgoing != sets.outgoing index)

def round (function : Function) (reachable : Finset Nat) (sets : MustDefined) : MustDefined × Bool :=
  (List.range function.blocks.length).foldl (updateBlock function reachable) (sets, false)

/-- `loop { … if !changed { break; } }` -/
def mustDefinedLoop (function : Function) (reachable : Finset Nat) :
    Nat → MustDefined → Check MustDefined
  | 0, _ => .error .outOfFuel
  | fuel + 1, sets =>
    let (next, changed) := round function reachable sets
    if changed then mustDefinedLoop function reachable fuel next else .ok next

/-! ### The walk over the instructions -/

structure PhiContext where
  function : Function
  reachable : Finset Nat
  outgoing : Nat → Finset ValueId
  valueTypes : ValueTypes

def phiMessage (block predecessor : Nat) (value : ValueId) : String :=
  "Phi in block " ++ toString block ++ " has invalid incoming predecessor " ++ toString predecessor
    ++ " and value %" ++ toString value

/-- The incoming edges of a phi, with the predecessors already met in `actual`. -/
def validateIncoming (context : PhiContext) (block : Nat) (span : Span) :
    Finset Nat → List (BlockId × ValueId) → Check (Finset Nat)
  | actual, [] => .ok actual
  | actual, (predecessor, value) :: rest => do
    rejectIf (context.function.blocks.length ≤ predecessor || predecessor ∉ context.reachable
        || predecessor ∈ actual || value ∉ context.outgoing predecessor)
      (phiMessage block predecessor value) span
    validateIncoming context block span (insert predecessor actual) rest

def validatePhi (context : PhiContext) (block : Nat) (incoming : List (BlockId × ValueId)) (ty : Ty)
    (phiSpan span : Span) : Check Unit := do
  let expected := ((context.function.predecessors block).filter (· ∈ context.reachable)).toFinset
  let actual ← validateIncoming context block span ∅ incoming
  rejectIf (actual ≠ expected) "Phi incoming edges must match the block predecessors exactly" span
  rejectIf (incoming.any fun (_, value) =>
      !typedAs context.valueTypes (fun incomingType => typesCompatible incomingType ty) value)
    "Phi incoming values must match the Phi result type" phiSpan

/-- The values defined so far in a block, and whether a non-phi instruction was met. -/
structure BlockWalk where
  defined : Finset ValueId
  sawNonPhi : Bool

def BlockWalk.define (walk : BlockWalk) (instruction : Instruction) : Finset ValueId :=
  match instructionDefines instruction with
  | some destination => insert destination walk.defined
  | none => walk.defined

/-- The rules of one instruction at its place in a block. -/
def validateInstruction (fuel : Nat) (module : Module) (context : PhiContext) (index : Nat)
    (walk : BlockWalk) (instruction : Instruction) : Check BlockWalk :=
  match instruction with
  | .phi _ incoming ty span => do
    rejectIf walk.sawNonPhi "Phi instructions must precede other instructions in a block" span
    validatePhi context index incoming ty span context.function.span
    return { walk with defined := walk.define instruction }
  | _ => do
    -- An instruction may name its own destination, defined or not.
    rejectIf ((instructionUses instruction).any fun used =>
        used ∉ walk.defined && instructionDefines instruction != some used)
      "instruction uses a value that is not defined on every executable path" context.function.span
    validateInstructionTypes fuel module instruction context.valueTypes
    return { defined := walk.define instruction, sawNonPhi := true }

def validateTerminator (module : Module) (context : PhiContext) (defined : Finset ValueId) :
    Terminator → Check Unit
  | .branch condition _ _ => do
    rejectIf (condition ∉ defined) "branch condition is not defined" context.function.span
    rejectIf (!isBoolean (context.valueTypes condition)) "branch condition must have BOOLEAN type"
      context.function.span
  | .return value => do
    rejectIf (value.any fun value => value ∉ defined) "terminator value is not defined"
      context.function.span
    validateReturnType module context.function value context.valueTypes
  | .stop code => do
    rejectIf (code ∉ defined) "terminator value is not defined" context.function.span
    rejectIf (!isInteger (context.valueTypes code)) "stop code must have an integer type"
      context.function.span
  | .jump _ => .ok ()

def validateBlockBody (fuel : Nat) (module : Module) (context : PhiContext)
    (incoming : Nat → Finset ValueId) (block : BasicBlock × Nat) : Check Unit :=
  let (block, index) := block
  if index ∉ context.reachable then .ok ()
  else do
    let walk ← block.instructions.foldlM (validateInstruction fuel module context index)
      { defined := incoming index, sawNonPhi := false }
    validateTerminator module context walk.defined block.terminator

/-! ### The validator -/

def validateFunction (fuel : Nat) (module : Module) (function : Function) : Check Unit := do
  validateBlocks function
  let reachable ← reachableBlocks fuel function
  let allValues ← collectValues function
  let sets ← mustDefinedLoop function reachable fuel (initialSets function reachable allValues)
  let context : PhiContext := { function, reachable, outgoing := sets.outgoing, valueTypes := validatedTypes function }
  function.blocks.zipIdx.forM (validateBlockBody fuel module context sets.incoming)

/-- Enforces language-level IR well-formedness. -/
def validate (fuel : Nat) (module : Module) : Check Unit := do
  validateClassBases fuel module
  validateOwnership fuel module
  validateFieldLayouts fuel module
  validateFunctionKinds module
  module.functions.forM (validateFunction fuel module)

/-- The validator accepts the module: its loops end and no rule is broken. -/
def Module.Accepted (module : Module) : Prop := ∃ fuel, validate fuel module = .ok ()

end BasicNext.Ir
