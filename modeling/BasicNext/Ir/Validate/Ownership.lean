import BasicNext.Ir.Check

/-!
# The ownership balance rule

A value of an ARC kind is owned when it carries one strong reference; every owned value is consumed
exactly once on every path, by a release, by an ARC write or by `RETURN`, and nothing reads it after
that. The rule is checked block by block: a state per block entry, breadth first from the entry block,
each block once.
-/

namespace BasicNext.Ir

/-- The type of each value that has one. -/
abbrev ValueTypes := ValueId → Option Ty

/-! ### ARC types -/

/-- A class (its `FieldInit`), an `INTERFACE`, or a `STRUCT` (its `Default`). -/
def isDeclared (module : Module) (name : String) : Bool :=
  module.interfaces.contains name
    || (module.functionOfKind .fieldInit name).isSome
    || (module.functionOfKind .default name).isSome

/-- The `BNLog` class whose values are counted handles. -/
def bnlogCountedClass : String := "Logger"

mutual

/-- Whether values of `ty` carry a strong reference. -/
def isArcType (module : Module) (ty : Ty) : Bool :=
  match ty with
  | .string | .pointer _ _ => true
  | .named name => name == "FS.File" || isDeclared module name
  | .importedNamed id name =>
    if (module.standardLibraryOf id).isSome then
      decide (id ∈ module.bnlogProviders) && name == bnlogCountedClass
    else isDeclared module ("#" ++ toString id ++ "." ++ name)
  | .vector element _ => isArcType module element
  | .alternative members => anyArcType module members
  | _ => false
termination_by structural ty

/-- `members.iter().any(|member| is_arc_type(module, member))` -/
def anyArcType (module : Module) (members : List Ty) : Bool :=
  match members with
  | [] => false
  | member :: members => isArcType module member || anyArcType module members
termination_by structural members

end

mutual

/-- A phi may carry a STRING buffer. A phi of a class, region, or struct may not. -/
def countsOnlyStringBuffers (module : Module) (ty : Ty) : Bool :=
  match ty with
  | .string => true
  | .vector element _ => countsOnlyStringBuffers module element
  | .alternative members => allCountOnlyStrings module members
  | _ => false
termination_by structural ty

def allCountOnlyStrings (module : Module) (members : List Ty) : Bool :=
  match members with
  | [] => true
  | member :: members =>
    (!isArcType module member || countsOnlyStringBuffers module member)
      && allCountOnlyStrings module members
termination_by structural members

end

/-! ### What one instruction consumes and produces -/

/-- Whether `value` is known to have an ARC type. -/
def hasArcType (module : Module) (valueTypes : ValueTypes) (value : ValueId) : Bool :=
  (valueTypes value).any (isArcType module)

/-- The values an instruction would consume, were they of an ARC type. A store into a weak binding or
a weak field consumes nothing. -/
def consumedCandidates (module : Module) (function : Function) : Instruction → List ValueId
  | .store symbol value .. => if symbol ∈ function.weakSymbols then [] else [value]
  | .setMember _ field _ _ value .. =>
    match field with
    | some field => if module.fieldIsWeak field then [] else [value]
    | none => [value]
  | .setField _ _ _ fields value .. =>
    match fields with
    | some fields => if fields.getLast?.any module.fieldIsWeak then [] else [value]
    | none => [value]
  | .vector _ values .. => values
  | .release value .. | .setIndex _ _ value .. | .setMemberIndex _ _ _ _ _ value ..
  | .setFieldIndex _ _ _ _ _ value .. | .setStaticIndex _ _ _ value ..
  | .storeStatic _ _ value .. => [value]
  | _ => []

/-- The values an instruction consumes: ARC values that it releases, stores, or puts in a vector. -/
def consumed (module : Module) (function : Function) (instruction : Instruction) (valueTypes : ValueTypes) : List ValueId :=
  (consumedCandidates module function instruction).filter (hasArcType module valueTypes)

/-- Whether `instruction` yields a STRING buffer of its own. -/
def yieldsNewString (instruction : Instruction) (source : Option Ty) : Bool :=
  match instruction with
  | .binary _ _ _ _ ty _ => ty == .string
  | .cast _ _ ty _ => ty == .string && source != some .string
  | _ => false

def producesOwned (module : Module) (instruction : Instruction) (valueTypes : ValueTypes) : Bool :=
  match instruction with
  | .allocate _ _ _ ty _ | .call _ _ _ ty _ | .dispatchSubmit _ _ _ _ _ ty _
  | .dispatchAwait _ _ _ _ ty _ | .vector _ _ ty _ | .default _ ty .. | .take _ _ ty _
  | .takeMember _ _ _ _ _ ty _ | .input _ _ ty _ => isArcType module ty
  | .index _ object _ ty _ =>
    isArcType module ty
      && (valueTypes object).any fun object => object == .hostArgs || object == .string
  | .retain .. => true
  | .binary .. => yieldsNewString instruction none
  | .cast _ value _ _ => yieldsNewString instruction (valueTypes value)
  | .store .. | .setIndex .. | .setMemberIndex .. | .setFieldIndex .. | .setStaticIndex ..
  | .setMember .. | .setField .. | .storeStatic .. => (instructionDefines instruction).isSome
  | _ => false

/-! ### The check of one block -/

/-- The owned values alive at a program point, and the values already consumed. -/
structure OwnershipState where
  owned : Finset ValueId := ∅
  consumed : Finset ValueId := ∅

/-- Moves the consumed values out of `owned`, one by one. -/
def consumeAll (span : Span) : List ValueId → OwnershipState → Check OwnershipState
  | [], state => .ok state
  | value :: rest, state => do
    rejectIf (value ∉ state.owned)
      "a consumed value must be owned and not yet consumed (retain a borrowed value first)" span
    consumeAll span rest ⟨state.owned.erase value, insert value state.consumed⟩

def ownedResult (module : Module) (valueTypes : ValueTypes) (instruction : Instruction) :
    Option ValueId :=
  if producesOwned module instruction valueTypes then instructionDefines instruction else none

def checkInstruction (module : Module) (function : Function) (valueTypes : ValueTypes)
    (state : OwnershipState) (instruction : Instruction) : Check OwnershipState := do
  let span := instruction.span
  rejectIf
    (match instruction with
      | .phi _ _ ty _ => isArcType module ty && !countsOnlyStringBuffers module ty
      | _ => false)
    "a phi of ARC values is not supported under explicit ownership" span
  rejectIf ((instructionUses instruction).any fun used => used ∈ state.consumed)
    "an owned value is used after it was consumed" span
  rejectIf
    (match instruction with
      | .retain _ value ty _ => (valueTypes value).any fun actual => actual != ty
      | _ => false)
    "retain type must match the retained value" span
  let state ← consumeAll span (consumed module function instruction valueTypes) state
  match ownedResult module valueTypes instruction with
  | some value => return { state with owned := insert value state.owned }
  | none => return state

/-- Applies one block's instructions to the ownership `state`. -/
def checkInstructions (module : Module) (function : Function) (instructions : List Instruction)
    (valueTypes : ValueTypes) (state : OwnershipState) : Check OwnershipState :=
  instructions.foldlM (checkInstruction module function valueTypes) state

/-- The ARC value that `Return { value }` gives away. -/
def returnedValue (module : Module) (valueTypes : ValueTypes) (value : Option ValueId) :
    Option ValueId :=
  value.filter (hasArcType module valueTypes)

def checkReturn (module : Module) (function : Function) (valueTypes : ValueTypes)
    (owned : Finset ValueId) (value : Option ValueId) : Check Unit :=
  match returnedValue module valueTypes value with
  | some value => do
    rejectIf (value ∉ owned)
      "a returned ARC value must be owned (retain a borrowed value first)" function.span
    rejectIf (owned.erase value ≠ ∅)
      "an owned value is never consumed on a path that returns" function.span
  | none =>
    rejectIf (owned ≠ ∅) "an owned value is never consumed on a path that returns" function.span

/-! ### The walk over the blocks -/

/-- The state of the walk: the entry state of every block met, the queue, and the blocks checked. -/
structure OwnershipWalk where
  entryState : Nat → Option OwnershipState
  pending : List Nat
  done : Finset Nat

/-- Every path into a block must carry the same owned values. A value consumed on any path stays
unreadable after the join. -/
def merge (function : Function) (state : OwnershipState) (walk : OwnershipWalk)
    (target : Option Nat) : Check OwnershipWalk := do
  let target ← orInvalid target "branch target is missing" function.span
  match walk.entryState target with
  | some existing => do
    rejectIf (existing.owned ≠ state.owned) "paths that join hold different owned values"
      function.span
    return { walk with
      entryState := Function.update walk.entryState target
        (some ⟨existing.owned, existing.consumed ∪ state.consumed⟩) }
  | none =>
    return { walk with
      entryState := Function.update walk.entryState target (some state)
      pending := walk.pending ++ [target] }

/-- `index_of`: the position of the block with this ID. -/
def Function.indexOf (function : Function) (id : BlockId) : Option Nat :=
  function.blocks.findIdx? fun block => block.id == id

def visitBlock (module : Module) (function : Function) (valueTypes : ValueTypes)
    (walk : OwnershipWalk) (index : Nat) : Check OwnershipWalk := do
  let block ← inBounds function.blocks[index]?
  let state ← inBounds (walk.entryState index)
  let after ← checkInstructions module function block.instructions valueTypes state
  match block.terminator with
  | .return value => do
    checkReturn module function valueTypes after.owned value
    return walk
  | .stop _ => return walk
  | .jump target => merge function after walk (function.indexOf target)
  | .branch _ thenBlock elseBlock => do
    let walk ← merge function after walk (function.indexOf thenBlock)
    merge function after walk (function.indexOf elseBlock)

/-- `while let Some(index) = pending.pop_front()` -/
def ownershipLoop (module : Module) (function : Function) (valueTypes : ValueTypes) :
    Nat → OwnershipWalk → Check OwnershipWalk
  | 0, _ => .error .outOfFuel
  | fuel + 1, walk =>
    match walk.pending with
    | [] => .ok walk
    | index :: pending =>
      if index ∈ walk.done then
        ownershipLoop module function valueTypes fuel { walk with pending }
      else do
        let walk ← visitBlock module function valueTypes
          { walk with pending, done := insert index walk.done } index
        ownershipLoop module function valueTypes fuel walk

def recordType (valueTypes : ValueTypes) (instruction : Instruction) : ValueTypes :=
  match instructionDefines instruction, instructionType instruction with
  | some value, some ty => Function.update valueTypes value (some ty)
  | _, _ => valueTypes

def Function.instructions (function : Function) : List Instruction :=
  function.blocks.flatMap BasicBlock.instructions

def ownershipTypes (function : Function) : ValueTypes :=
  function.instructions.foldl recordType fun _ => none

def validateOwnershipOf (fuel : Nat) (module : Module) (function : Function) : Check Unit := do
  let entry ← orInvalid (function.indexOf function.entry) "entry block is missing" function.span
  let _ ← ownershipLoop module function (ownershipTypes function) fuel
    { entryState := Function.update (fun _ => none) entry (some {}), pending := [entry], done := ∅ }
  return ()

/-- Checks every function of `module`. -/
def validateOwnership (fuel : Nat) (module : Module) : Check Unit := module.functions.forM (validateOwnershipOf fuel module)

end BasicNext.Ir
