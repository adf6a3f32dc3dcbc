import BasicNext.Lib.Emits

/-!
# Lowering of assignments

An assignment resolves its place once, evaluates the value, and stores into the place. Below a `STRUCT` value that no
instruction reaches, the value goes into a hidden local, and the local back into its own place.
-/

namespace BasicNext.Frontend.Lowering

open Lib

structure Span where
  start : Nat
  stop : Nat
deriving DecidableEq, Repr

/-- An expression, as far as it can be a place. What stands between brackets, and what is not a place, is lowered as a
whole and is known by its span. -/
inductive Expression where
  | name (span : Span) (name : String)
  | member (span : Span) (object : Expression) (name : String)
  | index (span : Span) (object : Expression) (index : Span)
  | hostCapability (span : Span) (name : String)
  | other (span : Span)
deriving DecidableEq, Repr

namespace Expression

def span : Expression → Span
  | .name span _ | .member span _ _ | .index span _ _ | .hostCapability span _ | .other span => span

def withSpan (span : Span) : Expression → Expression
  | .name _ binding => .name span binding
  | .member _ object field => .member span object field
  | .index _ object suffix => .index span object suffix
  | .hostCapability _ capability => .hostCapability span capability
  | .other _ => .other span

/-- What reading the expression evaluates, in order. -/
def reads : Expression → List Span
  | .name _ _ | .hostCapability _ _ => []
  | .member _ object _ => reads object
  | .index _ object suffix => reads object ++ [suffix]
  | .other span => [span]

end Expression

inductive Ty where
  | typeName (name : String)
  | importedTypeName (module : Nat) (name : String)
  | host (name : String)
  | module (id : Nat)
  | named (name : String)
  | importedNamed (module : Nat) (name : String)
  | other (text : String)
deriving DecidableEq, Repr

/-- The facts that the analysis hands over, by the spans of expressions. -/
structure Model where
  types : Span → Option Ty
  symbolIds : Span → Option Nat
  /-- The owner of a member target. -/
  memberTargets : Span → Option String
  /-- The owner under the name that the instructions use. -/
  resolvedOwners : Span → String
  symbols : Nat
  methods : List String
  modulePrefix : String
  /-- Whether values of the type are reference counted. -/
  isArc : Ty → Bool
  /-- Whether a lowered value is of such a type. -/
  isArcValue : Nat → Bool
  weakLocals : List Nat
  /-- Whether a member is declared weak. -/
  isWeakMember : Span → Bool

variable (model : Model)

def typeAt (span : Span) : Except String Ty :=
  match model.types span with
  | some ty => .ok ty
  | none => .error "type information is missing for IR lowering"

def expressionSymbol (span : Span) : Except String Nat :=
  match model.symbolIds span with
  | some symbol => .ok symbol
  | none => .error "expression has no resolved SymbolId"

def isNamespaceType : Ty → Bool
  | .typeName _ | .importedTypeName _ _ | .host _ | .module _ => true
  | _ => false

def qualifiedClassName (name : String) : String := if name.startsWith "#" then name else model.modulePrefix ++ name

def recordOwner : Ty → Option String
  | .named name => some (qualifiedClassName model name)
  | .importedNamed module name => some ("#" ++ toString module ++ "." ++ name)
  | _ => none

def structDefaultName (ty : Ty) : Option String :=
  let found (name : String) := if model.methods.contains name then some name else none
  match ty with
  | .named name => found (model.modulePrefix ++ name ++ ".$default")
  | .importedNamed module name => found ("#" ++ toString module ++ "." ++ name ++ ".$default")
  | _ => none

def isHostOrBuiltinOwner (name : String) : Bool :=
  name.startsWith "HOST." || name == "FS.File" || name.endsWith ".File" ||
    ["Error", "SYSTEM", "Float", "Date", "Time", "TimeZone", "Timestamp"].contains name

def isUserClassName (name : String) : Bool := !isHostOrBuiltinOwner name

def display : Ty → String
  | .typeName name | .named name | .host name | .other name => name
  | .importedTypeName module name | .importedNamed module name => "#" ++ toString module ++ "." ++ name
  | .module id => "MODULE " ++ toString id

def staticClassName : Ty → String
  | .typeName name => if isUserClassName name then model.modulePrefix ++ name else name
  | .importedTypeName module name => "#" ++ toString module ++ "." ++ name
  | ty => display ty

def staticClass (member : Span) (objectType : Ty) : String :=
  match model.memberTargets member with
  | some owner => if isUserClassName owner then model.modulePrefix ++ owner else owner
  | none => staticClassName model objectType

/-! ### Instructions -/

abbrev ValueId := Nat

/-- The instructions, without types and spans. An evaluation stands for all that one sub-expression is lowered to. -/
inductive Instruction where
  | evaluate (destination : ValueId) (span : Span)
  | load (destination : ValueId) (symbol : Nat)
  | read (destination : ValueId) (name : String)
  | member (destination object : ValueId) (name owner : String)
  | index (destination object index : ValueId)
  | loadStatic (destination : ValueId) (class' field : String)
  | ensureClass (class' : String)
  | binary (destination : ValueId) (operator : String) (left right : ValueId)
  | retain (destination value : ValueId)
  | release (value : ValueId)
  | store (previous : Option ValueId) (symbol : Nat) (value : ValueId)
  | setIndex (previous : Option ValueId) (symbol : Nat) (indices : List ValueId) (value : ValueId)
  | setMember (previous : Option ValueId) (object : ValueId) (name owner : String) (value : ValueId)
  | setMemberIndex (previous : Option ValueId) (object : ValueId) (name owner : String) (indices : List ValueId)
      (value : ValueId)
  | setField (previous : Option ValueId) (symbol : Nat) (rootOwner : String) (path : List String) (value : ValueId)
  | setFieldIndex (previous : Option ValueId) (symbol : Nat) (rootOwner : String) (path : List String)
      (indices : List ValueId) (value : ValueId)
  | storeStatic (previous : Option ValueId) (class' field : String) (value : ValueId)
  | setStaticIndex (previous : Option ValueId) (class' field : String) (indices : List ValueId) (value : ValueId)
deriving DecidableEq, Repr

/-- The sub-expression that an instruction evaluates. -/
def Instruction.evaluates : Instruction → Option Span
  | .evaluate _ span => some span
  | _ => none

structure Builder where
  nextValue : ValueId
  nextHiddenLocal : Nat
  /-- Reference counted values that the code owns and has not handed on. -/
  owned : List ValueId
  instructions : List Instruction
deriving DecidableEq, Repr

/-- The sub-expressions that the lowered code evaluates, in order. -/
def Builder.evaluated (b : Builder) : List Span := b.instructions.filterMap Instruction.evaluates

abbrev Lower := StateT Builder (Except String)

def value : Lower ValueId := modifyGet fun b => (b.nextValue, { b with nextValue := b.nextValue + 1 })

def emit (instruction : Instruction) : Lower Unit :=
  modify fun b => { b with instructions := b.instructions ++ [instruction] }

def ensureClass (class' : String) : Lower Unit := emit (.ensureClass class')

/-- An expression that is not a place. -/
def evaluate (span : Span) : Lower ValueId := do
  let destination ← value
  emit (.evaluate destination span)
  return destination

def load (symbol : Nat) : Lower ValueId := do
  let destination ← value
  emit (.load destination symbol)
  return destination

def readStatic (class' field : String) (member : Expression) : Lower ValueId := do
  ensureClass class'
  let destination ← value
  let _ ← liftM (typeAt model member.span)
  emit (.loadStatic destination class' field)
  return destination

def readMember (object : ValueId) (name : String) (member : Expression) : Lower ValueId := do
  let destination ← value
  let _ ← liftM (typeAt model member.span)
  emit (.member destination object name (model.resolvedOwners member.span))
  return destination

def readIndex (object index : ValueId) (node : Expression) : Lower ValueId := do
  let destination ← value
  let _ ← liftM (typeAt model node.span)
  emit (.index destination object index)
  return destination

/-- Reading an expression. The value of a name or a capability (a binding, a constant, the receiver) is one instruction.
What stands behind a namespace is read as a static field. -/
def expression : Expression → Lower ValueId
  | .name _ name | .hostCapability _ name => do
    let destination ← value
    emit (.read destination name)
    return destination
  | .member span object name => do
    let objectType ← liftM (typeAt model object.span)
    if isNamespaceType objectType then
      let class' := staticClass model span objectType
      ensureClass class'
      let _ ← expression object
      let destination ← value
      emit (.loadStatic destination class' name)
      return destination
    else
      let object ← expression object
      readMember model object name (.member span (.other span) name)
  | .index span object index => do
    let object ← expression object
    let index ← evaluate index
    readIndex model object index (.other span)
  | .other span => evaluate span

/-! ### Places -/

inductive AssignPlace where
  | binding (symbol : Nat) (indices : List ValueId)
  | member (object : ValueId) (name owner : String)
  | memberIndex (object : ValueId) (name owner : String) (indices : List ValueId)
  | fieldIndex (symbol : Nat) (rootOwner : String) (path : List String) (indices : List ValueId)
  | field (symbol : Nat) (rootOwner : String) (path : List String)
  | static (class' field : String)
  | staticIndex (class' field : String) (indices : List ValueId)
deriving DecidableEq, Repr

def suffixes : Expression → List Span × Expression
  | .index _ object index =>
    let (indices, core) := suffixes object
    (index :: indices, core)
  | core => ([], core)

def memberPath : Expression → List String × Expression
  | .member _ object name =>
    let (path, base) := memberPath object
    (path ++ [name], base)
  | base => ([], base)

def memberPlace (span : Span) (object : Expression) (name : String) (indices : List ValueId) : Lower AssignPlace := do
  if !indices.isEmpty then
    let object ← expression model object
    return .memberIndex object name (model.resolvedOwners span) indices
  else
    let objectType ← liftM (typeAt model object.span)
    if isNamespaceType objectType then
      return .static (staticClass model span objectType) name
    else
      let object ← expression model object
      return .member object name (model.resolvedOwners span)

/-- The indices are lowered from the outermost suffix inwards, and the receiver after them. -/
def assignmentPlace (target : Expression) : Lower AssignPlace := do
  let (outermost, current) := suffixes target
  let lowered ← outermost.mapM evaluate
  let indices := lowered.reverse
  match current with
  | .name span _ => do
    let symbol ← liftM (expressionSymbol model span)
    return .binding symbol indices
  | .member span object name => do
    let (path, base) := memberPath current
    match base with
    | .name baseSpan _ => do
      let objectType ← liftM (typeAt model baseSpan)
      if isNamespaceType objectType then
        let class' := staticClass model span objectType
        return if indices.isEmpty then .static class' name else .staticIndex class' name indices
      else
        let symbol ← liftM (expressionSymbol model baseSpan)
        match recordOwner model objectType with
        | none => throw "nested field path root is not a record type"
        | some rootOwner =>
          return if indices.isEmpty then .field symbol rootOwner path
            else .fieldIndex symbol rootOwner path indices
    | _ => memberPlace model span object name indices
  | _ => throw "assignment target is not a binding, index, or member"

inductive Place where
  /-- A place that one store reaches. -/
  | direct (place : AssignPlace) (target : Expression)
  /-- A field, and indices below it, of a `STRUCT` value held in a place. -/
  | through (parent : Place) (parentTarget : Expression) (owner : String) (member : Expression) (field : String)
      (indices : List (ValueId × Expression)) (target : Expression)

/-- The core of an expression under its index suffixes, and the suffixes, innermost first, with their expressions. -/
def peelIndices : Expression → Expression × List (Span × Expression)
  | .index span object index =>
    let (core, inner) := peelIndices object
    (core, inner ++ [(index, .index span object index)])
  | core => (core, [])

def fieldPathOfBinding : Expression → Except String Bool
  | .name span _ => do
    let ty ← typeAt model span
    return !isNamespaceType ty
  | .member _ object _ => fieldPathOfBinding object
  | _ => return false

/-- The owner of a `STRUCT` value that is not a field path of a binding. -/
def throughOwner (object : Expression) : Except String (Option String) := do
  let objectType ← typeAt model object.span
  match recordOwner model objectType with
  | none => return none
  | some owner =>
    if (structDefaultName model objectType).isNone then return none
    else
      let reached ← fieldPathOfBinding model object
      return if reached then none else some owner

/-- The place of `target`, whose suffixes are peeled down to the expression that the recursion stands at. -/
def resolveFrom (target : Expression) : Expression → List (Span × Expression) → Lower Place
  | .index span object index, indexNodes =>
    resolveFrom target object ((index, .index span object index) :: indexNodes)
  | .member span object name, indexNodes => do
    match ← liftM (throughOwner model object) with
    | some owner =>
      let parent ← resolveFrom object object []
      let indices ← indexNodes.mapM fun suffix => do
        let index ← evaluate suffix.1
        return (index, suffix.2)
      return .through parent object owner (.member span object name) name indices target
    | none => do
      let place ← assignmentPlace model target
      return .direct place target
  | _, _ => do
    let place ← assignmentPlace model target
    return .direct place target

def resolvePlace (target : Expression) : Lower Place := resolveFrom model target target []

/-! ### Reads of a place -/

/-- The member expressions along a path, from the base outwards. -/
def pathMembers : Expression → List Expression
  | .member span object name => pathMembers object ++ [.member span object name]
  | _ => []

def readFieldPath (symbol : Nat) (path : List String) (core : Expression) : Lower ValueId := do
  let _ ← liftM (typeAt model (memberPath core).2.span)
  let root ← load symbol
  (path.zip (pathMembers core)).foldlM (fun object part => readMember model object part.1 part.2) root

/-- What stands below the index suffixes of a place, and the indices. -/
def readRoot (place : AssignPlace) (core : Expression) : Lower (ValueId × List ValueId) :=
  match place with
  | .binding symbol indices => do
    let _ ← liftM (typeAt model core.span)
    let root ← load symbol
    return (root, indices)
  | .field symbol _ path => do
    let root ← readFieldPath model symbol path core
    return (root, [])
  | .fieldIndex symbol _ path indices => do
    let root ← readFieldPath model symbol path core
    return (root, indices)
  | .static class' field => do
    let root ← readStatic model class' field core
    return (root, [])
  | .staticIndex class' field indices => do
    let root ← readStatic model class' field core
    return (root, indices)
  | .member object name _ => do
    let root ← readMember model object name core
    return (root, [])
  | .memberIndex object name _ indices => do
    let root ← readMember model object name core
    return (root, indices)

def readDirect (place : AssignPlace) (target : Expression) : Lower ValueId := do
  let (core, indexNodes) := peelIndices target
  let (root, indices) ← readRoot model place core
  (indices.zip indexNodes).foldlM (fun object part => readIndex model object part.1 part.2.2) root

def readPlace : Place → Lower ValueId
  | .direct place target => readDirect model place target
  | .through parent _ _ member field indices _ => do
    let parent ← readPlace parent
    let root ← readMember model parent field member
    indices.foldlM (fun object part => readIndex model object part.1 part.2) root

/-- The read of a place in a compound assignment, with the types of `read`. -/
def readPlaceAs (place : Place) (read : Expression) : Lower ValueId :=
  match place with
  | .direct place _ => readDirect model place read
  | .through .. => readPlace model place

/-! ### Stores into a place -/

def writePlace (place : AssignPlace) (value : ValueId) (previous : Option ValueId) : Lower Unit :=
  match place with
  | .binding symbol indices =>
    if indices.isEmpty then emit (.store previous symbol value) else emit (.setIndex previous symbol indices value)
  | .member object name owner => emit (.setMember previous object name owner value)
  | .memberIndex object name owner indices => emit (.setMemberIndex previous object name owner indices value)
  | .field symbol rootOwner path => emit (.setField previous symbol rootOwner path value)
  | .fieldIndex symbol rootOwner path indices => emit (.setFieldIndex previous symbol rootOwner path indices value)
  | .static class' field => do
    ensureClass class'
    emit (.storeStatic previous class' field value)
  | .staticIndex class' field indices => do
    ensureClass class'
    emit (.setStaticIndex previous class' field indices value)

/-- A value that the code owns: a reference counted one is retained, unless it is owned already. -/
def ownedValue (v : ValueId) : Lower ValueId := do
  if !model.isArcValue v then return v
  else
    let found ← modifyGet fun b => (b.owned.contains v, { b with owned := b.owned.erase v })
    if found then return v
    else
      let retained ← value
      emit (.retain retained v)
      return retained

/-- The copy of a `STRUCT` value that goes into a hidden local. -/
def ownedCopy (ty : Ty) (v : ValueId) : Lower ValueId := if model.isArc ty then ownedValue model v else pure v

def isWeakTarget (place : AssignPlace) (target : Expression) : Bool :=
  (match place with
    | .binding symbol _ => model.weakLocals.contains symbol
    | _ => false) ||
  match target with
  | .member span _ _ => model.isWeakMember span
  | _ => false

/-- A store into a direct place. An owned value goes in, and the previous content comes out and is released. -/
def assignDirect (place : AssignPlace) (target : Expression) (v : ValueId) (ty : Ty) : Lower Unit := do
  if model.isArc ty && !isWeakTarget model place target then
    let v ← ownedValue model v
    let previous ← value
    writePlace place v (some previous)
    emit (.release previous)
  else writePlace place v none

/-- A fresh local that the program cannot name. -/
def hiddenLocal : Lower Nat := do
  let symbol ← modifyGet fun b => (b.nextHiddenLocal, { b with nextHiddenLocal := b.nextHiddenLocal - 1 })
  if symbol - 1 > model.symbols then return symbol else throw "assertion failed"

def assignPlace : Place → ValueId → Ty → Lower Unit
  | .direct place target, v, ty => assignDirect model place target v ty
  | .through parent parentTarget owner _ field indices target, v, ty => do
    let parentType ← liftM (typeAt model parentTarget.span)
    let hidden ← hiddenLocal model
    let current ← readPlace model parent
    let current ← ownedCopy model parentType current
    emit (.store none hidden current)
    let inner := if indices.isEmpty then AssignPlace.field hidden owner [field]
      else .fieldIndex hidden owner [field] (indices.map Prod.fst)
    assignDirect model inner target v ty
    let updated ← load hidden
    assignPlace parent updated parentType

/-! ### Assignments -/

/-- An assignment, or a compound one with its operator; `value` is the right operand. -/
structure Assignment where
  target : Expression
  operator : Option String
  value : Span
  /-- Sub-expressions have spans of their own. -/
  distinct : (target.reads ++ [value]).Nodup

/-- The target as it is read in a compound assignment: under the empty span behind it. -/
def Assignment.read (assignment : Assignment) : Expression :=
  assignment.target.withSpan ⟨assignment.target.span.stop, assignment.target.span.stop⟩

def compoundAssignment (assignment : Assignment) (operator : String) : Lower Unit := do
  let place ← resolvePlace model assignment.target
  let current ← readPlaceAs model place assignment.read
  let operand ← evaluate assignment.value
  let result ← value
  emit (.binary result operator current operand)
  let targetType ← liftM (typeAt model assignment.target.span)
  assignPlace model place result targetType

def lowerAssignment (assignment : Assignment) : Lower Unit :=
  match assignment.operator with
  | some operator => compoundAssignment model assignment operator
  | none => do
    let targetType ← liftM (typeAt model assignment.target.span)
    let place ← resolvePlace model assignment.target
    let result ← evaluate assignment.value
    assignPlace model place result targetType

/-! ### What is evaluated -/

/-- A part of the lowering whose code evaluates exactly these sub-expressions, in this order. -/
abbrev Evaluates {α : Type} (events : List Span) (part : Lower α) : Prop := Emits Builder.evaluated events part

variable {model} {α : Type}

theorem value_silent : Evaluates [] value := Emits.modifyGet fun b => (List.append_nil b.evaluated).symm

theorem emit_evaluates (instruction : Instruction) : Evaluates instruction.evaluates.toList (emit instruction) := by
  apply Emits.modify
  intro b
  simp only [Builder.evaluated, List.filterMap_append]
  cases instruction <;> rfl

theorem destination_evaluates {events : List Span} (instruction : ValueId → Instruction)
    (each : ∀ v, (instruction v).evaluates.toList = events) :
    Evaluates events (do let destination ← value; emit (instruction destination); return destination) := by
  refine value_silent.silent_bind fun v => ?_
  rw [← each v]
  exact (emit_evaluates (instruction v)).bind_silent fun _ => .pure v

theorem evaluate_evaluates (span : Span) : Evaluates [span] (evaluate span) := destination_evaluates _ fun _ => rfl

theorem load_silent (symbol : Nat) : Evaluates [] (load symbol) := destination_evaluates _ fun _ => rfl

theorem readStatic_silent (class' field : String) (member : Expression) :
    Evaluates [] (readStatic model class' field member) := by
  refine (emit_evaluates _).silent_bind fun _ => ?_
  refine value_silent.silent_bind fun v => ?_
  exact .lift_bind fun _ _ => (emit_evaluates _).silent_bind fun _ => .pure v

theorem readMember_silent (object : ValueId) (name : String) (member : Expression) :
    Evaluates [] (readMember model object name member) := by
  refine value_silent.silent_bind fun v => ?_
  exact .lift_bind fun _ _ => (emit_evaluates _).silent_bind fun _ => .pure v

theorem readIndex_silent (object index : ValueId) (node : Expression) :
    Evaluates [] (readIndex model object index node) := by
  refine value_silent.silent_bind fun v => ?_
  exact .lift_bind fun _ _ => (emit_evaluates _).silent_bind fun _ => .pure v

theorem expression_evaluates (e : Expression) : Evaluates e.reads (expression model e) := by
  induction e with
  | name span name => exact destination_evaluates _ fun _ => rfl
  | hostCapability span name => exact destination_evaluates _ fun _ => rfl
  | other span => exact evaluate_evaluates span
  | member span object name ih =>
    refine .lift_bind fun objectType _ => .ite (fun _ => ?_) fun _ => ?_
    · refine (emit_evaluates _).silent_bind fun _ => ?_
      exact ih.bind_silent fun _ => destination_evaluates _ fun _ => rfl
    · exact ih.bind_silent fun v => readMember_silent v name _
  | index span object index ih =>
    refine ih.bind fun v => ?_
    exact (evaluate_evaluates index).bind_silent fun i => readIndex_silent v i _

theorem readFieldPath_silent (symbol : Nat) (path : List String) (core : Expression) :
    Evaluates [] (readFieldPath model symbol path core) := by
  refine .lift_bind fun _ _ => (load_silent symbol).silent_bind fun root => ?_
  exact .foldlM (fun object (part : String × Expression) => readMember_silent object part.1 part.2) _ root

theorem readRoot_silent (place : AssignPlace) (core : Expression) : Evaluates [] (readRoot model place core) := by
  cases place with
  | binding symbol indices =>
    exact .lift_bind fun _ _ => (load_silent symbol).silent_bind fun root => .pure _
  | field symbol _ path => exact (readFieldPath_silent symbol path core).silent_bind fun root => .pure _
  | fieldIndex symbol _ path indices => exact (readFieldPath_silent symbol path core).silent_bind fun root => .pure _
  | static class' field => exact (readStatic_silent class' field core).silent_bind fun root => .pure _
  | staticIndex class' field indices => exact (readStatic_silent class' field core).silent_bind fun root => .pure _
  | member object name _ => exact (readMember_silent object name core).silent_bind fun root => .pure _
  | memberIndex object name _ indices => exact (readMember_silent object name core).silent_bind fun root => .pure _

theorem readDirect_silent (place : AssignPlace) (target : Expression) :
    Evaluates [] (readDirect model place target) := by
  refine (readRoot_silent place _).silent_bind fun root => ?_
  exact .foldlM (fun object (part : ValueId × Span × Expression) => readIndex_silent object part.1 part.2.2) _ root.1

theorem readPlace_silent (place : Place) : Evaluates [] (readPlace model place) := by
  induction place with
  | direct place target => exact readDirect_silent place target
  | through parent _ _ member field indices _ ih =>
    refine ih.silent_bind fun object => (readMember_silent object field member).silent_bind fun root => ?_
    exact .foldlM (fun object part => readIndex_silent object part.1 part.2) indices root

theorem readPlaceAs_silent (place : Place) (read : Expression) : Evaluates [] (readPlaceAs model place read) := by
  cases place with
  | direct place _ => exact readDirect_silent place read
  | through => exact readPlace_silent _

theorem writePlace_silent (place : AssignPlace) (v : ValueId) (previous : Option ValueId) :
    Evaluates [] (writePlace place v previous) := by
  cases place with
  | binding symbol indices => exact .ite (fun _ => emit_evaluates _) fun _ => emit_evaluates _
  | static class' field => exact (emit_evaluates _).silent_bind fun _ => emit_evaluates _
  | staticIndex class' field indices => exact (emit_evaluates _).silent_bind fun _ => emit_evaluates _
  | member | memberIndex | field | fieldIndex => exact emit_evaluates _

theorem ownedValue_silent (v : ValueId) : Evaluates [] (ownedValue model v) := by
  refine .ite (fun _ => .pure v) fun _ => ?_
  refine (Emits.modifyGet fun b => (List.append_nil b.evaluated).symm).silent_bind fun found => ?_
  refine .ite (fun _ => .pure v) fun _ => ?_
  exact destination_evaluates (.retain · v) fun _ => rfl

theorem ownedCopy_silent (ty : Ty) (v : ValueId) : Evaluates [] (ownedCopy model ty v) :=
  .ite (fun _ => ownedValue_silent v) fun _ => .pure v

theorem assignDirect_silent (place : AssignPlace) (target : Expression) (v : ValueId) (ty : Ty) :
    Evaluates [] (assignDirect model place target v ty) := by
  refine .ite (fun _ => ?_) fun _ => writePlace_silent place v none
  refine (ownedValue_silent v).silent_bind fun v => value_silent.silent_bind fun previous => ?_
  exact (writePlace_silent place v _).silent_bind fun _ => emit_evaluates _

theorem hiddenLocal_silent : Evaluates [] (hiddenLocal model) := by
  refine (Emits.modifyGet fun b => (List.append_nil b.evaluated).symm).silent_bind fun symbol => ?_
  exact .ite (fun _ => .pure symbol) fun _ => .throw _

theorem assignPlace_silent (place : Place) (v : ValueId) (ty : Ty) : Evaluates [] (assignPlace model place v ty) := by
  induction place generalizing v ty with
  | direct place target => exact assignDirect_silent place target v ty
  | through parent parentTarget owner _ field indices target ih =>
    refine .lift_bind fun parentType _ => hiddenLocal_silent.silent_bind fun hidden => ?_
    refine (readPlace_silent parent).silent_bind fun current => ?_
    refine (ownedCopy_silent parentType current).silent_bind fun current => (emit_evaluates _).silent_bind fun _ => ?_
    refine (assignDirect_silent _ target v ty).silent_bind fun _ => (load_silent hidden).silent_bind fun updated => ?_
    exact ih updated parentType

/-! ### The place of an assignment -/

theorem reads_memberPath {e : Expression} {span : Span} {name : String} (base : (memberPath e).2 = .name span name) :
    e.reads = [] := by
  induction e with
  | name => rfl
  | member _ object _ ih => exact ih base
  | index | hostCapability | other => cases base

variable (model)

/-- What the receiver of a direct place evaluates: a namespace with no suffix behind its member is not lowered. -/
def receiver (core : Expression) (indices : List Span) : List Span :=
  match core with
  | .member _ object _ =>
    if indices = [] ∧ (model.types object.span).any isNamespaceType then [] else object.reads
  | _ => []

variable {model}

theorem typeAt_eq_ok {span : Span} {ty : Ty} (known : typeAt model span = .ok ty) : model.types span = some ty := by
  unfold typeAt at known
  cases here : model.types span with
  | none =>
    rw [here] at known
    cases known
  | some found =>
    rw [here] at known
    rw [Except.ok.inj known]

theorem evaluateAll_evaluates (spans : List Span) : Evaluates spans (spans.mapM evaluate) := by
  have each := Emits.mapM evaluate_evaluates spans
  rwa [List.flatMap_singleton'] at each

theorem memberPlace_evaluates (span : Span) (object : Expression) (name : String) {indices : List ValueId}
    {suffixes : List Span} (empty : indices.isEmpty ↔ suffixes = []) :
    Evaluates (receiver model (.member span object name) suffixes) (memberPlace model span object name indices) := by
  refine .ite (fun some => ?_) fun none => .lift_bind fun objectType known => .ite (fun skipped => ?_) fun kept => ?_
  · have counted : suffixes ≠ [] := fun nothing => by
      rw [empty.2 nothing] at some
      cases some
    rw [receiver, if_neg fun both => counted both.1]
    exact (expression_evaluates object).bind_silent fun _ => .pure _
  · have nothing : suffixes = [] := empty.1 (by simpa using none)
    rw [receiver, if_pos ⟨nothing, by rw [typeAt_eq_ok known]; exact skipped⟩]
    exact .pure _
  · rw [receiver, if_neg fun both => kept (by simpa [typeAt_eq_ok known] using both.2)]
    exact (expression_evaluates object).bind_silent fun _ => .pure _

theorem assignmentPlace_evaluates (target : Expression) :
    Evaluates ((suffixes target).1 ++ receiver model (suffixes target).2 (suffixes target).1)
      (assignmentPlace model target) := by
  refine (evaluateAll_evaluates _).bind_yields (yields_mapM_length evaluate _) fun lowered counted => ?_
  generalize (suffixes target).1 = outermost at counted
  cases (suffixes target).2 with
  | name span name => exact .lift_bind fun symbol _ => .pure _
  | index | hostCapability | other => exact .throw _
  | member span object name =>
    have empty : lowered.reverse.isEmpty ↔ outermost = [] := by
      rw [List.isEmpty_iff, List.reverse_eq_nil_iff, ← List.length_eq_zero_iff, counted, List.length_eq_zero_iff]
    cases base : (memberPath object).2 with
    | name baseSpan binding =>
      have silent : receiver model (.member span object name) outermost = [] := by
        simp only [receiver, reads_memberPath base, ite_self]
      have base' : (memberPath (.member span object name)).2 = .name baseSpan binding := base
      rw [silent]
      simp only [base']
      refine .lift_bind fun objectType _ => .ite (fun _ => .pure _) fun _ => .lift_bind fun symbol _ => ?_
      cases recordOwner model objectType with
      | none => exact .throw _
      | some rootOwner => exact .pure _
    | member | index | hostCapability | other =>
      have base' : (memberPath (.member span object name)).2 = _ := base
      simp only [base']
      exact memberPlace_evaluates span object name empty

variable (model)

/-- What resolving a place evaluates; `indices` are the suffixes that the recursion has peeled. -/
def placeReads : Expression → List Span → List Span
  | .index _ object index, indices => placeReads object (index :: indices)
  | .member span object name, indices =>
    match throughOwner model object with
    | .ok (some _) => placeReads object [] ++ indices
    | _ => indices.reverse ++ receiver model (.member span object name) indices.reverse
  | core, indices => indices.reverse ++ receiver model core indices.reverse

variable {model}

theorem suffixes_evaluate (indexNodes : List (Span × Expression)) :
    Evaluates (indexNodes.map Prod.fst) (indexNodes.mapM fun suffix => do
      let index ← evaluate suffix.1
      return (index, suffix.2)) := by
  have each (suffix : Span × Expression) : Evaluates [suffix.1] (do
      let index ← evaluate suffix.1
      return (index, suffix.2)) := (evaluate_evaluates suffix.1).bind_silent fun index => .pure (index, suffix.2)
  have all := Emits.mapM each indexNodes
  rwa [← List.map_eq_flatMap] at all

theorem resolveFrom_evaluates (target current : Expression) (indexNodes : List (Span × Expression))
    (peeled : suffixes target = ((indexNodes.map Prod.fst).reverse ++ (suffixes current).1, (suffixes current).2)) :
    Evaluates (placeReads model current (indexNodes.map Prod.fst)) (resolveFrom model target current indexNodes) := by
  induction current generalizing target indexNodes with
  | index span object index ih =>
    refine ih target ((index, .index span object index) :: indexNodes) ?_
    rw [peeled]
    simp [suffixes]
  | member span object name ih =>
    refine .lift_bind fun owner known => ?_
    rw [placeReads, known]
    cases owner with
    | some owner =>
      refine (ih object [] (by simp)).bind fun parent => ?_
      exact (suffixes_evaluate indexNodes).bind_silent fun indices => .pure _
    | none =>
      have direct : Evaluates _ (assignmentPlace model target) := assignmentPlace_evaluates target
      rw [peeled] at direct
      simp only [suffixes, List.append_nil] at direct
      exact direct.bind_silent fun place => .pure _
  | name | hostCapability | other =>
    have direct : Evaluates _ (assignmentPlace model target) := assignmentPlace_evaluates target
    rw [peeled] at direct
    simp only [suffixes, List.append_nil] at direct
    exact direct.bind_silent fun place => .pure _

theorem resolvePlace_evaluates (target : Expression) :
    Evaluates (placeReads model target []) (resolvePlace model target) :=
  resolveFrom_evaluates target target [] (by simp)

theorem lowerAssignment_evaluates (assignment : Assignment) :
    Evaluates (placeReads model assignment.target [] ++ [assignment.value]) (lowerAssignment model assignment) := by
  unfold lowerAssignment
  cases assignment.operator with
  | some operator =>
    refine (resolvePlace_evaluates _).bind fun place => (readPlaceAs_silent place _).silent_bind fun current => ?_
    refine (evaluate_evaluates _).bind_silent fun operand => value_silent.silent_bind fun result => ?_
    refine (emit_evaluates _).silent_bind fun _ => .lift_bind fun targetType _ => ?_
    exact assignPlace_silent place result targetType
  | none =>
    refine .lift_bind fun targetType _ => (resolvePlace_evaluates _).bind fun place => ?_
    exact (evaluate_evaluates _).bind_silent fun result => assignPlace_silent place result targetType

variable (model)

/-- Where the place is evaluated from left to right: down the fields of `STRUCT` values that are reached through a place
there may be any suffixes. Above these there is no suffix, or one suffix and nothing else to evaluate. -/
def OrderedFrom : Expression → List Span → Prop
  | .index _ object index, indices => OrderedFrom object (index :: indices)
  | .member _ object _, indices =>
    match throughOwner model object with
    | .ok (some _) => OrderedFrom object []
    | _ =>
      if indices = [] then (model.types object.span).any isNamespaceType → object.reads = []
      else indices.length = 1 ∧ object.reads = []
  | .name _ _, indices | .hostCapability _ _, indices => indices.length ≤ 1
  | .other _, _ => False

def Ordered (target : Expression) : Prop := OrderedFrom model target []

variable {model}

theorem placeReads_eq_iff (current : Expression) {indices : List Span} (distinct : (current.reads ++ indices).Nodup) :
    placeReads model current indices = current.reads ++ indices ↔ OrderedFrom model current indices := by
  induction current generalizing indices with
  | index span object index ih =>
    have here : (object.reads ++ index :: indices).Nodup := by
      simpa only [Expression.reads, List.append_assoc, List.singleton_append] using distinct
    simpa only [placeReads, OrderedFrom, Expression.reads, List.append_assoc, List.singleton_append] using ih here
  | name span binding =>
    have backwards : indices.reverse ++ [] = [] ++ indices ↔ _ := reverse_append_eq_iff distinct
    simp only [placeReads, receiver, Expression.reads, OrderedFrom]
    rw [backwards, ← List.length_eq_zero_iff, and_iff_left rfl]
    omega
  | hostCapability span capability =>
    have backwards : indices.reverse ++ [] = [] ++ indices ↔ _ := reverse_append_eq_iff distinct
    simp only [placeReads, receiver, Expression.reads, OrderedFrom]
    rw [backwards, ← List.length_eq_zero_iff, and_iff_left rfl]
    omega
  | other span =>
    simp only [placeReads, receiver, Expression.reads, OrderedFrom, iff_false]
    intro same
    have counted := congrArg List.length same
    simp at counted
  | member span object name ih =>
    have direct : indices.reverse ++ receiver model (.member span object name) indices.reverse = object.reads ++ indices ↔
        if indices = [] then (model.types object.span).any isNamespaceType → object.reads = []
        else indices.length = 1 ∧ object.reads = [] := by
      by_cases bare : indices = []
      · subst bare
        by_cases skipped : (model.types object.span).any isNamespaceType
        · rw [receiver, if_pos ⟨List.reverse_nil, skipped⟩, if_pos rfl, List.reverse_nil, List.append_nil, List.append_nil]
          exact ⟨fun same _ => same.symm, fun silent => (silent skipped).symm⟩
        · rw [receiver, if_neg fun both => skipped both.2, if_pos rfl, List.append_nil]
          exact ⟨fun _ here => absurd here skipped, fun _ => rfl⟩
      · have backwards := reverse_append_eq_iff distinct
        rw [receiver, if_neg fun both => bare (List.reverse_eq_nil_iff.1 both.1), if_neg bare]
        exact backwards.trans (or_iff_right bare)
    rw [placeReads, OrderedFrom]
    cases throughOwner model object with
    | error e => exact direct
    | ok owner =>
      cases owner with
      | none => exact direct
      | some owner =>
        have inner : placeReads model object [] = object.reads ++ [] ↔ _ := ih (by
          rw [List.append_nil]
          exact (List.nodup_append.1 distinct).1)
        rw [List.append_nil] at inner
        exact (List.append_left_inj indices).trans inner

def exampleModel : Model where
  types := fun span => some (if span = ⟨0, 4⟩ then .named "Line" else .other "INTEGER")
  symbolIds := fun _ => some 0
  memberTargets := fun _ => none
  resolvedOwners := fun _ => ""
  symbols := 1
  methods := []
  modulePrefix := ""
  isArc := fun _ => false
  isArcValue := fun _ => false
  weakLocals := []
  isWeakMember := fun _ => false

def matrixAssignment : Assignment where
  target := .index ⟨0, 11⟩ (.index ⟨0, 6⟩ (.name ⟨0, 1⟩ "m") ⟨2, 5⟩) ⟨7, 10⟩
  operator := none
  value := ⟨14, 17⟩
  distinct := by decide

def fieldAssignment : Assignment where
  target := .index ⟨0, 11⟩ (.member ⟨0, 6⟩ (.name ⟨0, 4⟩ "line") "a") ⟨7, 10⟩
  operator := some "Plus"
  value := ⟨15, 18⟩
  distinct := by decide

def emptyBuilder : Builder := { nextValue := 0, nextHiddenLocal := 4294967294, owned := [], instructions := [] }

theorem lowerAssignment_matrix : (lowerAssignment exampleModel matrixAssignment).run emptyBuilder = .ok ((),
    { nextValue := 3, nextHiddenLocal := 4294967294, owned := [],
      instructions := [.evaluate 0 ⟨7, 10⟩, .evaluate 1 ⟨2, 5⟩, .evaluate 2 ⟨14, 17⟩, .setIndex none 0 [1, 0] 2] }) := rfl

theorem lowerAssignment_field : (lowerAssignment exampleModel fieldAssignment).run emptyBuilder = .ok ((),
    { nextValue := 6, nextHiddenLocal := 4294967294, owned := [],
      instructions := [.evaluate 0 ⟨7, 10⟩, .load 1 0, .member 2 1 "a" "", .index 3 2 0, .evaluate 4 ⟨15, 18⟩,
        .binary 5 "Plus" 3 4, .setFieldIndex none 0 "Line" ["a"] [0] 5] }) := by
  decide +kernel

end BasicNext.Frontend.Lowering
