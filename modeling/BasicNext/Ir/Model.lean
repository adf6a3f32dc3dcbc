import BasicNext.Types.ClassModel
import BasicNext.Types.Ty

/-!
# The BN IR

Modules, functions, basic blocks, instructions and terminators as the IR crate declares them.
Identifiers are the source's `u32` newtypes, read as natural numbers: nothing the validator does
computes a new one, so no wrap-around is lost. The parts of `Module` that no validation rule reads
(the source name and the import spans) are not carried.
-/

namespace BasicNext.Ir

abbrev BlockId := Nat
abbrev ValueId := Nat
abbrev SymbolId := Nat
abbrev FieldId := Nat
abbrev FieldSlot := Nat

structure Position where
  sourceId : Nat
  revision : Nat
  offset : Nat
  line : Nat
  column : Nat
deriving DecidableEq, Repr

/-- A source range, from its first position to its last. -/
structure Span where
  start : Position
  stop : Position
deriving DecidableEq, Repr

structure FieldRef where
  owner : String
  id : FieldId
  slot : FieldSlot
deriving DecidableEq, Repr

/-- One field in an ordered record/class layout. -/
structure FieldLayoutEntry where
  id : FieldId
  slot : FieldSlot
  ty : Ty
  declaringOwner : String
  weak : Bool
  span : Span

/-- Complete, base-first positional layout for one record/class owner. -/
structure FieldLayout where
  owner : String
  fields : List FieldLayoutEntry
  span : Span

inductive FunctionKind where
  | user | entry | constructor | destructor | fieldInit | init | default | releaseFields
deriving DecidableEq, Repr

inductive Constant where
  | integer (text : String)
  | float (text : String)
  | string (text : String)
  | boolean (value : Bool)
  | null
  | notAvailable
  | endOfFile
  | function (name : String)
  | type (name : String)
  | hostConsole
  | hostArgs
deriving DecidableEq, Repr

inductive Instruction where
  | constant (destination : ValueId) (value : Constant) (ty : Ty) (span : Span)
  | default (destination : ValueId) (ty : Ty) (dimensions : List Nat)
      (dynamicDimensions : List ValueId) (span : Span)
  | phi (destination : ValueId) (incoming : List (BlockId × ValueId)) (ty : Ty) (span : Span)
  | load (destination : ValueId) (symbol : SymbolId) (ty : Ty) (span : Span)
  | retain (destination : ValueId) (value : ValueId) (ty : Ty) (span : Span)
  | take (destination : ValueId) (symbol : SymbolId) (ty : Ty) (span : Span)
  | takeMember (destination : ValueId) (object : ValueId) (field : Option FieldRef) (name : String)
      (owner : String) (ty : Ty) (span : Span)
  | endBinding (symbol : SymbolId) (span : Span)
  | store (symbol : SymbolId) (value : ValueId) (previous : Option ValueId) (ty : Ty) (span : Span)
  | copy (destination : ValueId) (source : ValueId) (ty : Ty) (span : Span)
  | unary (destination : ValueId) (operator : String) (operand : ValueId) (ty : Ty) (span : Span)
  | binary (destination : ValueId) (operator : String) (left right : ValueId) (ty : Ty) (span : Span)
  | cast (destination : ValueId) (value : ValueId) (ty : Ty) (span : Span)
  | call (destination : ValueId) (callee : ValueId) (arguments : List ValueId) (ty : Ty) (span : Span)
  | dispatchSubmit (destination : ValueId) (callee queue task : ValueId) (arguments : List ValueId)
      (ty : Ty) (span : Span)
  | dispatchAwait (destination : ValueId) (callee ticket timeout : ValueId) (ty : Ty) (span : Span)
  | input (destination : ValueId) (prompt : Option ValueId) (ty : Ty) (span : Span)
  | vector (destination : ValueId) (values : List ValueId) (ty : Ty) (span : Span)
  | index (destination : ValueId) (object index : ValueId) (ty : Ty) (span : Span)
  | member (destination : ValueId) (object : ValueId) (field : Option FieldRef) (name : String)
      (owner : String) (ty : Ty) (span : Span)
  | setIndex (symbol : SymbolId) (indices : List ValueId) (value : ValueId)
      (previous : Option ValueId) (ty : Ty) (span : Span)
  | setMemberIndex (object : ValueId) (field : Option FieldRef) (name : String) (owner : String)
      (indices : List ValueId) (value : ValueId) (previous : Option ValueId) (ty : Ty) (span : Span)
  | setFieldIndex (symbol : SymbolId) (rootOwner : String) (path : List String)
      (fields : Option (List FieldRef)) (indices : List ValueId) (value : ValueId)
      (previous : Option ValueId) (ty : Ty) (span : Span)
  | setStaticIndex (className : String) (field : String) (indices : List ValueId) (value : ValueId)
      (previous : Option ValueId) (ty : Ty) (span : Span)
  | length (destination : ValueId) (vector : ValueId) (span : Span)
  | sizeOf (destination : ValueId) (value : ValueId) (span : Span)
  | print (values : List ValueId) (span : Span)
  | clearScreen (console : ValueId) (span : Span)
  | beep (console : ValueId) (span : Span)
  | allocate (destination : ValueId) (typeName : String) (arguments : List ValueId) (ty : Ty)
      (span : Span)
  | release (value : ValueId) (destructor : Option String) (span : Span)
  | setMember (object : ValueId) (field : Option FieldRef) (name : String) (owner : String)
      (value : ValueId) (previous : Option ValueId) (ty : Ty) (span : Span)
  | setField (symbol : SymbolId) (rootOwner : String) (path : List String)
      (fields : Option (List FieldRef)) (value : ValueId) (previous : Option ValueId) (ty : Ty)
      (span : Span)
  | ensureClass (className : String) (span : Span)
  | loadStatic (destination : ValueId) (className : String) (field : String) (ty : Ty) (span : Span)
  | storeStatic (className : String) (field : String) (value : ValueId) (previous : Option ValueId)
      (ty : Ty) (span : Span)

inductive Terminator where
  | jump (target : BlockId)
  | branch (condition : ValueId) (thenBlock elseBlock : BlockId)
  | return (value : Option ValueId)
  | stop (code : ValueId)

structure BasicBlock where
  id : BlockId
  instructions : List Instruction
  terminator : Terminator

structure Function where
  name : String
  kind : FunctionKind
  /-- Class, struct or module that owns the function; `none` for free functions and the entry. -/
  owner : Option String
  parameters : List SymbolId
  /-- Local bindings declared with `AS WEAK`. -/
  weakSymbols : Finset SymbolId
  returnType : Ty
  entry : BlockId
  blocks : List BasicBlock
  span : Span

structure Module where
  functions : List Function := []
  /-- Interned field spellings, indexed by `FieldId`. -/
  fieldNames : List String := []
  /-- Complete record/class layouts keyed by fully-qualified owner. -/
  fieldLayouts : Std.TreeMap String FieldLayout := ∅
  classModel : ClassModel := {}
  /-- Fully qualified names of the declared `INTERFACE`s. -/
  interfaces : Std.TreeSet String := ∅
  bndataProviders : Finset ModuleId := ∅
  bnmathProviders : Finset ModuleId := ∅
  bnlogProviders : Finset ModuleId := ∅
  bnjsonProviders : Finset ModuleId := ∅
  bnwebProviders : Finset ModuleId := ∅
  bndispatchProviders : Finset ModuleId := ∅
  bncryptoProviders : Finset ModuleId := ∅
  bncompressProviders : Finset ModuleId := ∅
  bnsqliteProviders : Finset ModuleId := ∅
  bnffiProviders : Finset ModuleId := ∅

namespace Instruction

def span : Instruction → Span
  | constant _ _ _ span | default _ _ _ _ span | phi _ _ _ span | load _ _ _ span
  | retain _ _ _ span | take _ _ _ span | takeMember _ _ _ _ _ _ span | endBinding _ span
  | store _ _ _ _ span | copy _ _ _ span | unary _ _ _ _ span | binary _ _ _ _ _ span
  | cast _ _ _ span | call _ _ _ _ span | dispatchSubmit _ _ _ _ _ _ span
  | dispatchAwait _ _ _ _ _ span | input _ _ _ span | vector _ _ _ span | index _ _ _ _ span
  | member _ _ _ _ _ _ span | setIndex _ _ _ _ _ span | setMemberIndex _ _ _ _ _ _ _ _ span
  | setFieldIndex _ _ _ _ _ _ _ _ span | setStaticIndex _ _ _ _ _ _ span | length _ _ span
  | sizeOf _ _ span | print _ span | clearScreen _ span | beep _ span | allocate _ _ _ _ span
  | release _ _ span | setMember _ _ _ _ _ _ _ span | setField _ _ _ _ _ _ _ span
  | ensureClass _ span | loadStatic _ _ _ _ span | storeStatic _ _ _ _ _ span => span

def isPhi : Instruction → Bool
  | phi .. => true
  | _ => false

end Instruction

namespace Module

/-- Resolves an interned field spelling to its checked positional address. -/
def fieldRef (module : Module) (owner name : String) : Option FieldRef := do
  let layout ← module.fieldLayouts[owner]?
  layout.fields.findSome? fun entry => do
    let spelling ← module.fieldNames[entry.id]?
    if spelling = name then some { owner, id := entry.id, slot := entry.slot } else none

def fieldIsWeak (module : Module) (field : FieldRef) : Bool :=
  match module.fieldLayouts[field.owner]? with
  | some layout =>
    match layout.fields[field.slot]? with
    | some entry => entry.weak && entry.id == field.id
    | none => false
  | none => false

/-- The function of a synthesised `kind` owned by `owner`. -/
def functionOfKind (module : Module) (kind : FunctionKind) (owner : String) : Option Function :=
  module.functions.find? fun function => function.kind == kind && function.owner == some owner

/-- The standard library that module `id` provides, if any. -/
def standardLibraryOf (module : Module) (id : ModuleId) : Option String :=
  [(module.bnmathProviders, "BNMath"), (module.bndataProviders, "BNData"),
    (module.bnlogProviders, "BNLog"), (module.bnjsonProviders, "BNJson"),
    (module.bnwebProviders, "BNWeb"), (module.bndispatchProviders, "BNDispatch"),
    (module.bncryptoProviders, "BNCrypto"), (module.bncompressProviders, "BNCompress"),
    (module.bnsqliteProviders, "BNSqlite"), (module.bnffiProviders, "BNFfi")].findSome?
    fun (providers, name) => if id ∈ providers then some name else none

end Module

end BasicNext.Ir

/-!
## What each instruction defines, reads and types

The operand tables that definite assignment, the type rules and the ownership rule share.
-/

namespace BasicNext.Ir

/-- The value an instruction defines. A write under explicit ownership defines its previous content. -/
def instructionDefines : Instruction → Option ValueId
  | .constant destination .. | .default destination .. | .phi destination ..
  | .load destination .. | .copy destination .. | .unary destination .. | .binary destination ..
  | .cast destination .. | .call destination .. | .dispatchSubmit destination ..
  | .dispatchAwait destination .. | .input destination .. | .vector destination ..
  | .index destination .. | .member destination .. | .length destination ..
  | .sizeOf destination .. | .allocate destination .. | .retain destination ..
  | .take destination .. | .takeMember destination .. | .loadStatic destination .. =>
    some destination
  | .store _ _ previous .. | .setIndex _ _ _ previous .. | .setMemberIndex _ _ _ _ _ _ previous ..
  | .setFieldIndex _ _ _ _ _ _ previous .. | .setStaticIndex _ _ _ _ previous ..
  | .setMember _ _ _ _ _ previous .. | .setField _ _ _ _ _ previous ..
  | .storeStatic _ _ _ previous .. => previous
  | .print .. | .clearScreen .. | .beep .. | .release .. | .endBinding .. | .ensureClass .. => none

/-- Every SSA operand read by an instruction. -/
def instructionUses : Instruction → List ValueId
  | .copy _ source .. | .unary _ _ source .. | .cast _ source .. | .length _ source ..
  | .sizeOf _ source .. | .store _ source .. | .retain _ source .. | .release source .. => [source]
  | .binary _ _ left right .. => [left, right]
  | .call _ callee arguments .. => callee :: arguments
  | .dispatchSubmit _ callee queue task arguments .. => [callee, queue, task] ++ arguments
  | .dispatchAwait _ callee ticket timeout .. => [callee, ticket, timeout]
  | .vector _ values .. | .print values .. => values
  | .index _ object index .. => [object, index]
  | .member _ object .. | .takeMember _ object .. | .clearScreen object .. | .beep object .. =>
    [object]
  | .setIndex _ indices value .. | .setFieldIndex _ _ _ _ indices value ..
  | .setStaticIndex _ _ indices value .. => indices ++ [value]
  | .setMemberIndex object _ _ _ indices value .. => [object] ++ indices ++ [value]
  | .setMember object _ _ _ value .. => [object, value]
  | .setField _ _ _ _ value .. | .storeStatic _ _ value .. => [value]
  | .allocate _ _ arguments .. => arguments
  | .default _ _ _ dynamicDimensions .. => dynamicDimensions
  | .phi _ incoming .. => incoming.map Prod.snd
  | .input _ prompt .. => prompt.toList
  | .ensureClass .. | .loadStatic .. | .constant .. | .take .. | .endBinding .. | .load .. => []

/-- The type of the value an instruction defines. `Length` and `SizeOf` carry none. -/
def instructionType : Instruction → Option Ty
  | .constant _ _ ty _ | .default _ ty .. | .phi _ _ ty _ | .load _ _ ty _ | .copy _ _ ty _
  | .unary _ _ _ ty _ | .binary _ _ _ _ ty _ | .cast _ _ ty _ | .call _ _ _ ty _
  | .dispatchSubmit _ _ _ _ _ ty _ | .dispatchAwait _ _ _ _ ty _ | .input _ _ ty _
  | .vector _ _ ty _ | .index _ _ _ ty _ | .member _ _ _ _ _ ty _ | .allocate _ _ _ ty _
  | .retain _ _ ty _ | .take _ _ ty _ | .takeMember _ _ _ _ _ ty _ | .loadStatic _ _ _ ty _ =>
    some ty
  | .store _ _ previous ty _ | .setIndex _ _ _ previous ty _
  | .setMemberIndex _ _ _ _ _ _ previous ty _ | .setFieldIndex _ _ _ _ _ _ previous ty _
  | .setStaticIndex _ _ _ _ previous ty _ | .setMember _ _ _ _ _ previous ty _
  | .setField _ _ _ _ _ previous ty _ | .storeStatic _ _ _ previous ty _ =>
    previous.map fun _ => ty
  | .length .. | .sizeOf .. | .print .. | .clearScreen .. | .beep .. | .release ..
  | .endBinding .. | .ensureClass .. => none

end BasicNext.Ir
