import BasicNext.Ir.Validate.Upcast

/-!
# Field layouts, class bases and function kinds

The module-wide rules that come before any function body is looked at. The two walks up the base map
have no bound in the source: on a cyclic map they do not end, and `validateClassBases`, which runs
first, rejects such a map.
-/

namespace BasicNext.Ir

/-! ### Walks up the base map -/

/-- The walk up the base map from `current`: whether it meets `target` before a class without base. -/
def ownerChainReaches (module : Module) (target : String) : Nat → String → Check Bool
  | 0, _ => .error .outOfFuel
  | fuel + 1, current =>
    if current == target then .ok true
    else
      match module.classModel.bases[current]? with
      | none => .ok false
      | some base => ownerChainReaches module target fuel base

def layoutOwnerContains (fuel : Nat) (module : Module) (owner declaringOwner : String) : Check Bool :=
  ownerChainReaches module declaringOwner fuel owner

def ownerIsOrDerivesFrom (fuel : Nat) (module : Module) (receiverOwner fieldOwner : String) :
    Check Bool :=
  ownerChainReaches module fieldOwner fuel receiverOwner

/-! ### Class bases -/

/-- `while let Some(parent) = bases.get(current)`, with the classes already left in `seen`. -/
def baseChainAcyclic (module : Module) (span : Span) : Nat → Finset String → String → Check Unit
  | 0, _, _ => .error .outOfFuel
  | fuel + 1, seen, current =>
    match module.classModel.bases[current]? with
    | none => .ok ()
    | some parent => do
      rejectIf (current ∈ seen) "class inheritance metadata must be acyclic" span
      baseChainAcyclic module span fuel (insert current seen) parent

def validateClassIdentity (module : Module) (identity : String) : Check Unit :=
  rejectIf (!module.functions.any fun function => function.name == identity ++ ".$fields")
    ("class layout metadata references missing class '" ++ identity ++ "'") module.span

def validateClassBase (fuel : Nat) (module : Module) (entry : String × String) : Check Unit := do
  let (className, base) := entry
  rejectIf (className.isEmpty || base.isEmpty) "class and base identities cannot be empty" module.span
  baseChainAcyclic module module.span fuel ∅ className
  [className, base].forM (validateClassIdentity module)

/-- Class inheritance metadata names real classes and has no cycle. -/
def validateClassBases (fuel : Nat) (module : Module) : Check Unit :=
  module.classModel.bases.toList.forM (validateClassBase fuel module)

/-! ### Field layouts -/

def validateFieldNames (span : Span) : Finset String → List String → Check Unit
  | _, [] => .ok ()
  | names, name :: rest => do
    rejectIf name.isEmpty "field names cannot be empty" span
    rejectIf (name ∈ names) "field names must be unique" span
    validateFieldNames span (insert name names) rest

def sameLayoutField (derived base : FieldLayoutEntry) : Bool :=
  derived.id == base.id && derived.slot == base.slot && derived.ty == base.ty
    && derived.declaringOwner == base.declaringOwner && derived.weak == base.weak

/-- The fields of one layout from position `index` on, with the field IDs before it in `ids`. -/
def validateLayoutFields (fuel : Nat) (module : Module) (owner : String) (layout : FieldLayout) :
    Nat → Finset FieldId → List FieldLayoutEntry → Check Unit
  | _, _, [] => .ok ()
  | index, ids, field :: rest => do
    rejectIf (2 ^ 32 ≤ index) "field layout has too many fields" layout.span
    rejectIf (field.slot != index) "field layout slots must be dense and ordered" field.span
    rejectIf module.fieldNames[field.id]?.isNone "field ID is absent from the name table" field.span
    rejectIf (field.id ∈ ids) "field layout contains a duplicate field ID" field.span
    rejectIf field.declaringOwner.isEmpty
      "field declaring owner is not in the layout hierarchy" field.span
    let contained ← layoutOwnerContains fuel module owner field.declaringOwner
    rejectIf (!contained) "field declaring owner is not in the layout hierarchy" field.span
    validateLayoutFields fuel module owner layout (index + 1) (insert field.id ids) rest

/-- Whether a layout keeps the layout of its direct base class as its first fields. -/
def preservesBasePrefix (module : Module) (owner : String) (layout : FieldLayout) : Bool :=
  match module.classModel.bases[owner]? with
  | none => true
  | some baseOwner =>
    match module.fieldLayouts[baseOwner]? with
    | none => true
    | some baseLayout =>
      !(layout.fields.length < baseLayout.fields.length
        || !(layout.fields.zip baseLayout.fields).all fun (derived, base) =>
          sameLayoutField derived base)

def validateFieldLayout (fuel : Nat) (module : Module) (entry : String × FieldLayout) :
    Check Unit := do
  let (owner, layout) := entry
  rejectIf (owner.isEmpty || layout.owner.isEmpty || layout.owner != owner)
    "field layout owner must be non-empty and match its module key" layout.span
  validateLayoutFields fuel module owner layout 0 ∅ layout.fields
  rejectIf (!preservesBasePrefix module owner layout)
    "derived field layout must preserve the base layout prefix" layout.span

def validateFieldLayouts (fuel : Nat) (module : Module) : Check Unit := do
  validateFieldNames module.span ∅ module.fieldNames
  module.fieldLayouts.toList.forM (validateFieldLayout fuel module)

/-! ### Resolved field references -/

/-- `owner.rsplit_once('.')`: what precedes the last dot, empty without one. -/
def ownerPrefix (owner : String) : String := String.ofList ((owner.toList.reverse.dropWhile (· != '.')).drop 1).reverse

def importedOwner (imported : ModuleId) (name : String) : String := "#" ++ toString imported ++ "." ++ name

def recordOwnerForType (module : Module) (currentOwner : String) : Ty → Option String
  | .importedNamed imported name =>
    let owner := importedOwner imported name
    if module.fieldLayouts.contains owner then some owner else none
  | .named name =>
    if module.fieldLayouts.contains name then some name
    else
      let leading := ownerPrefix currentOwner
      let owner := if leading.isEmpty then name else leading ++ "." ++ name
      if module.fieldLayouts.contains owner then some owner else none
  | _ => none

/-- The path from `owner` on; the result is the type of its last field. -/
def resolveFieldPath (module : Module) (span : Span) :
    String → List (String × FieldRef) → Option Ty → Check (Option Ty)
  | _, [], terminalType => .ok terminalType
  | owner, (name, field) :: rest, _ => do
    let expected ← orInvalid (module.fieldRef owner name)
      "field path does not resolve in its owner layout" span
    rejectIf (field != expected) "resolved field path does not match its owner layout" span
    let layout ← orInvalid module.fieldLayouts[owner]? "field path owner has no layout" span
    let entry ← orInvalid layout.fields[field.slot]? "resolved field slot is absent" span
    if rest.isEmpty then resolveFieldPath module span owner rest (some entry.ty)
    else do
      let next ← orInvalid (recordOwnerForType module owner entry.ty)
        "non-final field path component is not a record" span
      resolveFieldPath module span next rest (some entry.ty)

def validateResolvedFieldPath (module : Module) (rootOwner : String) (path : List String)
    (fields : Option (List FieldRef)) (span : Span) : Check Ty := do
  rejectIf (rootOwner.isEmpty || path.isEmpty || path.any String.isEmpty)
    "field path cannot be empty" span
  let fields ← orInvalid fields "field path store must carry resolved fields" span
  rejectIf (fields.length != path.length)
    "resolved field path length must match its spelling path" span
  let terminalType ← resolveFieldPath module span rootOwner (path.zip fields) none
  orInvalid terminalType "field path has no terminal field" span

def validateFieldReference (module : Module) (owner name : String) (field : FieldRef) (span : Span) :
    Check Ty := do
  let expected ← orInvalid (module.fieldRef owner name)
    "member field does not resolve in its owner layout" span
  rejectIf (field != expected) "resolved member field does not match its owner layout" span
  let layout ← orInvalid module.fieldLayouts[owner]? "member owner has no field layout" span
  let entry ← orInvalid layout.fields[field.slot]? "resolved member slot is absent" span
  return entry.ty

/-- Whether a layout key is the name itself or ends in it after a dot. -/
def layoutKeyNames (name candidate : String) : Bool := candidate == name || ("." ++ name).toList.isSuffixOf candidate.toList

mutual

def receiverMatchesOwner (fuel : Nat) (module : Module) (owner : String) (receiver : Ty) :
    Check Bool :=
  match receiver with
  | .importedNamed imported name =>
    ownerIsOrDerivesFrom fuel module (importedOwner imported name) owner
  | .named name | .typeName name =>
    (module.fieldLayouts.keys.filter (layoutKeyNames name)).anyM fun candidate =>
      ownerIsOrDerivesFrom fuel module candidate owner
  | .alternative options => anyReceiverMatches fuel module owner options
  | _ => .ok false
termination_by structural receiver

/-- `options.iter().any(|option| receiver_matches_owner(module, option, owner))` -/
def anyReceiverMatches (fuel : Nat) (module : Module) (owner : String) (options : List Ty) :
    Check Bool :=
  match options with
  | [] => .ok false
  | option :: options => do
    let found ← receiverMatchesOwner fuel module owner option
    if found then .ok true else anyReceiverMatches fuel module owner options
termination_by structural options

end

/-! ### Function kinds -/

/-- The rules of one function; `entries` counts the entry functions before it. -/
def validateFunctionKind (entries : Nat) (function : Function) : Check Nat :=
  match function.kind with
  | .entry => do
    rejectIf (1 < entries + 1) "module declares more than one entry function" function.span
    rejectIf (!function.parameters.isEmpty) "entry function must not take parameters" function.span
    return entries + 1
  | .constructor | .destructor | .fieldInit | .init | .releaseFields => do
    rejectIf function.owner.isNone
      "constructor, destructor, field-init, field-release and init functions need an owner class"
      function.span
    -- `Init` allocates and returns the object, so it has no SELF.
    rejectIf (function.kind != .init && function.parameters.isEmpty)
      "constructor, destructor, field-init and field-release functions take SELF first"
      function.span
    rejectIf ((function.kind == .destructor || function.kind == .releaseFields)
        && !isVoidType function.returnType)
      (if function.kind == .destructor then "destructor must return VOID"
        else "field release must return VOID")
      function.span
    return entries
  | .default => do
    rejectIf function.owner.isNone "default constructor needs an owner struct" function.span
    rejectIf (!function.parameters.isEmpty) "default constructor must not take parameters"
      function.span
    return entries
  | .user => .ok entries

def validateFunctionKinds (module : Module) : Check Unit := do
  let _ ← module.functions.foldlM validateFunctionKind 0
  return ()

end BasicNext.Ir
