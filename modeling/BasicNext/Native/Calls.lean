import BasicNext.Native.CalleeNames
import BasicNext.Ir.Accepted
import Mathlib.Data.List.TakeWhile

/-!
# Calls of functions

The function that a call reaches, where its name is not one that the back end answers without a function of the
module. The interpreter resolves the last component of the callee's name in the class
of the first argument, whatever the callee is, and in the class under construction or destruction where the
argument is the object of a running constructor or destructor (`bn_interp::executor::part10`). Native code
compares the class in the object's header with the classes that reach another function than the callee
(`bn_llvm::llvm::calls`).
-/

namespace BasicNext.Ir

/-! ### Names -/

def Module.kindOf (module : Module) (name : String) : Option FunctionKind := (findFunction module name).map Function.kind

/-- The first argument of a call. -/
structure FirstArgument (H : Type*) where
  /-- The LLVM type of its static type is `ptr`. -/
  pointer : Bool
  /-- The handle and the class, where the value is an object. -/
  object : Option (H × String)

/-- A call of a function constant, and whether the source calls an instance method by it. -/
structure CallSite (H : Type*) where
  name : String
  isMethod : Bool
  first : Option (FirstArgument H)

namespace CallSite

variable {H : Type*} (site : CallSite H)

def isSuper : Bool := superPrefix.toList.isPrefixOf site.name.toList

def plain : String :=
  if site.isSuper then String.ofList (site.name.toList.drop superPrefix.length) else site.name

def object : Option (H × String) := site.first.bind FirstArgument.object

end CallSite

end BasicNext.Ir

namespace BasicNext.Interp

open Ir

variable {H : Type*} [DecidableEq H] (module : Module) (pinned : List (H × String))

/-- The functions that a call reaches by their names alone. -/
def keepsName (kind : Option FunctionKind) : Bool :=
  match kind with
  | some .fieldInit | some .constructor | some .destructor | some .releaseFields => true
  | _ => false

/-- The class of an object, or the class whose constructor, field initialiser or destructor runs on it, the
innermost one. -/
def dispatchClass (handle : H) (className : String) : String :=
  ((pinned.find? fun pin => pin.1 = handle).map Prod.snd).getD className

/-- `dispatch_name` -/
def dispatchName (name : String) (object : Option (H × String)) : String :=
  if keepsName (module.kindOf name) then name
  else
    match object with
    | none => name
    | some (handle, className) =>
      (resolveMethod module (dispatchClass pinned handle className) (methodName name)).getD name

/-- The function of the module that a name stands for in a call. -/
def moduleFunction (site : CallSite H) : Option Function :=
  findFunction module (if site.isSuper then site.plain else dispatchName module pinned site.plain site.object)

/-- The function that `call_named` runs. -/
def callNamed (site : CallSite H) : Option Function :=
  if answers module site.name then none else moduleFunction module pinned site

end BasicNext.Interp

namespace BasicNext.Native

open Ir Lib

variable {H : Type*} (module : Module)

/-- `interface_call_targets` -/
def interfaceCallTargets (name : String) : Option (List (String × String)) :=
  match ownerOf name with
  | none => none
  | some interface =>
    if interface ∈ module.interfaces then
      let targets := dispatchTargets module interface (methodName name)
      if targets.isEmpty then none else some targets
    else none

/-- The callee of a call: of an interface's method the last implementation. -/
def resolvedCallee (name : String) : String :=
  match (interfaceCallTargets module name).bind List.getLast? with
  | some (_, last) => last
  | none => name

/-- The classes of the static type that reach another function than the callee. -/
def overrides (name : String) : List (String × String) :=
  (dispatchTargets module ((ownerOf name).getD "") (methodName (resolvedCallee module name))).filter
    fun entry => entry.2 ≠ resolvedCallee module name

/-- The functions that native code calls by their names alone. -/
def keepsName (kind : Option FunctionKind) : Bool :=
  match kind with
  | some .constructor | some .fieldInit | some .init => true
  | _ => false

def virtualish (site : CallSite H) : Bool :=
  !site.isSuper && !keepsName (module.kindOf (resolvedCallee module site.plain)) &&
    site.first.any FirstArgument.pointer

/-- `emit_virtual_method_call`; a value that is no object has no class to read. -/
def emitVirtualMethodCall (fallback : String) (overrides : List (String × String)) (object : Option (H × String)) :
    Option String :=
  object.map fun (_, className) =>
    match overrides.find? fun entry => entry.1 == className with
    | some (_, target) => target
    | none => fallback

/-- `lower_user_call` -/
def lowerUserCall (site : CallSite H) : Option String :=
  if virtualish module site && !(overrides module site.plain).isEmpty then
    emitVirtualMethodCall (resolvedCallee module site.plain) (overrides module site.plain) site.object
  else some (resolvedCallee module site.plain)

/-- The functions of the module and the interfaces' methods; no other name gets to `lower_user_call`. -/
def namesFunction (site : CallSite H) : Bool :=
  (module.functions.any fun function => function.name == site.plain) || (interfaceCallTargets module site.name).isSome

/-- The function of the module that a lowered call reaches. -/
def moduleFunction (site : CallSite H) : Option Function := (lowerUserCall module site).bind (findFunction module)

/-- The function that native code calls. -/
def calledFunction (site : CallSite H) : Option Function :=
  if answers module site.name || !namesFunction module site then none else moduleFunction module site

/-! ### What is proved -/

variable [DecidableEq H] (pinned : List (H × String))

/-- What the analyzer and the lowering see to. -/
structure Typed (site : CallSite H) : Prop where
  /-- `Interface.Method` has no body. -/
  bodiless : ∀ function ∈ module.functions, ∀ interface, ownerOf function.name = some interface →
    interface ∉ module.interfaces
  /-- A super call and a call that is of no method name a function. -/
  named : site.isSuper = true ∨ site.isMethod = false → (findFunction module site.plain).isSome
  /-- A method is called on an object of a class that has or inherits it. -/
  received : site.isSuper = false → site.isMethod = true → ∃ handle className owner ancestor,
    site.first = some ⟨true, some (handle, className)⟩ ∧ HasLayout module className ∧
      ownerOf site.plain = some owner ∧ module.classModel.InstanceOf className owner ∧
      Chain.Above (directBase module) className ancestor ∧
      DefinesMethod module (methodName site.plain) ancestor
  /-- The name of a method is the name of methods only. -/
  methods : site.isMethod = true → ∀ function ∈ module.functions, methodName function.name = methodName site.plain →
    function.kind = .user

/-- The function that a call means: of a method the one that the class of the receiver, or the class under
construction or destruction, resolves it to, and else the one it names. -/
def meantFunction (site : CallSite H) : Option Function :=
  match site.isSuper, site.isMethod, site.object with
  | false, true, some (handle, className) =>
    (resolveMethod module (Interp.dispatchClass pinned handle className) (methodName site.plain)).bind
      (findFunction module)
  | _, _, _ => findFunction module site.plain

/-- Both back ends call the function that the call means. -/
def CallsAgree (site : CallSite H) : Prop :=
  ∃ function, meantFunction module pinned site = some function ∧
    Interp.callNamed module pinned site = some function ∧ calledFunction module site = some function

/-- The same of the functions of the module that the names stand for. -/
def NamesAgree (site : CallSite H) : Prop :=
  ∃ function, meantFunction module pinned site = some function ∧
    Interp.moduleFunction module pinned site = some function ∧ moduleFunction module site = some function

/-- Neither back end takes the callee for an intrinsic, a host call or a member of a library. -/
structure Unanswered (site : CallSite H) : Prop where
  interpreted : Interp.answers module site.name = false
  lowered : answers module site.name = false
  names : namesFunction module site = true

def Captures (name className : String) : Prop :=
  ∃ ancestor, Chain.Nearest (directBase module) (DefinesMethod module (methodName name)) className ancestor ∧
    methodSymbol (methodName name) ancestor ≠ name

/-- No class that native code looks for reaches another function than the callee. -/
def NotOverridden (site : CallSite H) : Prop :=
  ∀ className, HasLayout module className → module.classModel.InstanceOf className ((ownerOf site.plain).getD "") →
    (∀ object, site.object = some object → object.2 = className) → ¬Captures module site.plain className

/-- The names stand for the function that the call means. -/
def Resolves (site : CallSite H) : Prop :=
  site.isSuper = true ∨ (site.isMethod = true ∧ ∀ handle className, site.object = some (handle, className) → ∃ ancestor,
      Chain.Nearest (directBase module) (DefinesMethod module (methodName site.plain)) className ancestor ∧
      Chain.Nearest (directBase module) (DefinesMethod module (methodName site.plain))
        (Interp.dispatchClass pinned handle className) ancestor) ∨
    (site.isMethod = false ∧ (Interp.keepsName (module.kindOf site.plain) = true ∨ ∀ handle className,
        site.object = some (handle, className) →
        ¬Captures module site.plain (Interp.dispatchClass pinned handle className)) ∧
      (keepsName (module.kindOf site.plain) = true ∨ site.first.any FirstArgument.pointer = false ∨
        NotOverridden module site))

def Reaches (site : CallSite H) : Prop := Unanswered module site ∧ Resolves module pinned site

/-! ### Names and definitions -/

section

omit [DecidableEq H]

variable {module} {pinned} {site : CallSite H} {name className : String}

theorem resolveMethod_iff (acyclic : Chain.Acyclic (directBase module)) {method target : String} :
    resolveMethod module className method = some target ↔
      ∃ ancestor, Chain.Nearest (directBase module) (DefinesMethod module method) className ancestor ∧
        target = methodSymbol method ancestor := by
  refine ⟨resolveMethod_eq_some, ?_⟩
  rintro ⟨ancestor, near, rfl⟩
  cases resolved : resolveMethod module className method with
  | none => exact absurd near.holds (resolveMethod_eq_none resolved near.above)
  | some target =>
    obtain ⟨other, nearest, rfl⟩ := resolveMethod_eq_some resolved
    rw [acyclic.nearest_unique near nearest]

theorem captures_iff (acyclic : Chain.Acyclic (directBase module)) :
    Captures module name className ↔
      ∃ target, resolveMethod module className (methodName name) = some target ∧ target ≠ name := by
  constructor
  · rintro ⟨ancestor, near, differs⟩
    exact ⟨_, (resolveMethod_iff acyclic).2 ⟨ancestor, near, rfl⟩, differs⟩
  · rintro ⟨target, resolved, differs⟩
    obtain ⟨ancestor, near, rfl⟩ := resolveMethod_eq_some resolved
    exact ⟨ancestor, near, differs⟩

theorem methodName_ne_dot (name : String) : '.' ∉ (methodName name).toList := by
  intro member
  rw [methodName, String.toList_ofList, List.mem_reverse] at member
  simpa using List.mem_takeWhile_imp member

theorem methodName_methodSymbol {method ancestor : String} (plain : '.' ∉ method.toList) :
    methodName (methodSymbol method ancestor) = method := by
  have keeps : ∀ c ∈ method.toList.reverse, decide (c ≠ '.') = true := by
    intro c member
    rw [decide_eq_true_iff]
    rintro rfl
    exact plain (List.mem_reverse.1 member)
  rw [methodName, methodSymbol, String.toList_append, String.toList_append, List.reverse_append, List.reverse_append,
    List.takeWhile_append_of_pos keeps, show ".".toList.reverse = ['.'] from rfl, List.singleton_append,
    List.takeWhile_cons_of_neg (by simp), List.append_nil, List.reverse_reverse, String.ofList_toList]

theorem resolvedCallee_of_none (none : interfaceCallTargets module name = none) : resolvedCallee module name = name := by
  rw [resolvedCallee, none]
  rfl

theorem resolvedCallee_of_function (typed : Typed module site) (found : (findFunction module name).isSome) :
    resolvedCallee module name = name := by
  apply resolvedCallee_of_none
  obtain ⟨function, found⟩ := Option.isSome_iff_exists.1 found
  obtain ⟨member, rfl⟩ := findFunction_eq_some found
  rw [interfaceCallTargets]
  cases owner : ownerOf function.name with
  | none => rfl
  | some interface => exact if_neg (typed.bodiless function member interface owner)

theorem methodName_resolvedCallee : methodName (resolvedCallee module name) = methodName name := by
  rw [resolvedCallee]
  split
  · next last found =>
    obtain ⟨targets, listed, back⟩ := Option.bind_eq_some_iff.1 found
    rw [interfaceCallTargets] at listed
    split at listed
    · cases listed
    · next interface owner =>
      split at listed
      · dsimp only at listed
        split at listed
        · cases listed
        · cases listed
          have member := List.mem_of_getLast? back
          rw [dispatchTargets, List.mem_filterMap] at member
          obtain ⟨key, -, resolved⟩ := member
          obtain ⟨target, resolves, same⟩ := Option.map_eq_some_iff.1 resolved
          cases same
          obtain ⟨ancestor, -, rfl⟩ := resolveMethod_eq_some resolves
          exact methodName_methodSymbol (methodName_ne_dot name)
      · cases listed
  · rfl

theorem mem_dispatchTargets {staticType method target : String} :
    (className, target) ∈ dispatchTargets module staticType method ↔
      HasLayout module className ∧ module.classModel.InstanceOf className staticType ∧
        resolveMethod module className method = some target := by
  rw [dispatchTargets, List.mem_filterMap]
  constructor
  · rintro ⟨key, member, resolved⟩
    obtain ⟨target', resolves, same⟩ := Option.map_eq_some_iff.1 resolved
    cases same
    rw [List.mem_filter, Std.TreeMap.mem_keys, Std.TreeMap.mem_iff_isSome_getElem?, Bool.or_eq_true, beq_iff_eq] at member
    refine ⟨member.1, ?_, resolves⟩
    rw [← ClassModel.isUpcast_iff]
    rcases member.2 with rfl | upcast
    · simp [ClassModel.isUpcast]
    · exact upcast
  · rintro ⟨has, instanceOf, resolves⟩
    refine ⟨className, ?_, by rw [resolves]; rfl⟩
    rw [List.mem_filter, Std.TreeMap.mem_keys, Std.TreeMap.mem_iff_isSome_getElem?, Bool.or_eq_true]
    exact ⟨has, .inr (ClassModel.isUpcast_iff.2 instanceOf)⟩

theorem mem_overrides {target : String} : (className, target) ∈ overrides module name ↔
      HasLayout module className ∧ module.classModel.InstanceOf className ((ownerOf name).getD "") ∧
        resolveMethod module className (methodName name) = some target ∧ target ≠ resolvedCallee module name := by
  rw [overrides, List.mem_filter, mem_dispatchTargets, methodName_resolvedCallee, decide_eq_true_iff, and_assoc, and_assoc]

theorem emitVirtualMethodCall_object {handle : H} :
    emitVirtualMethodCall (resolvedCallee module name) (overrides module name) (some (handle, className)) =
      some (if (module.fieldLayouts[className]?).isSome ∧
          module.classModel.isUpcast className ((ownerOf name).getD "") = true then
        (resolveMethod module className (methodName name)).getD (resolvedCallee module name)
        else resolvedCallee module name) := by
  rw [emitVirtualMethodCall, Option.map_some]
  dsimp only
  congr 1
  cases found : (overrides module name).find? fun entry => entry.1 == className with
  | some entry =>
    obtain ⟨key, target⟩ := entry
    have member := List.mem_of_find?_eq_some found
    obtain rfl : key = className := by simpa using List.find?_some found
    obtain ⟨has, instanceOf, resolves, -⟩ := mem_overrides.1 member
    rw [if_pos ⟨has, ClassModel.isUpcast_iff.2 instanceOf⟩, resolves]
    rfl
  | none =>
    dsimp only
    split
    · next known =>
      cases resolved : resolveMethod module className (methodName name) with
      | none => rfl
      | some target =>
        by_contra differs
        have member : (className, target) ∈ overrides module name :=
          mem_overrides.2 ⟨known.1, ClassModel.isUpcast_iff.1 known.2, resolved, fun same => differs same.symm⟩
        simpa using List.find?_eq_none.1 found _ member
    · rfl

theorem acyclic_of_accepted (accepted : module.Accepted) : Chain.Acyclic (directBase module) := by
  obtain ⟨fuel, passed⟩ := accepted
  obtain ⟨_, bases, _⟩ := bind_eq_ok.1 passed
  exact Chain.acyclic_of_ends (ends_of_validateClassBases bases)

theorem findFunction_injective {first second : String} (found : (findFunction module first).isSome)
    (same : findFunction module first = findFunction module second) : first = second := by
  obtain ⟨function, named⟩ := Option.isSome_iff_exists.1 found
  exact (findFunction_eq_some named).2.symm.trans (findFunction_eq_some (same ▸ named)).2

theorem findFunction_isSome : (findFunction module name).isSome ↔ ∃ function ∈ module.functions, function.name = name := by
  constructor
  · intro found
    obtain ⟨function, found⟩ := Option.isSome_iff_exists.1 found
    exact ⟨function, findFunction_eq_some found⟩
  · rintro ⟨function, member, named⟩
    cases found : findFunction module name with
    | some other => rfl
    | none => exact absurd named (findFunction_eq_none found function member)

theorem findFunction_of_resolved {method target : String}
    (resolved : resolveMethod module className method = some target) : (findFunction module target).isSome := by
  obtain ⟨ancestor, near, rfl⟩ := resolveMethod_eq_some resolved
  exact findFunction_isSome.2 near.holds

theorem not_keepsName (typed : Typed module site) (method : site.isMethod = true)
    (same : methodName name = methodName site.plain) :
    Interp.keepsName (module.kindOf name) = false ∧ keepsName (module.kindOf name) = false := by
  rw [Module.kindOf]
  cases found : findFunction module name with
  | none => exact ⟨rfl, rfl⟩
  | some function =>
    obtain ⟨member, rfl⟩ := findFunction_eq_some found
    rw [Option.map_some, typed.methods method function member same]
    exact ⟨rfl, rfl⟩

theorem lowerUserCall_object {handle : H} (virtual : virtualish module site = true)
    (object : site.object = some (handle, className)) :
    lowerUserCall module site = some (if (module.fieldLayouts[className]?).isSome ∧
        module.classModel.isUpcast className ((ownerOf site.plain).getD "") = true then
      (resolveMethod module className (methodName site.plain)).getD (resolvedCallee module site.plain)
      else resolvedCallee module site.plain) := by
  rw [lowerUserCall, virtual, object, Bool.true_and, emitVirtualMethodCall_object]
  cases empty : (overrides module site.plain).isEmpty with
  | false => rfl
  | true =>
    have none : overrides module site.plain = [] := List.isEmpty_iff.1 empty
    have single := @emitVirtualMethodCall_object H module site.plain className handle
    rw [none] at single
    exact single

theorem lowerUserCall_direct (direct : virtualish module site = false) :
    lowerUserCall module site = some (resolvedCallee module site.plain) := by
  rw [lowerUserCall, direct]
  rfl

end

/-! ### Agreement -/

section

variable {module} {pinned} {site : CallSite H}

theorem superNames_agree (typed : Typed module site) (super : site.isSuper = true) :
    NamesAgree module pinned site := by
  have found := typed.named (.inl super)
  obtain ⟨function, named⟩ := Option.isSome_iff_exists.1 found
  have direct : virtualish module site = false := by rw [virtualish, super]; rfl
  refine ⟨function, ?_, ?_, ?_⟩
  · rw [meantFunction, super]
    exact named
  · rw [Interp.moduleFunction, if_pos super]
    exact named
  · rw [moduleFunction, lowerUserCall_direct direct, resolvedCallee_of_function typed found]
    exact named

theorem methodNames_agree_iff (acyclic : Chain.Acyclic (directBase module)) (typed : Typed module site)
    (super : site.isSuper = false) (method : site.isMethod = true) :
    NamesAgree module pinned site ↔ ∀ handle className, site.object = some (handle, className) → ∃ ancestor,
      Chain.Nearest (directBase module) (DefinesMethod module (methodName site.plain)) className ancestor ∧
      Chain.Nearest (directBase module) (DefinesMethod module (methodName site.plain))
        (Interp.dispatchClass pinned handle className) ancestor := by
  obtain ⟨handle, className, owner, ancestor, first, has, owned, instanceOf, above, defines⟩ := typed.received super method
  have object : site.object = some (handle, className) := by rw [CallSite.object, first]; rfl
  have kept := not_keepsName typed method rfl
  have keptResolved : Interp.keepsName (module.kindOf (resolvedCallee module site.plain)) = false ∧
      keepsName (module.kindOf (resolvedCallee module site.plain)) = false :=
    not_keepsName typed method methodName_resolvedCallee
  have virtual : virtualish module site = true := by
    rw [virtualish, super, keptResolved.2, first]
    rfl
  obtain ⟨nearest, near⟩ := Chain.exists_nearest above defines
  have resolved : resolveMethod module className (methodName site.plain) =
      some (methodSymbol (methodName site.plain) nearest) := (resolveMethod_iff acyclic).2 ⟨nearest, near, rfl⟩
  have native : moduleFunction module site = findFunction module (methodSymbol (methodName site.plain) nearest) := by
    have upcast : module.classModel.isUpcast className ((ownerOf site.plain).getD "") = true := by
      rw [owned]
      exact ClassModel.isUpcast_iff.2 instanceOf
    rw [moduleFunction, lowerUserCall_object virtual object, if_pos ⟨has, upcast⟩, resolved]
    rfl
  have meant : meantFunction module pinned site =
      (resolveMethod module (Interp.dispatchClass pinned handle className) (methodName site.plain)).bind
        (findFunction module) := by
    rw [meantFunction, super, method, object]
  have interpreted : Interp.moduleFunction module pinned site = findFunction module
      ((resolveMethod module (Interp.dispatchClass pinned handle className) (methodName site.plain)).getD
        site.plain) := by
    simp only [Interp.moduleFunction, super, Interp.dispatchName, kept.1, object, Bool.false_eq_true, if_false]
  constructor
  · rintro ⟨function, means, -, calls⟩ handle' className' object'
    cases object.symm.trans object'
    rw [meant] at means
    obtain ⟨target, resolves, named⟩ := Option.bind_eq_some_iff.1 means
    obtain ⟨other, nearOther, rfl⟩ := (resolveMethod_iff acyclic).1 resolves
    have same := findFunction_injective (findFunction_of_resolved resolves) (named.trans (native ▸ calls).symm)
    refine ⟨nearest, near, ?_⟩
    rw [same] at resolves
    obtain ⟨again, nearAgain, symbol⟩ := (resolveMethod_iff acyclic).1 resolves
    have cut : nearest ++ ("." ++ methodName site.plain) = again ++ ("." ++ methodName site.plain) := by
      rw [← String.append_assoc, ← String.append_assoc]
      exact symbol
    rw [String.append_left_inj] at cut
    exact cut ▸ nearAgain
  · intro alike
    obtain ⟨shared, one, other⟩ := alike handle className object
    obtain rfl := acyclic.nearest_unique near one
    have resolves := (resolveMethod_iff acyclic).2 ⟨nearest, other, rfl⟩
    obtain ⟨function, named⟩ := Option.isSome_iff_exists.1 (findFunction_of_resolved resolved)
    refine ⟨function, ?_, ?_, native.trans named⟩
    · rw [meant, resolves]
      exact named
    · rw [interpreted, resolves]
      exact named

theorem dispatchName_eq_iff (acyclic : Chain.Acyclic (directBase module)) :
    Interp.dispatchName module pinned site.plain site.object = site.plain ↔
      Interp.keepsName (module.kindOf site.plain) = true ∨ ∀ handle className, site.object = some (handle, className) →
        ¬Captures module site.plain (Interp.dispatchClass pinned handle className) := by
  simp only [captures_iff acyclic]
  cases kept : Interp.keepsName (module.kindOf site.plain) with
  | true => simp [Interp.dispatchName, kept]
  | false =>
    simp only [Interp.dispatchName, kept, Bool.false_eq_true, if_false, false_or]
    cases object : site.object with
    | none => simp
    | some pair =>
      obtain ⟨handle, className⟩ := pair
      dsimp only
      constructor
      · rintro same handle' className' object' ⟨target, resolved, differs⟩
        cases object'
        rw [resolved] at same
        exact differs same
      · intro free
        cases resolved : resolveMethod module (Interp.dispatchClass pinned handle className)
            (methodName site.plain) with
        | none => rfl
        | some target =>
          by_contra differs
          exact free handle className rfl ⟨target, resolved, differs⟩

omit [DecidableEq H] in
theorem lowerUserCall_eq_iff (acyclic : Chain.Acyclic (directBase module)) (typed : Typed module site)
    (super : site.isSuper = false) (found : (findFunction module site.plain).isSome) :
    lowerUserCall module site = some site.plain ↔
      keepsName (module.kindOf site.plain) = true ∨ site.first.any FirstArgument.pointer = false ∨
        NotOverridden module site := by
  have callee := resolvedCallee_of_function typed found
  by_cases direct : keepsName (module.kindOf site.plain) = true ∨ site.first.any FirstArgument.pointer = false
  · have notVirtual : virtualish module site = false := by
      rw [virtualish, super, callee]
      rcases direct with kept | pointer
      · rw [kept]
        rfl
      · rw [pointer, Bool.and_false]
    rw [lowerUserCall_direct notVirtual, callee]
    refine ⟨fun _ => ?_, fun _ => rfl⟩
    rcases direct with kept | pointer
    · exact .inl kept
    · exact .inr (.inl pointer)
  · rw [not_or, Bool.not_eq_true, Bool.not_eq_false] at direct
    have virtual : virtualish module site = true := by
      rw [virtualish, super, callee, direct.1, direct.2]
      rfl
    rw [direct.1, direct.2]
    simp only [Bool.false_eq_true, Bool.true_eq_false, false_or, NotOverridden, captures_iff acyclic]
    cases object : site.object with
    | some pair =>
      obtain ⟨handle, className⟩ := pair
      rw [lowerUserCall_object virtual object, callee]
      constructor
      · rintro calls other has instanceOf same ⟨target, resolved, differs⟩
        obtain rfl := same _ rfl
        rw [if_pos ⟨has, ClassModel.isUpcast_iff.2 instanceOf⟩, resolved] at calls
        exact differs (Option.some.inj calls)
      · intro free
        split
        · next known =>
          cases resolved : resolveMethod module className (methodName site.plain) with
          | none => rfl
          | some target =>
            by_contra differs
            refine free className known.1 (ClassModel.isUpcast_iff.1 known.2) (fun pair same => ?_)
              ⟨target, resolved, fun same => differs (by rw [same]; rfl)⟩
            cases same
            rfl
        · rfl
    | none =>
      rw [lowerUserCall, virtual, object, callee, Bool.true_and]
      constructor
      · rintro calls className has instanceOf - ⟨target, resolved, differs⟩
        have member : (className, target) ∈ overrides module site.plain :=
          mem_overrides.2 ⟨has, instanceOf, resolved, callee.symm ▸ differs⟩
        cases listed : overrides module site.plain with
        | nil =>
          rw [listed] at member
          cases member
        | cons entry entries =>
          rw [listed] at calls
          cases calls
      · intro free
        cases listed : overrides module site.plain with
        | nil => rfl
        | cons entry entries =>
          obtain ⟨className, target⟩ := entry
          have member : (className, target) ∈ overrides module site.plain := listed ▸ List.mem_cons_self
          obtain ⟨has, instanceOf, resolved, differs⟩ := mem_overrides.1 member
          rw [callee] at differs
          exact absurd ⟨target, resolved, differs⟩
            (free className has instanceOf (fun pair absent => by cases absent))

theorem names_agree_iff (accepted : module.Accepted) (typed : Typed module site) :
    NamesAgree module pinned site ↔ Resolves module pinned site := by
  have acyclic := acyclic_of_accepted accepted
  cases super : site.isSuper with
  | true =>
    refine ⟨fun _ => .inl super, fun _ => superNames_agree typed super⟩
  | false =>
    cases method : site.isMethod with
    | true =>
      rw [methodNames_agree_iff acyclic typed super method, Resolves]
      simp [super, method]
    | false =>
      have found := typed.named (.inr method)
      obtain ⟨function, named⟩ := Option.isSome_iff_exists.1 found
      have meant : meantFunction module pinned site = some function := by
        rw [meantFunction, super, method]
        exact named
      have interpreted : Interp.moduleFunction module pinned site =
          findFunction module (Interp.dispatchName module pinned site.plain site.object) := by
        simp only [Interp.moduleFunction, super, Bool.false_eq_true, if_false]
      have agree : NamesAgree module pinned site ↔ Interp.dispatchName module pinned site.plain site.object = site.plain ∧
            lowerUserCall module site = some site.plain := by
        constructor
        · rintro ⟨other, means, interprets, calls⟩
          cases meant.symm.trans means
          refine ⟨(findFunction_injective found (named.trans (interpreted ▸ interprets).symm)).symm, ?_⟩
          obtain ⟨target, lowered, reached⟩ := Option.bind_eq_some_iff.1 calls
          rw [lowered, findFunction_injective found (named.trans reached.symm)]
        · rintro ⟨dispatched, lowered⟩
          refine ⟨function, meant, ?_, ?_⟩
          · rw [interpreted, dispatched]
            exact named
          · rw [moduleFunction, lowered]
            exact named
      rw [agree, dispatchName_eq_iff acyclic, lowerUserCall_eq_iff acyclic typed super found, Resolves]
      simp [super, method]

theorem callsAgree_iff_unanswered :
    CallsAgree module pinned site ↔ Unanswered module site ∧ NamesAgree module pinned site := by
  constructor
  · rintro ⟨function, means, interprets, calls⟩
    rw [Interp.callNamed, Option.ite_none_left_eq_some, Bool.not_eq_true] at interprets
    rw [calledFunction, Option.ite_none_left_eq_some, Bool.not_eq_true, Bool.or_eq_false_iff, Bool.not_eq_false'] at calls
    exact ⟨⟨interprets.1, calls.1.1, calls.1.2⟩, function, means, interprets.2, calls.2⟩
  · rintro ⟨unanswered, function, means, interprets, calls⟩
    refine ⟨function, means, ?_, ?_⟩
    · rw [Interp.callNamed, unanswered.interpreted]
      exact interprets
    · rw [calledFunction, unanswered.lowered, unanswered.names]
      exact calls

end

/-! ### A constructor, and a function named like a method -/

def returning (name : String) (kind : FunctionKind) (owner : Option String) : Function where
  name := name
  kind := kind
  owner := owner
  parameters := [0]
  weakSymbols := ∅
  returnType := .named "VOID"
  entry := 0
  blocks := [{ id := 0, instructions := [], terminator := .return none }]
  span := defaultModuleSpan

/-- `Dog` extends `Animal` and overrides `Feed`; functions of the module are named `Feed` and `ReadCSV`. -/
def animals : Module where
  functions := [returning "Animal.$fields" .fieldInit (some "Animal"), returning "Dog.$fields" .fieldInit (some "Dog"),
    returning "Animal.CONSTRUCTOR" .constructor (some "Animal"), returning "Animal.Feed" .user (some "Animal"),
    returning "Dog.Feed" .user (some "Dog"), returning "Feed" .user none, returning "ReadCSV" .user none]
  fieldLayouts := Std.TreeMap.ofList
    [("Animal", FieldLayout.mk "Animal" [] defaultModuleSpan), ("Dog", FieldLayout.mk "Dog" [] defaultModuleSpan)]
  classModel := { bases := Std.TreeMap.ofList [("Dog", "Animal")] }

theorem animals_accepted : animals.Accepted := ⟨20, by decide⟩

/-- `Feed` is called on a dog as a method of `Animal`. -/
def feedMethod : CallSite Nat where
  name := "Animal.Feed"
  isMethod := true
  first := some ⟨true, some (1, "Dog")⟩

/-- The function `Feed` is called with a dog. -/
def feedFunction : CallSite Nat where
  name := "Feed"
  isMethod := false
  first := some ⟨true, some (1, "Dog")⟩

/-- The function `ReadCSV` is called with a file. -/
def readFunction : CallSite Nat where
  name := "ReadCSV"
  isMethod := false
  first := some ⟨false, none⟩

theorem feedMethod_typed : Typed animals feedMethod where
  bodiless function _ interface _ member := absurd member Std.TreeSet.not_mem_emptyc
  named unmethod := by rcases unmethod with super | unmethod <;> exact absurd ‹_› (by decide)
  received _ _ := by
    refine ⟨1, "Dog", "Animal", "Animal", rfl, by unfold HasLayout; decide, by decide, ?_, ?_, ?_⟩
    · exact ClassModel.isUpcast_iff.1 (by decide)
    · exact ClassModel.mem_ancestors_iff.1 (by decide)
    · exact findFunction_isSome.1 (by decide)
  methods _ function member same := by
    revert function
    decide

end BasicNext.Native
