import BasicNext.Ir.Layouts

/-!
# Dynamic method resolution

The functions a receiver of a static type can reach, listed by enumeration over the layouts, against what
the hierarchy says: the values of a type and the definition nearest to the class of a value.
-/

namespace BasicNext.Ir

open Lib

variable (module : Module)

/-! ### Resolution and targets -/

/-- The symbol that `method` has in a class that defines it. -/
def methodSymbol (method className : String) : String := className ++ "." ++ method

def findFunction (symbol : String) : Option Function := module.functions.find? fun function => function.name == symbol

/-- The symbol name for `method` given the runtime class of the receiver. -/
def resolveMethod (runtimeClass method : String) : Option String :=
  (module.classModel.ancestors runtimeClass).findSome? fun ancestor =>
    (findFunction module (methodSymbol method ancestor)).map Function.name

/-- Every class a receiver of type `staticType` can have, with the function `method` resolves to for it. -/
def dispatchTargets (staticType method : String) : List (String × String) :=
  (module.fieldLayouts.keys.filter fun className =>
    className == staticType || module.classModel.isUpcast className staticType).filterMap fun className =>
      (resolveMethod module className method).map fun target => (className, target)

/-! ### What is proved of them -/

def DefinesMethod (method className : String) : Prop :=
  ∃ function ∈ module.functions, function.name = methodSymbol method className

def entriesOf (staticType method className : String) : List (String × String) :=
  (dispatchTargets module staticType method).filter fun entry => entry.1 == className

/-- Dispatch agrees with the hierarchy, and widening a receiver does not change it. -/
structure DispatchSound : Prop where
  complete : ∀ staticType method className, HasLayout module className →
    (entriesOf module staticType method className ≠ [] ↔ module.classModel.InstanceOf className staticType ∧
        ∃ ancestor, Chain.Above (directBase module) className ancestor ∧ DefinesMethod module method ancestor)
  nearest : ∀ staticType method className, entriesOf module staticType method className ≠ [] →
    ∃! ancestor, Chain.Nearest (directBase module) (DefinesMethod module method) className ancestor ∧
      entriesOf module staticType method className = [(className, methodSymbol method ancestor)]
  widens : ∀ className middle staticType, ¬module.classModel.IsInterface middle →
    module.classModel.isUpcast className middle = true →
    module.classModel.isUpcast middle staticType = true →
    module.classModel.isUpcast className staticType = true ∧
      ∀ method, entriesOf module middle method className = entriesOf module staticType method className

variable {module}

/-! ### Resolution walks to the nearest definition -/

theorem findFunction_eq_none {symbol : String} (absent : findFunction module symbol = none) :
    ∀ function ∈ module.functions, function.name ≠ symbol := by
  intro function member same
  have differs := List.find?_eq_none.1 absent function member
  exact differs (beq_iff_eq.2 same)

theorem findFunction_eq_some {symbol : String} {function : Function} (found : findFunction module symbol = some function) :
    function ∈ module.functions ∧ function.name = symbol :=
  have picked := List.find?_some (p := fun function : Function => function.name == symbol) found
  ⟨List.mem_of_find?_eq_some found, beq_iff_eq.1 picked⟩

theorem resolveMethod_eq_none {className method : String}
    (unresolved : resolveMethod module className method = none) {ancestor : String}
    (above : Chain.Above (directBase module) className ancestor) : ¬DefinesMethod module method ancestor := by
  rintro ⟨function, member, named⟩
  have passed := List.findSome?_eq_none_iff.1 unresolved ancestor (ClassModel.mem_ancestors_iff.2 above)
  rw [Option.map_eq_none_iff] at passed
  exact findFunction_eq_none passed function member named

theorem resolveMethod_eq_some {className method target : String}
    (resolved : resolveMethod module className method = some target) :
    ∃ ancestor, Chain.Nearest (directBase module) (DefinesMethod module method) className ancestor ∧
      target = methodSymbol method ancestor := by
  obtain ⟨before, ancestor, after, split, found, passed⟩ := List.findSome?_eq_some_iff.1 resolved
  obtain ⟨function, present, rfl⟩ := Option.map_eq_some_iff.1 found
  obtain ⟨member, named⟩ := findFunction_eq_some present
  refine ⟨ancestor, ?_, named⟩
  apply ClassModel.nearest_of_ancestors_split split
  · rintro other early ⟨function', member', named'⟩
    have absent := Option.map_eq_none_iff.1 (passed other early)
    exact findFunction_eq_none absent function' member' named'
  · exact ⟨function, member, named⟩

/-! ### The entries of one class -/

theorem filter_entries {keys : List String} {resolve : String → Option String} {key : String} :
    (keys.filterMap fun k => (resolve k).map fun target => (k, target)).filter (fun entry => entry.1 == key)
      = (keys.filter fun k => k == key).filterMap fun k => (resolve k).map fun target => (k, target) := by
  rw [List.filter_filterMap, List.filterMap_filter]
  congr 1
  funext k
  by_cases same : k = key
  · subst same
    cases resolve k <;> simp
  · cases resolve k <;> simp [same]

theorem filter_layoutKeys (accept : String → Bool) {className : String} (has : HasLayout module className) :
    ((module.fieldLayouts.keys.filter accept).filter fun key => key == className)
      = if accept className then [className] else [] := by
  have member : className ∈ module.fieldLayouts.keys := by
    rw [Std.TreeMap.mem_keys, Std.TreeMap.mem_iff_isSome_getElem?]
    exact has
  have single : module.fieldLayouts.keys.filter (fun key => key == className) = [className] := by
    rw [List.filter_beq, List.count_eq_one_of_mem ?_ member]
    · rfl
    · exact Std.TreeMap.nodup_keys
  rw [List.filter_comm, single]
  cases accepted : accept className with
  | true => rw [List.filter_cons_of_pos accepted, List.filter_nil, if_pos rfl]
  | false => rw [List.filter_cons_of_neg (by rw [accepted]; nofun), List.filter_nil, if_neg nofun]

theorem entriesOf_eq {staticType method className : String} (has : HasLayout module className) :
    entriesOf module staticType method className = if module.classModel.isUpcast className staticType then
        ((resolveMethod module className method).map fun target => (className, target)).toList
      else [] := by
  have accepted : (className == staticType || module.classModel.isUpcast className staticType)
      = module.classModel.isUpcast className staticType := by
    rw [ClassModel.isUpcast, ← Bool.or_assoc, Bool.or_self]
  rw [entriesOf, dispatchTargets, filter_entries, filter_layoutKeys _ has, accepted]
  split
  · rw [List.filterMap_cons, List.filterMap_nil]
    cases resolveMethod module className method <;> rfl
  · rfl

/-! ### Targets of a dispatch -/

theorem entriesOf_ne_nil_iff {staticType method className : String} (has : HasLayout module className) :
    entriesOf module staticType method className ≠ [] ↔ module.classModel.InstanceOf className staticType ∧
        ∃ ancestor, Chain.Above (directBase module) className ancestor ∧ DefinesMethod module method ancestor := by
  rw [entriesOf_eq has, ← ClassModel.isUpcast_iff]
  constructor
  · intro entries
    split at entries
    next upcast =>
      refine ⟨upcast, ?_⟩
      cases resolved : resolveMethod module className method with
      | none =>
        rw [resolved] at entries
        exact absurd rfl entries
      | some target =>
        obtain ⟨ancestor, near, -⟩ := resolveMethod_eq_some resolved
        exact ⟨ancestor, near.above, near.holds⟩
    next => exact absurd rfl entries
  · rintro ⟨upcast, ancestor, above, defines⟩
    rw [if_pos upcast]
    cases resolved : resolveMethod module className method with
    | none => exact absurd defines (resolveMethod_eq_none resolved above)
    | some target => exact List.cons_ne_nil _ _

theorem entriesOf_eq_nil_of_not_hasLayout {staticType method className : String}
    (lacks : ¬HasLayout module className) : entriesOf module staticType method className = [] := by
  rw [entriesOf, dispatchTargets, filter_entries, List.filter_filter, List.filterMap_eq_nil_iff]
  intro key member
  exfalso
  rw [List.mem_filter, Std.TreeMap.mem_keys, Std.TreeMap.mem_iff_isSome_getElem?] at member
  obtain ⟨present, same⟩ := member
  rw [Bool.and_eq_true, beq_iff_eq] at same
  exact lacks (same.1 ▸ present)

theorem entriesOf_nearest {staticType method className : String}
    (entries : entriesOf module staticType method className ≠ []) :
    ∃ ancestor, Chain.Nearest (directBase module) (DefinesMethod module method) className ancestor ∧
      entriesOf module staticType method className = [(className, methodSymbol method ancestor)] := by
  have has : HasLayout module className := by
    by_contra lacks
    exact entries (entriesOf_eq_nil_of_not_hasLayout lacks)
  rw [entriesOf_eq has] at entries ⊢
  split at entries
  next upcast =>
    rw [if_pos upcast]
    cases resolved : resolveMethod module className method with
    | none =>
      rw [resolved] at entries
      exact absurd rfl entries
    | some target =>
      obtain ⟨ancestor, near, rfl⟩ := resolveMethod_eq_some resolved
      exact ⟨ancestor, near, rfl⟩
  next => exact absurd rfl entries

theorem entriesOf_widen {className middle staticType : String} (narrow : module.classModel.isUpcast className middle = true)
    (wide : module.classModel.isUpcast className staticType = true) (method : String) :
    entriesOf module middle method className = entriesOf module staticType method className := by
  by_cases has : HasLayout module className
  · rw [entriesOf_eq has, entriesOf_eq has, if_pos narrow, if_pos wide]
  · rw [entriesOf_eq_nil_of_not_hasLayout has, entriesOf_eq_nil_of_not_hasLayout has]

/-- In a module without inheritance cycles dispatch is complete and stable under upcasts. -/
theorem dispatchSound (module : Module) (acyclic : Chain.Acyclic (directBase module)) :
    DispatchSound module where
  complete _ _ _ has := entriesOf_ne_nil_iff has
  nearest _ _ _ entries := by
    obtain ⟨ancestor, near, single⟩ := entriesOf_nearest entries
    exact ⟨ancestor, ⟨near, single⟩, fun _ other => acyclic.nearest_unique other.1 near⟩
  widens className middle staticType isClass narrow wide := by
    have both : module.classModel.isUpcast className staticType = true := by
      rw [ClassModel.isUpcast_iff] at narrow wide ⊢
      exact narrow.trans isClass wide
    exact ⟨both, entriesOf_widen narrow both⟩

/-- `Circle` extends `Shape`, which implements `Printable`; both define `Area`. -/
def shapes : Module where
  functions := ["Shape.Area", "Shape.Name", "Circle.Area"].map fun name =>
    { name := name, kind := .user, owner := none, parameters := [0], weakSymbols := ∅,
      returnType := .string, entry := 0, blocks := [], span := defaultModuleSpan }
  fieldLayouts := Std.TreeMap.ofList
    [("Shape", FieldLayout.mk "Shape" [] defaultModuleSpan), ("Circle", FieldLayout.mk "Circle" [] defaultModuleSpan)]
  classModel := {
    bases := Std.TreeMap.ofList [("Circle", "Shape")]
    interfaces := Std.TreeMap.ofList [("Shape", Std.TreeSet.ofList ["Printable"])] }

theorem shapes_acyclic : Chain.Acyclic (directBase shapes) := by
  apply Chain.acyclic_of_ends
  intro className
  cases step : directBase shapes className with
  | none => exact .top step
  | some base =>
    have entry : (className, base) ∈ [("Circle", "Shape")] := Std.TreeMap.mem_toList_iff_getElem?_eq_some.2 step
    obtain ⟨rfl, rfl⟩ := Prod.mk.inj (List.mem_singleton.1 entry)
    exact .up step (.top rfl)

theorem dispatchSound_shapes :
    DispatchSound shapes ∧
      dispatchTargets shapes "Printable" "Area" = [("Circle", "Circle.Area"), ("Shape", "Shape.Area")] :=
  ⟨dispatchSound shapes shapes_acyclic, by decide⟩

end BasicNext.Ir
