import BasicNext.Lib.Chain
import Std.Data.TreeMap
import Std.Data.TreeSet

/-!
# The nominal class model

Base classes and declared interfaces, keyed by qualified class name, and the upcast relation they
generate. `ancestors` walks the base map under a visited set, so it ends on a cyclic map as well; its
walk visits every key at most once, which is the bound `ancestorsFrom` recurses on.
-/

namespace BasicNext

structure ClassModel where
  /-- Each class to its direct declared base class. -/
  bases : Std.TreeMap String String := ∅
  /-- Each class to its directly declared interfaces. -/
  interfaces : Std.TreeMap String (Std.TreeSet String) := ∅

namespace ClassModel

def addBase (model : ClassModel) (className baseName : String) : ClassModel :=
  { model with bases := model.bases.insert className baseName }

def addInterface (model : ClassModel) (className interfaceName : String) : ClassModel :=
  { model with
    interfaces := model.interfaces.insert className
      ((model.interfaces.getD className ∅).insert interfaceName) }

/-- The walk of `ancestors` from `current`, with `visited` behind it. -/
def ancestorsFrom (model : ClassModel) : Nat → Finset String → Option String → List String
  | _, _, none => []
  | 0, _, some _ => []
  | steps + 1, visited, some cls =>
    if cls ∈ visited then []
    else cls :: ancestorsFrom model steps (insert cls visited) model.bases[cls]?

/-- The inheritance chain from `className` up through all base classes. -/
def ancestors (model : ClassModel) (className : String) : List String :=
  ancestorsFrom model (model.bases.size + 1) ∅ (some className)

/-- Whether a value of nominal type `source` can be upcast to `target`. -/
def isUpcast (model : ClassModel) (source target : String) : Bool :=
  source == target ||
    (model.ancestors source).any fun ancestor =>
      ancestor == target ||
        (match model.interfaces[ancestor]? with
          | some interfaces => interfaces.contains target
          | none => false)

end ClassModel

end BasicNext

/-!
## The hierarchy that a class model draws

The base map draws a chain from every class. `ancestors` lists this chain, also where it runs into a
cycle, and an upcast goes to what is on the chain or declared as an interface by what is on it.
-/

namespace BasicNext.ClassModel

open Lib

variable (model : ClassModel)

def baseOf (className : String) : Option String := model.bases[className]?

def Declares (className interfaceName : String) : Prop :=
  ∃ interfaces, model.interfaces[className]? = some interfaces ∧ interfaceName ∈ interfaces

def IsInterface (name : String) : Prop := ∃ className, model.Declares className name

/-- A value of the class is a value of the type: the type is the class, an ancestor of it or an interface
that one of these declares. -/
def InstanceOf (className typeName : String) : Prop :=
  ∃ ancestor, Chain.Above model.baseOf className ancestor ∧ (ancestor = typeName ∨ model.Declares ancestor typeName)

variable {model}

/-! ### The walk of `ancestors` -/

theorem ancestorsFrom_eq_walk (steps : Nat) (visited : Finset String) (current : Option String) :
    model.ancestorsFrom steps visited current = Chain.walk model.baseOf steps visited current := by
  induction steps generalizing visited current with
  | zero => cases current <;> rfl
  | succ steps ih =>
    cases current with
    | none => rfl
    | some className => rw [ancestorsFrom, Chain.walk, ih, baseOf]

theorem ancestors_eq_walk (className : String) :
    model.ancestors className = Chain.walk model.baseOf (model.bases.size + 1) ∅ (some className) :=
  ancestorsFrom_eq_walk _ _ _

/-- The classes that have a base. -/
def derivedClasses (model : ClassModel) : Finset String := model.bases.keys.toFinset

theorem mem_derivedClasses (className base : String) (step : model.baseOf className = some base) :
    className ∈ model.derivedClasses := by
  rw [derivedClasses, List.mem_toFinset, Std.TreeMap.mem_keys, Std.TreeMap.mem_iff_isSome_getElem?]
  exact Option.isSome_iff_exists.2 ⟨base, step⟩

theorem card_derivedClasses : model.derivedClasses.card < model.bases.size + 1 := by
  have bound := List.toFinset_card_le model.bases.keys
  rw [Std.TreeMap.length_keys] at bound
  exact Nat.lt_succ_of_le bound

theorem mem_ancestors_iff {className ancestor : String} :
    ancestor ∈ model.ancestors className ↔ Chain.Above model.baseOf className ancestor := by
  rw [ancestors_eq_walk]
  exact Chain.mem_walk_iff mem_derivedClasses card_derivedClasses

theorem nearest_of_ancestors_split {p : String → Prop} {className ancestor : String}
    {before after : List String} (split : model.ancestors className = before ++ ancestor :: after)
    (lack : ∀ c ∈ before, ¬p c) (holds : p ancestor) :
    Chain.Nearest model.baseOf p className ancestor := by
  rw [ancestors_eq_walk] at split
  exact Chain.nearest_of_split mem_derivedClasses card_derivedClasses split lack holds

/-! ### Upcasts -/

theorem declares_iff {className interfaceName : String} : (match model.interfaces[className]? with
      | some interfaces => interfaces.contains interfaceName
      | none => false) = true ↔ model.Declares className interfaceName := by
  rw [Declares]
  cases model.interfaces[className]? with
  | none => simp
  | some interfaces => simp

theorem isUpcast_iff {className typeName : String} :
    model.isUpcast className typeName = true ↔ model.InstanceOf className typeName := by
  rw [isUpcast, Bool.or_eq_true, beq_iff_eq, List.any_eq_true]
  constructor
  · rintro (rfl | ⟨ancestor, member, found⟩)
    · exact ⟨className, Chain.Above.refl _, .inl rfl⟩
    · rw [Bool.or_eq_true, beq_iff_eq] at found
      exact ⟨ancestor, mem_ancestors_iff.1 member, found.imp id declares_iff.1⟩
  · rintro ⟨ancestor, above, found⟩
    refine .inr ⟨ancestor, mem_ancestors_iff.2 above, ?_⟩
    rw [Bool.or_eq_true, beq_iff_eq]
    exact found.imp id declares_iff.2

theorem InstanceOf.trans {className middle typeName : String} (isClass : ¬model.IsInterface middle)
    (first : model.InstanceOf className middle) (second : model.InstanceOf middle typeName) :
    model.InstanceOf className typeName := by
  obtain ⟨ancestor, above, same | declared⟩ := first
  · subst same
    obtain ⟨further, above', found⟩ := second
    exact ⟨further, above.trans above', found⟩
  · exact absurd ⟨ancestor, declared⟩ isClass

end BasicNext.ClassModel
