import BasicNext.Ir.Validate.Fields

/-!
# Field layouts along the base chain

The class bases of an accepted module draw a chain from every class, and every walk over it ends. A layout
is compared with the layout of the direct base only; so along a chain slots are kept exactly when they are
kept where a direct base has no layout.
-/

namespace BasicNext.Ir

open Lib

variable (module : Module)

/-! ### What is proved of a module -/

def directBase (className : String) : Option String := module.classModel.baseOf className

def HasLayout (className : String) : Prop := (module.fieldLayouts[className]?).isSome

def FieldLayout.KeptBy (base derived : FieldLayout) : Prop :=
  ∀ (slot : Nat) (field : FieldLayoutEntry), base.fields[slot]? = some field →
    ∃ field', derived.fields[slot]? = some field' ∧ sameLayoutField field' field = true

def KeepsSlots (className ancestor : String) : Prop :=
  ∀ derived base : FieldLayout, module.fieldLayouts[className]? = some derived →
    module.fieldLayouts[ancestor]? = some base → base.KeptBy derived

/-- The walk up the base chain from every class ends. -/
def WalksEnd : Prop :=
  ∀ target className, ∃ fuel answer, ∀ more, ownerChainReaches module target (fuel + more) className = .ok answer

/-- The laws of the hierarchy: no cycle, no endless walk and every ancestor's field in its slot. -/
structure LayoutsSound : Prop where
  acyclic : Chain.Acyclic (directBase module)
  walksEnd : WalksEnd module
  slotsKept : ∀ className ancestor, Chain.StrictlyAbove (directBase module) className ancestor →
    KeepsSlots module className ancestor

def GapsKept : Prop :=
  ∀ className base ancestor, directBase module className = some base → ¬HasLayout module base →
    Chain.Nearest (directBase module) (HasLayout module) base ancestor →
    KeepsSlots module className ancestor

variable {module}

/-! ### Class bases -/

theorem ends_of_baseChainAcyclic {span : Span} {fuel : Nat} {seen : Finset String} {className : String}
    (acyclic : baseChainAcyclic module span fuel seen className = .ok ()) :
    Chain.Ends (directBase module) className := by
  induction fuel generalizing seen className with
  | zero => cases acyclic
  | succ fuel ih =>
    rw [baseChainAcyclic] at acyclic
    cases step : module.classModel.bases[className]? with
    | none => exact .top step
    | some parent =>
      rw [step] at acyclic
      obtain ⟨_, _, rest⟩ := bind_eq_ok.1 acyclic
      exact .up step (ih rest)

theorem ends_of_validateClassBases {fuel : Nat} (accepted : validateClassBases fuel module = .ok ())
    (className : String) : Chain.Ends (directBase module) className := by
  cases step : directBase module className with
  | none => exact .top step
  | some base =>
    have entry : (className, base) ∈ module.classModel.bases.toList := Std.TreeMap.mem_toList_iff_getElem?_eq_some.2 step
    have checked := forM_eq_ok.1 accepted _ entry
    obtain ⟨_, _, rest⟩ := bind_eq_ok.1 checked
    obtain ⟨_, acyclic, _⟩ := bind_eq_ok.1 rest
    exact ends_of_baseChainAcyclic acyclic

theorem walk_ends {target className : String} (ends : Chain.Ends (directBase module) className) :
    ∃ fuel answer, ∀ more, ownerChainReaches module target (fuel + more) className = .ok answer := by
  induction ends with
  | @top className top =>
    refine ⟨1, className == target, fun more => ?_⟩
    rw [Nat.add_comm, ownerChainReaches, show module.classModel.bases[className]? = none from top]
    split <;> simp_all
  | @up className base step _ ih =>
    obtain ⟨fuel, answer, found⟩ := ih
    cases same : className == target with
    | true =>
      refine ⟨1, true, fun more => ?_⟩
      rw [Nat.add_comm, ownerChainReaches, same]
      rfl
    | false =>
      refine ⟨fuel + 1, answer, fun more => ?_⟩
      rw [Nat.add_right_comm, ownerChainReaches, same, show module.classModel.bases[className]? = some base from step]
      exact found more

/-! ### Slots -/

theorem sameLayoutField_trans {first second third : FieldLayoutEntry}
    (one : sameLayoutField third second = true) (two : sameLayoutField second first = true) :
    sameLayoutField third first = true := by
  simp only [sameLayoutField, Bool.and_eq_true, beq_iff_eq] at one two ⊢
  obtain ⟨⟨⟨⟨id, slot⟩, ty⟩, owner⟩, weak⟩ := one
  obtain ⟨⟨⟨⟨id', slot'⟩, ty'⟩, owner'⟩, weak'⟩ := two
  exact ⟨⟨⟨⟨id.trans id', slot.trans slot'⟩, ty.trans ty'⟩, owner.trans owner'⟩, weak.trans weak'⟩

theorem FieldLayout.KeptBy.trans {first second third : FieldLayout} (one : first.KeptBy second)
    (two : second.KeptBy third) : first.KeptBy third := by
  intro slot field found
  obtain ⟨field', found', same⟩ := one slot field found
  obtain ⟨field'', found'', same'⟩ := two slot field' found'
  exact ⟨field'', found'', sameLayoutField_trans same' same⟩

theorem KeepsSlots.trans {className middle ancestor : String} (has : HasLayout module middle)
    (one : KeepsSlots module className middle) (two : KeepsSlots module middle ancestor) :
    KeepsSlots module className ancestor := by
  intro derived base derivedFound baseFound
  obtain ⟨layout, found⟩ := Option.isSome_iff_exists.1 has
  exact (two layout base found baseFound).trans (one derived layout derivedFound found)

theorem KeepsSlots.self (className : String) : KeepsSlots module className className := by
  intro derived base derivedFound baseFound slot field found
  obtain rfl := Option.some.inj (derivedFound.symm.trans baseFound)
  exact ⟨field, found, by simp [sameLayoutField]⟩

theorem keptBy_of_prefix {derived base : FieldLayout} (kept : (!(derived.fields.length < base.fields.length
        || !(derived.fields.zip base.fields).all fun (derived, base) => sameLayoutField derived base))
      = true) : base.KeptBy derived := by
  intro slot field found
  have bound : slot < base.fields.length := (List.getElem?_eq_some_iff.1 found).1
  simp only [Bool.not_eq_true', Bool.or_eq_false_iff, decide_eq_false_iff_not, Nat.not_lt, Bool.not_eq_false'] at kept
  obtain ⟨longer, all⟩ := kept
  have inside : slot < derived.fields.length := by omega
  have pair : (derived.fields[slot], field) ∈ derived.fields.zip base.fields := by
    apply List.mem_of_getElem? (i := slot)
    rw [List.getElem?_zip_eq_some]
    exact ⟨List.getElem?_eq_getElem inside, found⟩
  exact ⟨derived.fields[slot], List.getElem?_eq_getElem inside, List.all_eq_true.1 all _ pair⟩

theorem keepsSlots_directBase {fuel : Nat} (accepted : validateFieldLayouts fuel module = .ok ())
    {className base : String} (step : directBase module className = some base) :
    KeepsSlots module className base := by
  intro derived layout derivedFound baseFound
  obtain ⟨_, _, loop⟩ := bind_eq_ok.1 accepted
  have checked := forM_eq_ok.1 loop _ (Std.TreeMap.mem_toList_iff_getElem?_eq_some.2 derivedFound)
  obtain ⟨_, _, rest⟩ := bind_eq_ok.1 checked
  obtain ⟨_, _, kept⟩ := bind_eq_ok.1 rest
  have same : preservesBasePrefix module className derived = true := by
    rw [rejectIf_eq_ok, Bool.not_eq_false'] at kept
    exact kept
  have step' : module.classModel.bases[className]? = some base := step
  rw [preservesBasePrefix, step'] at same
  dsimp only at same
  rw [baseFound] at same
  exact keptBy_of_prefix same

/-! ### All ancestors -/

theorem keepsSlots_of_base {className base : String} (gaps : GapsKept module)
    (step : directBase module className = some base) (direct : KeepsSlots module className base)
    (above : ∀ middle ancestor, Chain.Above (directBase module) base middle →
      Chain.Above (directBase module) middle ancestor → KeepsSlots module middle ancestor)
    {ancestor : String} (after : Chain.Above (directBase module) base ancestor) :
    KeepsSlots module className ancestor := by
  by_cases ancestorHas : HasLayout module ancestor
  · obtain ⟨nearest, near⟩ := Chain.exists_nearest after ancestorHas
    have rest : KeepsSlots module nearest ancestor :=
      above nearest ancestor near.above (near.first ancestor after ancestorHas)
    have first : KeepsSlots module className nearest := by
      by_cases baseHas : HasLayout module base
      · exact KeepsSlots.trans baseHas direct (above base nearest (Chain.Above.refl base) near.above)
      · exact gaps className base nearest step baseHas near
    exact KeepsSlots.trans near.holds first rest
  · intro _ _ _ found
    exact absurd (Option.isSome_iff_exists.2 ⟨_, found⟩) ancestorHas

theorem keepsSlots_above {fuel : Nat} (accepted : validateFieldLayouts fuel module = .ok ())
    (gaps : GapsKept module) {className : String} (ends : Chain.Ends (directBase module) className) :
    ∀ middle ancestor, Chain.Above (directBase module) className middle →
      Chain.Above (directBase module) middle ancestor → KeepsSlots module middle ancestor := by
  induction ends with
  | @top className top =>
    intro middle ancestor first second
    rcases (first.trans second).eq_or with rfl | after
    · rcases first.eq_or with rfl | after
      · exact KeepsSlots.self _
      · exact absurd after (Chain.not_strictlyAbove_of_none top)
    · exact absurd after (Chain.not_strictlyAbove_of_none top)
  | @up className base step _ ih =>
    intro middle ancestor first second
    rcases Chain.above_iff.1 first with rfl | ⟨base', step', later⟩
    · rcases second.eq_or with rfl | after
      · exact KeepsSlots.self _
      · exact keepsSlots_of_base gaps step (keepsSlots_directBase accepted step) ih
          ((Chain.strictlyAbove_of_next step).1 after)
    · obtain rfl := Option.some.inj (step.symm.trans step')
      exact ih middle ancestor later second

/-- In an accepted module the hierarchy is sound exactly when no layout is lost behind a class without one. -/
theorem layoutsSound_iff (fuel : Nat) (module : Module) (basesAccepted : validateClassBases fuel module = .ok ())
    (layoutsAccepted : validateFieldLayouts fuel module = .ok ()) :
    LayoutsSound module ↔ GapsKept module := by
  have ends := ends_of_validateClassBases basesAccepted
  constructor
  · intro sound className base ancestor step _ near
    exact sound.slotsKept className ancestor ((Chain.strictlyAbove_of_next step).2 near.above)
  · intro gaps
    exact {
      acyclic := Chain.acyclic_of_ends ends
      walksEnd := fun _ className => walk_ends (ends className)
      slotsKept := fun className ancestor after =>
        keepsSlots_above layoutsAccepted gaps (ends className) className ancestor
          (Chain.Above.refl className) after.above }

/-! ### A class without a layout between two with one -/

def layoutEntry (id slot : Nat) (owner : String) : FieldLayoutEntry :=
  { id := id, slot := slot, ty := .string, declaringOwner := owner, weak := false, span := defaultModuleSpan }

def fieldsFunction (name : String) : Function :=
  { name := name ++ ".$fields", kind := .user, owner := some name, parameters := [], weakSymbols := ∅,
    returnType := .named "VOID", entry := 0, blocks := [], span := defaultModuleSpan }

/-- `C` extends `B`, which has no layout, and `B` extends `A`. -/
def threeClasses (ofA ofC : List FieldLayoutEntry) : Module where
  functions := ["A", "B", "C"].map fieldsFunction
  fieldNames := ["x", "y"]
  fieldLayouts := Std.TreeMap.ofList
    [("A", FieldLayout.mk "A" ofA defaultModuleSpan), ("C", FieldLayout.mk "C" ofC defaultModuleSpan)]
  classModel := { bases := Std.TreeMap.ofList [("B", "A"), ("C", "B")] }

def lostSlot : Module := threeClasses [layoutEntry 0 0 "A"] [layoutEntry 1 0 "C"]

def keptSlot : Module := threeClasses [layoutEntry 0 0 "A"] [layoutEntry 0 0 "A", layoutEntry 1 1 "C"]

/-- The field of `A` is lost in `C`, and the module is accepted. -/
theorem lostSlot_not_sound :
    validateClassBases 4 lostSlot = .ok () ∧ validateFieldLayouts 4 lostSlot = .ok () ∧ ¬LayoutsSound lostSlot := by
  refine ⟨rfl, rfl, fun sound => ?_⟩
  have after : Chain.StrictlyAbove (directBase lostSlot) "C" "A" :=
    .tail (.single (b := "B") (by rw [Chain.Step]; rfl)) (by rw [Chain.Step]; rfl)
  obtain ⟨field, found, same⟩ := sound.slotsKept "C" "A" after _ _ rfl rfl 0 (layoutEntry 0 0 "A") rfl
  obtain rfl : layoutEntry 1 0 "C" = field := Option.some.inj found
  exact absurd same (by decide)

theorem directBase_threeClasses {ofA ofC : List FieldLayoutEntry} {className base : String}
    (step : directBase (threeClasses ofA ofC) className = some base) :
    (className, base) ∈ [("B", "A"), ("C", "B")] :=
  Std.TreeMap.mem_toList_iff_getElem?_eq_some.2 step

theorem keptSlot_gapsKept : GapsKept keptSlot := by
  intro className base ancestor step lacks near
  rcases List.mem_pair.1 (directBase_threeClasses step) with same | same
  · cases same
    exact absurd rfl lacks
  · cases same
    have same : ancestor = "A" := by
      rcases Chain.above_iff.1 near.above with rfl | ⟨next, up, rest⟩
      · exact absurd near.holds lacks
      · obtain rfl : "A" = next := Option.some.inj up
        rcases rest.eq_or with rfl | after
        · rfl
        · exact absurd after (Chain.not_strictlyAbove_of_none rfl)
    subst same
    intro derived base derivedFound baseFound slot field found
    obtain rfl := Option.some.inj derivedFound
    obtain rfl := Option.some.inj baseFound
    match slot with
    | 0 =>
      obtain rfl : layoutEntry 0 0 "A" = field := Option.some.inj found
      exact ⟨layoutEntry 0 0 "A", rfl, by decide⟩
    | _ + 1 => cases found

theorem layoutsSound_iff_keptSlot : LayoutsSound keptSlot := (layoutsSound_iff 4 keptSlot rfl rfl).2 keptSlot_gapsKept

end BasicNext.Ir
