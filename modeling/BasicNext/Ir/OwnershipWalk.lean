import BasicNext.Ir.DefiniteAssignment

/-!
# What the ownership walk establishes

The walk visits each block once, breadth first, with the state some path brought to it. Its result is a
set of owned values per block: the same on every path into the block, and carried by the block's
instructions to the sets of its successors. What holds of the states of the walk is carried along as a
predicate, so that each use of the walk states only what its own predicate needs.
-/

namespace BasicNext.Ir

open Lib

variable {module : Module} {function : Function} {valueTypes : ValueTypes}

/-! ### The result of one block -/

/-- The owned values at the entry of a block, once the walk knows them. -/
def OwnershipWalk.ownedAt (walk : OwnershipWalk) (index : Nat) : Option (Finset ValueId) :=
  (walk.entryState index).map OwnershipState.owned

/-- The block at `index`, entered with `state`, passes its checks and hands its owned values on. -/
def BlockPasses (module : Module) (function : Function) (valueTypes : ValueTypes)
    (owned : Nat → Option (Finset ValueId)) (index : Nat) (state : OwnershipState) : Prop :=
  ∃ block after, function.blocks[index]? = some block
    ∧ checkInstructions module function block.instructions valueTypes state = .ok after
    ∧ (∀ value, block.terminator = .return value → checkReturn module function valueTypes after.owned value = .ok ())
    ∧ ∀ target ∈ blockSuccessors block.terminator, ∀ successor,
        function.indexOf target = some successor → owned successor = some after.owned

/-- A later state of the walk: what is known of a block's owned values stays. -/
structure OwnershipWalk.Extends (walk walk' : OwnershipWalk) : Prop where
  done_eq : walk'.done = walk.done
  owned : ∀ index values, walk.ownedAt index = some values → walk'.ownedAt index = some values

theorem OwnershipWalk.Extends.refl (walk : OwnershipWalk) : walk.Extends walk := ⟨rfl, fun _ _ h => h⟩

theorem OwnershipWalk.Extends.trans {first second third : OwnershipWalk}
    (h : first.Extends second) (h' : second.Extends third) : first.Extends third :=
  ⟨h'.done_eq.trans h.done_eq, fun index values known => h'.owned index values (h.owned index values known)⟩

/-! ### A predicate of the states -/

/-- `P` holds of every entry state of the walk, and each block with a state is visited or queued. -/
structure OwnershipWalk.Keeps (walk : OwnershipWalk) (P : Nat → OwnershipState → Prop) : Prop where
  holds : ∀ index state, walk.entryState index = some state → P index state
  queued : ∀ index state, walk.entryState index = some state → index ∈ walk.pending ∨ index ∈ walk.done

def OwnershipWalk.Visited (walk : OwnershipWalk) (module : Module) (function : Function)
    (valueTypes : ValueTypes) (P : Nat → OwnershipState → Prop) : Prop :=
  ∀ index ∈ walk.done, ∃ state, P index state ∧ walk.ownedAt index = some state.owned
    ∧ BlockPasses module function valueTypes walk.ownedAt index state

section
variable {P : Nat → OwnershipState → Prop} {walk walk' : OwnershipWalk}
  (mono : ∀ index owned consumed more, P index ⟨owned, consumed⟩ → P index ⟨owned, consumed ∪ more⟩)

include mono in
theorem merge_spec {state : OwnershipState} {target : Option Nat} (keeps : walk.Keeps P)
    (h : merge function state walk target = .ok walk')
    (arrives : ∀ index, target = some index → P index state) :
    ∃ index, target = some index ∧ walk.Extends walk' ∧ walk'.ownedAt index = some state.owned
      ∧ walk'.Keeps P := by
  simp only [merge, bind_eq_ok, orInvalid_eq_ok] at h
  obtain ⟨index, rfl, h⟩ := h
  refine ⟨index, rfl, ?_⟩
  cases known : walk.entryState index with
  | none =>
    simp only [known, pure_eq_ok] at h
    subst h
    refine ⟨⟨rfl, fun other values found => ?_⟩, by simp [OwnershipWalk.ownedAt], ?_, ?_⟩
    · by_cases same : other = index
      · subst same
        simp [OwnershipWalk.ownedAt, known] at found
      · simpa [OwnershipWalk.ownedAt, same] using found
    · intro other state' found
      by_cases same : other = index
      · subst same
        obtain rfl : state = state' := by simpa using found
        exact arrives other rfl
      · exact keeps.holds other state' (by simpa [same] using found)
    · intro other state' found
      by_cases same : other = index
      · simp [same]
      · rcases keeps.queued other state' (by simpa [same] using found) with waits | done
        · exact .inl (List.mem_append_left _ waits)
        · exact .inr done
  | some existing =>
    simp only [known, bind_eq_ok, rejectIf_eq_ok, pure_eq_ok, decide_eq_false_iff_not, ne_eq, not_not] at h
    obtain ⟨-, agree, rfl⟩ := h
    refine ⟨⟨rfl, fun other values found => ?_⟩, by simp [OwnershipWalk.ownedAt, agree], ?_, ?_⟩
    · by_cases same : other = index
      · subst same
        simpa [OwnershipWalk.ownedAt, known] using found
      · simpa [OwnershipWalk.ownedAt, same] using found
    · intro other state' found
      by_cases same : other = index
      · subst same
        obtain rfl := by simpa using found
        exact mono other _ _ _ (keeps.holds other existing known)
      · exact keeps.holds other state' (by simpa [same] using found)
    · intro other state' found
      by_cases same : other = index
      · exact keeps.queued other existing (same ▸ known)
      · exact keeps.queued other state' (by simpa [same] using found)

theorem BlockPasses.extends {index : Nat} {state : OwnershipState} (extends_ : walk.Extends walk')
    (h : BlockPasses module function valueTypes walk.ownedAt index state) :
    BlockPasses module function valueTypes walk'.ownedAt index state := by
  obtain ⟨block, after, found, passes, returns, hands⟩ := h
  exact ⟨block, after, found, passes, returns, fun target member successor same =>
    extends_.owned _ _ (hands target member successor same)⟩

variable
  (step : ∀ index state block after target successor, P index state → function.blocks[index]? = some block →
    checkInstructions module function block.instructions valueTypes state = .ok after →
    target ∈ blockSuccessors block.terminator → function.indexOf target = some successor →
    P successor after)
include mono step

theorem visitBlock_spec {index : Nat} (keeps : walk.Keeps P)
    (h : visitBlock module function valueTypes walk index = .ok walk') :
    walk.Extends walk' ∧ walk'.Keeps P ∧ ∃ state, P index state
      ∧ walk.ownedAt index = some state.owned
      ∧ BlockPasses module function valueTypes walk'.ownedAt index state := by
  simp only [visitBlock, bind_eq_ok, inBounds_eq_ok] at h
  obtain ⟨block, found, state, entered, after, passes, h⟩ := h
  have holds := keeps.holds index state entered
  have entryOwned : walk.ownedAt index = some state.owned := by
    simp [OwnershipWalk.ownedAt, entered]
  have arrives : ∀ target ∈ blockSuccessors block.terminator, ∀ successor,
      function.indexOf target = some successor → P successor after :=
    fun target member successor => step index state block after target successor holds found passes member
  cases terminator : block.terminator with
  | «return» value =>
    simp only [terminator, bind_eq_ok, pure_eq_ok] at h
    obtain ⟨⟨⟩, returns, rfl⟩ := h
    refine ⟨.refl walk, keeps, state, holds, entryOwned, block, after, found, passes, ?_, ?_⟩
    · intro other same
      obtain rfl : value = other := by simpa [terminator] using same
      exact returns
    · simp [terminator, blockSuccessors]
  | stop code =>
    simp only [terminator, pure_eq_ok] at h
    subst h
    refine ⟨.refl walk, keeps, state, holds, entryOwned, block, after, found, passes, ?_, ?_⟩
    · simp [terminator]
    · simp [terminator, blockSuccessors]
  | jump target =>
    simp only [terminator] at h
    obtain ⟨next, same, extends_, owned, keeps'⟩ :=
      merge_spec mono keeps h (arrives target (by simp [terminator, blockSuccessors]))
    refine ⟨extends_, keeps', state, holds, entryOwned, block, after, found, passes, ?_, ?_⟩
    · simp [terminator]
    · simp [terminator, blockSuccessors, same, owned]
  | branch condition thenBlock elseBlock =>
    simp only [terminator, bind_eq_ok] at h
    obtain ⟨middle, first, second⟩ := h
    obtain ⟨next, same, extends_, owned, keeps'⟩ :=
      merge_spec mono keeps first (arrives thenBlock (by simp [terminator, blockSuccessors]))
    obtain ⟨next', same', extends', owned', keeps''⟩ :=
      merge_spec mono keeps' second (arrives elseBlock (by simp [terminator, blockSuccessors]))
    refine ⟨extends_.trans extends', keeps'', state, holds, entryOwned, block, after, found, passes, ?_, ?_⟩
    · simp [terminator]
    · simp [terminator, blockSuccessors, same, same', owned', extends'.owned _ _ owned]

theorem ownershipLoop_spec {fuel : Nat} (keeps : walk.Keeps P) (visited : walk.Visited module function valueTypes P)
    (h : ownershipLoop module function valueTypes fuel walk = .ok walk') :
    (∀ index values, walk.ownedAt index = some values → walk'.ownedAt index = some values)
      ∧ walk'.Visited module function valueTypes P
      ∧ ∀ index state, walk'.entryState index = some state → index ∈ walk'.done := by
  induction fuel generalizing walk with
  | zero => cases h
  | succ fuel ih =>
    obtain ⟨entryState, pending, done⟩ := walk
    cases pending with
    | nil =>
      obtain rfl : _ = walk' := by simpa [ownershipLoop] using h
      refine ⟨fun _ _ known => known, visited, fun index state known => ?_⟩
      simpa using keeps.queued index state known
    | cons index pending =>
      simp only [ownershipLoop] at h
      split at h
      · next seen =>
        have popped : OwnershipWalk.Keeps ⟨entryState, pending, done⟩ P := by
          refine ⟨keeps.holds, fun other state known => ?_⟩
          rcases keeps.queued other state known with waits | old
          · rcases List.mem_cons.1 waits with rfl | waits
            · exact .inr seen
            · exact .inl waits
          · exact .inr old
        have rest := ih popped visited h
        exact rest
      · obtain ⟨next, visit, rest⟩ := bind_eq_ok.1 h
        have popped : OwnershipWalk.Keeps ⟨entryState, pending, insert index done⟩ P := by
          refine ⟨keeps.holds, fun other state known => ?_⟩
          rcases keeps.queued other state known with waits | old
          · rcases List.mem_cons.1 waits with rfl | waits
            · exact .inr (Finset.mem_insert_self _ _)
            · exact .inl waits
          · exact .inr (Finset.mem_insert_of_mem old)
        obtain ⟨extends_, keeps', state, holds, entryOwned, passes⟩ := visitBlock_spec mono step popped visit
        have visited' : next.Visited module function valueTypes P := by
          intro other member
          rw [extends_.done_eq] at member
          rcases Finset.mem_insert.1 member with rfl | member
          · exact ⟨state, holds, extends_.owned _ _ entryOwned, passes⟩
          · obtain ⟨state', holds', owned', passes'⟩ := visited other member
            exact ⟨state', holds', extends_.owned _ _ owned', passes'.extends extends_⟩
        obtain ⟨known, visited'', all⟩ := ih keeps' visited' rest
        exact ⟨fun other values found => known other values (extends_.owned other values found), visited'', all⟩

end

/-! ### The walk of an accepted function -/

theorem Checked.indexOf_eq {reachable : Finset Nat} {sets : MustDefined} {index : Nat}
    (checked : Checked module function reachable sets) (bound : index < function.blocks.length) :
    function.indexOf index = some index := by
  unfold Function.indexOf
  have ids : ∀ position (h : position < function.blocks.length), function.blocks[position].id = position :=
    fun position h => checked.block_id position _ (List.getElem?_eq_getElem h)
  rw [List.findIdx?_eq_some_iff_getElem]
  refine ⟨bound, by simp [ids], fun position earlier => ?_⟩
  rw [ids position (earlier.trans bound)]
  simp [earlier.ne]

/-- On every path of an accepted function, the walk checked each block with the owned values that every
path brings there, and with a state the predicate holds of. -/
theorem Checked.ownership_blocks {reachable : Finset Nat} {sets : MustDefined} {fuel : Nat}
    (checked : Checked module function reachable sets)
    (h : validateOwnershipOf fuel module function = .ok ()) (P : Nat → OwnershipState → Prop)
    (base : P function.entry {})
    (mono : ∀ index owned consumed more, P index ⟨owned, consumed⟩ → P index ⟨owned, consumed ∪ more⟩)
    (step : ∀ index state block after target, P index state → function.blocks[index]? = some block →
      checkInstructions module function block.instructions (ownershipTypes function) state = .ok after →
      function.Edge index target → P target after) :
    ∃ owned : Nat → Option (Finset ValueId), owned function.entry = some ∅
      ∧ ∀ path last, function.IsPath path last → ∃ state, P last state
        ∧ owned last = some state.owned
        ∧ ∃ block after, function.blocks[last]? = some block
          ∧ checkInstructions module function block.instructions (ownershipTypes function) state
              = .ok after
          ∧ (∀ value, block.terminator = .return value →
              checkReturn module function (ownershipTypes function) after.owned value = .ok ())
          ∧ ∀ target, function.Edge last target → owned target = some after.owned := by
  simp only [validateOwnershipOf, bind_eq_ok, orInvalid_eq_ok, checked.indexOf_eq checked.entry_lt, Option.some.injEq] at h
  obtain ⟨_, rfl, result, loop, -⟩ := h
  have edgeOf : ∀ {index block target successor}, function.blocks[index]? = some block →
      target ∈ blockSuccessors block.terminator → function.indexOf target = some successor →
        function.Edge index target ∧ successor = target := by
    intro index block target successor found member same
    have edge : function.Edge index target := by
      simpa [Function.Edge, Function.successors, found] using member
    rw [checked.indexOf_eq (checked.edge_lt _ _ edge)] at same
    exact ⟨edge, by simpa using same.symm⟩
  have start : OwnershipWalk.Keeps
      ⟨Function.update (fun _ => none) function.entry (some {}), [function.entry], ∅⟩ P := by
    refine ⟨fun index state found => ?_, fun index state found => ?_⟩
    · by_cases same : index = function.entry
      · subst same
        obtain rfl : _ = state := by simpa using found
        exact base
      · simp [same] at found
    · by_cases same : index = function.entry
      · simp [same]
      · simp [same] at found
  obtain ⟨known, visited, all⟩ := ownershipLoop_spec mono
    (fun index state block after target successor holds found passes member same => by
      obtain ⟨edge, rfl⟩ := edgeOf found member same
      exact step index state block after successor holds found passes edge)
    start (by simp [OwnershipWalk.Visited]) loop
  have entryOwned : result.ownedAt function.entry = some ∅ := known _ _ (by simp [OwnershipWalk.ownedAt])
  have atBlock : ∀ index values, result.ownedAt index = some values → ∃ state, P index state
      ∧ result.ownedAt index = some state.owned
      ∧ BlockPasses module function (ownershipTypes function) result.ownedAt index state := by
    intro index values found
    obtain ⟨state, entered, -⟩ := Option.map_eq_some_iff.1 found
    exact visited index (all index state entered)
  have handsOn : ∀ {index target block} {after : OwnershipState}, function.blocks[index]? = some block →
      (∀ target ∈ blockSuccessors block.terminator, ∀ successor,
        function.indexOf target = some successor → result.ownedAt successor = some after.owned) →
      function.Edge index target → result.ownedAt target = some after.owned := by
    intro index target block after found hands edge
    have member : target ∈ blockSuccessors block.terminator := by
      simpa [Function.Edge, Function.successors, found] using edge
    exact hands target member target (checked.indexOf_eq (checked.edge_lt _ _ edge))
  refine ⟨result.ownedAt, entryOwned, fun path last walk => ?_⟩
  have reached : ∃ values, result.ownedAt last = some values := by
    refine walk.induct (P := fun index => ∃ values, result.ownedAt index = some values)
      ⟨∅, entryOwned⟩ ?_
    rintro source target ⟨values, sourceOwned⟩ edge
    obtain ⟨state, -, -, block, after, found, -, -, hands⟩ := atBlock source values sourceOwned
    exact ⟨after.owned, handsOn found hands edge⟩
  obtain ⟨values, lastOwned⟩ := reached
  obtain ⟨state, holds, entered, block, after, found, passes, returns, hands⟩ := atBlock last values lastOwned
  exact ⟨state, holds, entered, block, after, found, passes, returns, fun target edge => handsOn found hands edge⟩

/-! ### The walk ends -/

variable {walk : OwnershipWalk}

/-- A check that does not run out of fuel. -/
def Halts {α : Type} (check : Check α) : Prop := Ensures (fun _ => True) (· ≠ .outOfFuel) check

/-- The blocks that the walk has not met. -/
def OwnershipWalk.unmet (walk : OwnershipWalk) (function : Function) : Finset Nat :=
  (Finset.range function.blocks.length).filter fun index => (walk.entryState index).isNone

/-- The blocks that are queued or can still be. -/
def OwnershipWalk.left (walk : OwnershipWalk) (function : Function) : Nat :=
  walk.pending.length + (walk.unmet function).card

theorem unmet_update {target : Nat} {state : OwnershipState} {pending : List Nat} :
    OwnershipWalk.unmet ⟨Function.update walk.entryState target (some state), pending, walk.done⟩ function ⊆
      (walk.unmet function).erase target := by
  intro index member
  obtain ⟨within, fresh⟩ := Finset.mem_filter.1 member
  by_cases same : index = target
  · simp [same] at fresh
  · exact Finset.mem_erase.2 ⟨same, Finset.mem_filter.2 ⟨within, by simpa [same] using fresh⟩⟩

theorem rejectIf_ends (bad : Bool) (message : String) (span : Span) : Halts (rejectIf bad message span) := by
  cases bad <;> simp [Halts, rejectIf, invalidIr, Ensures]

/-- A block that is queued has been met. -/
theorem merge_left (state : OwnershipState) (id : BlockId) : Ensures (fun walk' => walk'.left function ≤ walk.left function)
    (· ≠ .outOfFuel) (merge function state walk (function.indexOf id)) := by
  rw [merge]
  cases found : function.indexOf id with
  | none => exact nofun
  | some target =>
    refine Ensures.bind (Q := (target = ·)) rfl fun _ same => ?_
    subst same
    cases known : walk.entryState target with
    | some existing =>
      refine (rejectIf_ends _ _ _).bind fun _ _ => Nat.add_le_add_left ?_ _
      exact (Finset.card_le_card unmet_update).trans Finset.card_erase_le
    | none =>
      have inside := (List.findIdx?_eq_some_iff_findIdx_eq.1 found).1
      have fewer := Finset.card_erase_lt_of_mem (s := walk.unmet function)
        (Finset.mem_filter.2 ⟨Finset.mem_range.2 inside, by simp [known]⟩)
      show (walk.pending ++ [target]).length + _ ≤ walk.pending.length + _
      rw [List.length_append, Nat.add_assoc, List.length_singleton, Nat.one_add]
      exact Nat.add_le_add_left ((Finset.card_le_card unmet_update).trans_lt fewer) _

theorem inBounds_ends {α : Type} (value : Option α) : Halts (inBounds value) := by
  cases value <;> simp [Halts, inBounds, Ensures]

theorem consumeAll_ends (span : Span) (values : List ValueId) (state : OwnershipState) :
    Halts (consumeAll span values state) := by
  induction values generalizing state with
  | nil => trivial
  | cons value rest ih => exact (rejectIf_ends _ _ _).bind fun _ _ => ih _

theorem checkInstructions_ends (instructions : List Instruction) (state : OwnershipState) :
    Halts (checkInstructions module function instructions valueTypes state) :=
  Ensures.foldlM trivial fun state instruction _ _ => (rejectIf_ends _ _ _).bind fun _ _ =>
    (rejectIf_ends _ _ _).bind fun _ _ => (rejectIf_ends _ _ _).bind fun _ _ => (consumeAll_ends _ _ _).bind
      fun _ _ => by split <;> trivial

theorem checkReturn_ends (owned : Finset ValueId) (value : Option ValueId) :
    Halts (checkReturn module function valueTypes owned value) := by
  rw [checkReturn]
  split
  · exact (rejectIf_ends _ _ _).bind fun _ _ => rejectIf_ends _ _ _
  · exact rejectIf_ends _ _ _

theorem visitBlock_left (index : Nat) : Ensures (fun walk' => walk'.left function ≤ walk.left function)
    (· ≠ .outOfFuel) (visitBlock module function valueTypes walk index) := by
  refine (inBounds_ends _).bind fun block _ => (inBounds_ends _).bind fun state _ =>
    (checkInstructions_ends _ _).bind fun after _ => ?_
  split
  · exact (checkReturn_ends _ _).bind fun _ _ => le_rfl
  · exact le_rfl
  · exact merge_left after _
  · exact (merge_left after _).bind fun walk' fewer => (merge_left after _).mono fun _ fewer' => fewer'.trans fewer

theorem ownershipLoop_ends {fuel : Nat} (enough : walk.left function < fuel) :
    Halts (ownershipLoop module function valueTypes fuel walk) := by
  induction fuel generalizing walk with
  | zero => omega
  | succ fuel ih =>
    rw [ownershipLoop]
    split
    · trivial
    · next index pending queued =>
      have fewer : pending.length + (walk.unmet function).card < fuel := by
        rw [OwnershipWalk.left, queued, List.length_cons] at enough
        omega
      split
      · exact ih fewer
      · exact (visitBlock_left index).bind fun walk' less => ih (less.trans_lt fewer)

/-- The check of ownership ends for every function: no block is queued twice. -/
theorem validateOwnershipOf_ends (module : Module) (function : Function) (more : Nat) :
    validateOwnershipOf (function.blocks.length + 2 + more) module function ≠ .error .outOfFuel := by
  intro stuck
  suffices ends : Halts (validateOwnershipOf (function.blocks.length + 2 + more) module function) by
    rw [stuck] at ends
    exact ends rfl
  rw [validateOwnershipOf]
  cases function.indexOf function.entry with
  | none => exact nofun
  | some entry =>
    refine Ensures.bind (Q := fun _ => True) trivial fun entry _ => (ownershipLoop_ends ?_).bind fun _ _ => trivial
    have all (walk : OwnershipWalk) : (walk.unmet function).card ≤ function.blocks.length :=
      (Finset.card_filter_le _ _).trans (Finset.card_range _).le
    exact (Nat.add_le_add_left (all _) 1).trans_lt (by omega)

end BasicNext.Ir
