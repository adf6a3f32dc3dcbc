import BasicNext.Ir.Paths

/-!
# What an accepted function satisfies

The loops of the validator end in sets with a meaning of their own: the reachable blocks are closed
under edges, the must-defined sets solve the data-flow equations, and every value has one defining
instruction. Each fact is read off its loop once, here; what follows about paths uses only these facts.
-/

namespace BasicNext.Ir

open Lib

variable {module : Module} {function : Function} {reachable : Finset Nat} {index : Nat}
  {value : ValueId}

/-! ### Reachable blocks -/

theorem reachableLoop_closed {fuel : Nat} {pending : List Nat} {result : Finset Nat}
    (h : reachableLoop function fuel reachable pending = .ok result)
    (closed : ∀ u ∈ reachable, ∀ v, function.Edge u v → v ∈ reachable ∨ v ∈ pending) :
    reachable ⊆ result ∧ (∀ v ∈ pending, v ∈ result)
      ∧ ∀ u ∈ result, ∀ v, function.Edge u v → v ∈ result := by
  induction fuel generalizing reachable pending with
  | zero =>
    cases pending with
    | nil =>
      obtain rfl : reachable = result := by simpa [reachableLoop] using h
      exact ⟨subset_rfl, by simp, fun u hu v edge => by simpa using closed u hu v edge⟩
    | cons index pending => cases h
  | succ fuel ih =>
    cases pending with
    | nil =>
      obtain rfl : reachable = result := by simpa [reachableLoop] using h
      exact ⟨subset_rfl, by simp, fun u hu v edge => by simpa using closed u hu v edge⟩
    | cons index pending =>
      rw [reachableLoop] at h
      split at h
      · next seen =>
        obtain ⟨grows, takes, ends⟩ := ih h fun u hu v edge => by
          rcases closed u hu v edge with known | waiting
          · exact .inl known
          · rcases List.mem_cons.1 waiting with rfl | waiting
            · exact .inl seen
            · exact .inr waiting
        refine ⟨grows, fun v hv => ?_, ends⟩
        rcases List.mem_cons.1 hv with rfl | hv
        · exact grows seen
        · exact takes v hv
      · obtain ⟨grows, takes, ends⟩ := ih h fun u hu v edge => by
          rcases Finset.mem_insert.1 hu with rfl | hu
          · exact .inr (List.mem_append_left _ (List.mem_reverse.2 edge))
          · rcases closed u hu v edge with known | waiting
            · exact .inl (Finset.mem_insert_of_mem known)
            · rcases List.mem_cons.1 waiting with rfl | waiting
              · exact .inl (Finset.mem_insert_self _ _)
              · exact .inr (List.mem_append_right _ waiting)
        refine ⟨fun u hu => grows (Finset.mem_insert_of_mem hu), fun v hv => ?_, ends⟩
        rcases List.mem_cons.1 hv with rfl | hv
        · exact grows (Finset.mem_insert_self _ _)
        · exact takes v (List.mem_append_right _ hv)

/-! ### One definition per value -/

/-- No value has two defining instructions. -/
def Function.DefinesOnce (function : Function) : Prop := (function.instructions.filterMap instructionDefines).Nodup

theorem collectValues_definesOnce {allValues : Finset ValueId}
    (h : collectValues function = .ok allValues) : function.DefinesOnce := by
  -- the accumulator holds the values defined so far, so a rejected insertion is a repeated one
  have scan : ∀ (instructions : List Instruction) (seen result : Finset ValueId),
      instructions.foldlM (collectValue function) seen = .ok result → (instructions.filterMap instructionDefines).Nodup
          ∧ ∀ v ∈ instructions.filterMap instructionDefines, v ∉ seen := by
    intro instructions
    induction instructions with
    | nil => simp
    | cons instruction instructions ih =>
      intro seen result loop
      obtain ⟨next, first, rest⟩ := foldlM_cons_eq_ok.1 loop
      obtain ⟨nodup, fresh⟩ := ih next result rest
      unfold collectValue at first
      cases defined : instructionDefines instruction with
      | none =>
        obtain rfl : seen = next := by simpa [defined] using first
        rw [List.filterMap_cons_none defined]
        exact ⟨nodup, fresh⟩
      | some destination =>
        simp only [defined, bind_eq_ok, rejectIf_eq_ok, pure_eq_ok] at first
        obtain ⟨-, new, rfl⟩ := first
        rw [List.filterMap_cons_some defined]
        refine ⟨List.nodup_cons.2 ⟨fun again => ?_, nodup⟩, fun v hv => ?_⟩
        · exact fresh destination again (Finset.mem_insert_self _ _)
        · rcases List.mem_cons.1 hv with rfl | hv
          · simpa using new
          · exact fun old => fresh v hv (Finset.mem_insert_of_mem old)
  exact (scan _ _ _ h).1

section
variable (once : function.DefinesOnce) {block : BasicBlock} {instruction other : Instruction}
  {before after : List Instruction}
include once

theorem Function.DefinesOnce.block_nodup (found : function.blocks[index]? = some block) :
    (block.instructions.filterMap instructionDefines).Nodup := by
  unfold Function.DefinesOnce Function.instructions at once
  rw [List.filterMap_flatMap, List.nodup_flatMap] at once
  exact once.1 block (List.mem_of_getElem? found)

theorem Function.DefinesOnce.not_mem_before (found : function.blocks[index]? = some block)
    (instructions : block.instructions = before ++ instruction :: after)
    (defines : instructionDefines instruction = some value) (member : other ∈ before) :
    instructionDefines other ≠ some value := by
  intro defines'
  have within := once.block_nodup found
  rw [instructions, List.filterMap_append, List.filterMap_cons_some defines] at within
  exact (List.nodup_append.1 within).2.2 value (List.mem_filterMap.2 ⟨other, member, defines'⟩)
    value List.mem_cons_self rfl

theorem Function.DefinesOnce.block_eq {index' : Nat} (member : instruction ∈ function.instructionsAt index)
    (defines : instructionDefines instruction = some value)
    (member' : other ∈ function.instructionsAt index')
    (defines' : instructionDefines other = some value) : index = index' := by
  unfold Function.DefinesOnce Function.instructions at once
  rw [List.filterMap_flatMap, List.nodup_flatMap] at once
  have apart := List.pairwise_iff_getElem.1 once.2
  unfold Function.instructionsAt at member member'
  cases found : function.blocks[index]? with
  | none => simp [found] at member
  | some block =>
    cases found' : function.blocks[index']? with
    | none => simp [found'] at member'
    | some block' =>
      rw [found] at member
      rw [found'] at member'
      obtain ⟨bound, rfl⟩ := List.getElem?_eq_some_iff.1 found
      obtain ⟨bound', rfl⟩ := List.getElem?_eq_some_iff.1 found'
      have here : value ∈ function.blocks[index].instructions.filterMap instructionDefines :=
        List.mem_filterMap.2 ⟨instruction, member, defines⟩
      have there : value ∈ function.blocks[index'].instructions.filterMap instructionDefines :=
        List.mem_filterMap.2 ⟨other, member', defines'⟩
      rcases Nat.lt_trichotomy index index' with order | same | order
      · exact absurd there (apart _ _ bound bound' order here)
      · exact same
      · exact absurd here (apart _ _ bound' bound order there)

omit once in
theorem Function.mem_instructions (member : instruction ∈ function.instructionsAt index) :
    instruction ∈ function.instructions := by
  unfold Function.instructionsAt at member
  cases found : function.blocks[index]? with
  | none => simp [found] at member
  | some block =>
    rw [found] at member
    exact List.mem_flatMap.2 ⟨block, List.mem_of_getElem? found, member⟩

theorem Function.DefinesOnce.instruction_eq (member : instruction ∈ function.instructions)
    (defines : instructionDefines instruction = some value) (member' : other ∈ function.instructions)
    (defines' : instructionDefines other = some value) : instruction = other := by
  obtain ⟨before, after, split⟩ := List.append_of_mem member
  unfold Function.DefinesOnce at once
  rw [split, List.filterMap_append, List.filterMap_cons_some defines, List.nodup_append, List.nodup_cons] at once
  obtain ⟨-, ⟨notAfter, -⟩, notBefore⟩ := once
  rw [split] at member'
  rcases List.mem_append.1 member' with earlier | later
  · exact absurd rfl (notBefore value (List.mem_filterMap.2 ⟨other, earlier, defines'⟩) value
      List.mem_cons_self)
  · rcases List.mem_cons.1 later with rfl | later
    · rfl
    · exact absurd (List.mem_filterMap.2 ⟨other, later, defines'⟩) notAfter

end

/-! ### The data-flow equations -/

/-- The sets of the blocks in `reachable` solve the must-defined equations. -/
def MustDefined.Solves (sets : MustDefined) (function : Function) (reachable : Finset Nat) : Prop :=
  ∀ index < function.blocks.length, index ∈ reachable → sets.incoming index = nextIncoming function reachable sets index
      ∧ sets.outgoing index = defineAll (function.instructionsAt index) (sets.incoming index)

theorem updateBlock_unchanged {state : MustDefined × Bool} (h : (updateBlock function reachable state index).2 = false) :
    updateBlock function reachable state index = (state.1, false)
      ∧ state.2 = false
      ∧ (index ∈ reachable → state.1.incoming index = nextIncoming function reachable state.1 index
            ∧ state.1.outgoing index
                = defineAll (function.instructionsAt index) (state.1.incoming index)) := by
  obtain ⟨sets, changed⟩ := state
  unfold updateBlock at h ⊢
  by_cases member : index ∈ reachable
  · simp only [member, not_true_eq_false, if_false, Bool.or_eq_false_iff, bne_eq_false_iff_eq] at h ⊢
    obtain ⟨⟨rfl, incoming⟩, outgoing⟩ := h
    rw [incoming] at outgoing ⊢
    rw [outgoing]
    simp
  · simp_all

theorem round_unchanged {sets next : MustDefined} (h : round function reachable sets = (next, false)) :
    next = sets ∧ sets.Solves function reachable := by
  have scan : ∀ (indices : List Nat) (state : MustDefined × Bool),
      (indices.foldl (updateBlock function reachable) state).2 = false →
        (indices.foldl (updateBlock function reachable) state).1 = state.1 ∧ state.2 = false
          ∧ ∀ index ∈ indices, index ∈ reachable → state.1.incoming index = nextIncoming function reachable state.1 index
                ∧ state.1.outgoing index
                    = defineAll (function.instructionsAt index) (state.1.incoming index) := by
    intro indices
    induction indices with
    | nil => exact fun state quiet => ⟨rfl, quiet, by simp⟩
    | cons index indices ih =>
      intro state quiet
      obtain ⟨same, first, equations⟩ := ih (updateBlock function reachable state index) quiet
      obtain ⟨step, before, here⟩ := updateBlock_unchanged first
      rw [step] at same equations
      refine ⟨by rw [List.foldl_cons, step]; exact same, before, fun other member => ?_⟩
      rcases List.mem_cons.1 member with rfl | member
      · exact here
      · exact equations other member
  obtain ⟨same, -, equations⟩ := scan (List.range function.blocks.length) (sets, false) (by
    rw [← round, h])
  rw [← round, h] at same
  exact ⟨same, fun index bound => equations index (List.mem_range.2 bound)⟩

theorem mustDefinedLoop_solves {fuel : Nat} {sets result : MustDefined}
    (h : mustDefinedLoop function reachable fuel sets = .ok result) :
    result.Solves function reachable := by
  induction fuel generalizing sets with
  | zero => cases h
  | succ fuel ih =>
    rw [mustDefinedLoop] at h
    cases outcome : round function reachable sets with
    | mk next changed =>
      rw [outcome] at h
      cases changed with
      | true => exact ih h
      | false =>
        obtain ⟨rfl, solves⟩ := round_unchanged outcome
        obtain rfl : next = result := by simpa using h
        exact solves

theorem mem_defineAll {instructions : List Instruction} {defined : Finset ValueId} :
    value ∈ defineAll instructions defined ↔
      value ∈ defined ∨ ∃ instruction ∈ instructions, instructionDefines instruction = some value := by
  unfold defineAll
  induction instructions generalizing defined with
  | nil => simp
  | cons instruction instructions ih =>
    rw [List.foldl_cons, ih]
    cases found : instructionDefines instruction with
    | none => simp [found]
    | some destination => simp [found, or_assoc, eq_comm, or_left_comm]

theorem nextIncoming_subset {sets : MustDefined} {predecessor : Nat}
    (edge : predecessor ∈ function.predecessors index) (member : predecessor ∈ reachable) :
    nextIncoming function reachable sets index ⊆ sets.outgoing predecessor := by
  have meets : ∀ (rest : List Nat) (start : Finset ValueId),
      rest.foldl (fun intersection other => intersection ∩ sets.outgoing other) start ⊆ start
        ∧ ∀ other ∈ rest, rest.foldl (fun intersection other => intersection ∩ sets.outgoing other) start
            ⊆ sets.outgoing other := by
    intro rest
    induction rest with
    | nil => simp
    | cons first rest ih =>
      intro start
      obtain ⟨below, each⟩ := ih (start ∩ sets.outgoing first)
      refine ⟨below.trans Finset.inter_subset_left, fun other hother => ?_⟩
      rcases List.mem_cons.1 hother with rfl | hother
      · exact below.trans Finset.inter_subset_right
      · exact each other hother
  have kept : predecessor ∈ (function.predecessors index).filter (· ∈ reachable) := by
    simpa using ⟨edge, member⟩
  unfold nextIncoming
  split
  · simp
  · cases arrivals : (function.predecessors index).filter (· ∈ reachable) with
    | nil => simp
    | cons first rest =>
      rw [arrivals] at kept
      rcases List.mem_cons.1 kept with rfl | kept
      · exact (meets rest _).1
      · exact (meets rest _).2 predecessor kept

theorem nextIncoming_entry {sets : MustDefined} :
    nextIncoming function reachable sets function.entry = ∅ := by
  simp [nextIncoming]

/-! ### The facts together -/

/-- What the checks of one function establish, in terms of its reachable blocks and its must-defined
sets. -/
structure Checked (module : Module) (function : Function) (reachable : Finset Nat)
    (sets : MustDefined) : Prop where
  entry_lt : function.entry < function.blocks.length
  edge_lt : ∀ source target, function.Edge source target → target < function.blocks.length
  block_id : ∀ index (block : BasicBlock), function.blocks[index]? = some block → block.id = index
  entry_mem : function.entry ∈ reachable
  closed : ∀ source ∈ reachable, ∀ target, function.Edge source target → target ∈ reachable
  definesOnce : function.DefinesOnce
  solves : sets.Solves function reachable
  body : ∃ fuel, ∀ index block, function.blocks[index]? = some block → index ∈ reachable →
    validateBlockBody fuel module ⟨function, reachable, sets.outgoing, validatedTypes function⟩
      sets.incoming (block, index) = .ok ()

theorem validateFunction_checked {fuel : Nat} (h : validateFunction fuel module function = .ok ()) :
    ∃ reachable sets, Checked module function reachable sets := by
  simp only [validateFunction, validateBlocks, bind_eq_ok, rejectIf_eq_ok, forM_eq_ok] at h
  obtain ⟨-, ⟨-, -, -, entry, blocks⟩, reachable, walk, allValues, collected, sets, loop, body⟩ := h
  obtain ⟨-, pending, closed⟩ := reachableLoop_closed walk (by simp)
  have member : ∀ index block, function.blocks[index]? = some block →
      (block, index) ∈ function.blocks.zipIdx := fun index block found => by
    rw [List.mk_mem_zipIdx_iff_getElem?]
    exact found
  refine ⟨reachable, sets, ?_, ?_, ?_, pending _ (by simp), closed,
    collectValues_definesOnce collected, mustDefinedLoop_solves loop, fuel, ?_⟩
  · simpa using entry
  · intro source target edge
    unfold Function.Edge Function.successors at edge
    cases found : function.blocks[source]? with
    | none => simp [found] at edge
    | some block =>
      have checked := blocks _ (member source block found)
      simp only [validateBlock, validateSuccessorBounds, bind_eq_ok, rejectIf_eq_ok] at checked
      obtain ⟨-, -, bounds⟩ := checked
      rw [found] at edge
      simpa using List.any_eq_false.1 bounds target edge
  · intro index block found
    have checked := blocks _ (member index block found)
    simp only [validateBlock, bind_eq_ok, rejectIf_eq_ok] at checked
    obtain ⟨-, dense, -⟩ := checked
    simpa using dense
  · exact fun index block found _ => body _ (member index block found)

theorem Module.Accepted.checked (accepted : module.Accepted) (member : function ∈ module.functions) :
    (∃ reachable sets, Checked module function reachable sets)
      ∧ ∃ fuel, validateOwnershipOf fuel module function = .ok () := by
  obtain ⟨fuel, h⟩ := accepted
  simp only [validate, validateOwnership, bind_eq_ok, forM_eq_ok] at h
  obtain ⟨-, -, -, ownership, -, -, -, -, functions⟩ := h
  exact ⟨validateFunction_checked (functions function member), fuel, ownership function member⟩

end BasicNext.Ir
