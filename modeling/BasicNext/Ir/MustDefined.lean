import BasicNext.Ir.Accepted
import BasicNext.Lib.Sweep
import Mathlib.Order.Filter.AtTopBot.Basic
import Mathlib.Order.Filter.Finite

/-!
# The rounds of the must-defined loop

A round of the loop visits the blocks in the order of the list, so for one value it is a sweep over the
control-flow graph: what it marks are the blocks whose outgoing set has lost the value. The entry starts with
an empty outgoing set, where the other blocks start with every value. For a value that the entry does not
define the marks only grow. For a value that it does, the first round marks the successors of the entry that
stand before it, and each later round passes the marks on along one more backward edge.
-/

namespace BasicNext.Ir

open Lib

variable {function : Function} {reachable : Finset Nat} {allValues : Finset ValueId} {sets : MustDefined}
  {value : ValueId} {index count : Nat}

/-! ### The structural checks -/

/-- The checks before the loop, with what they find: the reachable blocks and the defined values. -/
structure Function.Structured (function : Function) (reachable : Finset Nat) (allValues : Finset ValueId) : Prop where
  blocks : validateBlocks function = .ok ()
  walk : ∃ fuel, reachableBlocks fuel function = .ok reachable
  values : collectValues function = .ok allValues

def Function.DefinesAt (function : Function) (index : Nat) (value : ValueId) : Prop :=
  ∃ instruction ∈ function.instructionsAt index, instructionDefines instruction = some value

theorem reachableLoop_walk {fuel : Nat} {pending : List Nat} {result : Finset Nat}
    (loop : reachableLoop function fuel reachable pending = .ok result)
    (known : ∀ u ∈ reachable, ∃ path, function.IsPath path u) (waiting : ∀ u ∈ pending, ∃ path, function.IsPath path u) :
    ∀ u ∈ result, ∃ path, function.IsPath path u := by
  induction fuel generalizing reachable pending with
  | zero =>
    cases pending with
    | nil =>
      obtain rfl : reachable = result := by simpa [reachableLoop] using loop
      exact known
    | cons index pending => simp [reachableLoop] at loop
  | succ fuel ih =>
    cases pending with
    | nil =>
      obtain rfl : reachable = result := by simpa [reachableLoop] using loop
      exact known
    | cons index pending =>
      obtain ⟨here, waiting⟩ := List.forall_mem_cons.1 waiting
      rw [reachableLoop] at loop
      split at loop
      · exact ih loop known waiting
      · refine ih loop ?_ ?_
        · intro u member
          obtain rfl | member := Finset.mem_insert.1 member
          · exact here
          · exact known u member
        · intro u member
          obtain member | member := List.mem_append.1 member
          · obtain ⟨path, walk⟩ := here
            exact ⟨path ++ [index], walk.step (List.mem_reverse.1 member)⟩
          · exact waiting u member

theorem mem_collectValues (collected : collectValues function = .ok allValues) :
    value ∈ allValues ↔ ∃ instruction ∈ function.instructions, instructionDefines instruction = some value := by
  have scan : ∀ (instructions : List Instruction) (seen result : Finset ValueId),
      instructions.foldlM (collectValue function) seen = .ok result →
        (value ∈ result ↔ value ∈ seen ∨ ∃ instruction ∈ instructions, instructionDefines instruction = some value) := by
    intro instructions
    induction instructions with
    | nil =>
      intro seen result loop
      obtain rfl : seen = result := by simpa [pure_eq_ok] using loop
      simp
    | cons instruction instructions ih =>
      intro seen result loop
      obtain ⟨next, first, rest⟩ := foldlM_cons_eq_ok.1 loop
      rw [ih next result rest]
      unfold collectValue at first
      cases defined : instructionDefines instruction with
      | none =>
        obtain rfl : seen = next := by simpa [defined] using first
        simp [defined]
      | some destination =>
        simp only [defined, bind_eq_ok, rejectIf_eq_ok, pure_eq_ok] at first
        obtain ⟨-, -, rfl⟩ := first
        simp [defined, or_assoc, eq_comm, or_left_comm]
  simpa using scan _ _ _ collected

namespace Function.Structured

variable (structured : function.Structured reachable allValues)
include structured

theorem entry_lt : function.entry < function.blocks.length := by
  have passes := structured.blocks
  simp only [validateBlocks, bind_eq_ok, rejectIf_eq_ok] at passes
  obtain ⟨-, -, -, entry, -⟩ := passes
  simpa using entry

theorem edge_lt {source target : Nat} (edge : function.Edge source target) : target < function.blocks.length := by
  have passes := structured.blocks
  simp only [validateBlocks, bind_eq_ok, rejectIf_eq_ok, forM_eq_ok] at passes
  obtain ⟨-, -, -, -, blocks⟩ := passes
  unfold Function.Edge Function.successors at edge
  cases found : function.blocks[source]? with
  | none => simp [found] at edge
  | some block =>
    have checked := blocks (block, source) (by rw [List.mk_mem_zipIdx_iff_getElem?, found])
    simp only [validateBlock, validateSuccessorBounds, bind_eq_ok, rejectIf_eq_ok] at checked
    obtain ⟨-, -, bounds⟩ := checked
    rw [found] at edge
    simpa using List.any_eq_false.1 bounds target edge

theorem closed : function.entry ∈ reachable ∧
    ∀ source ∈ reachable, ∀ target, function.Edge source target → target ∈ reachable := by
  obtain ⟨fuel, walk⟩ := structured.walk
  obtain ⟨-, pending, closed⟩ := reachableLoop_closed walk (by simp)
  exact ⟨pending _ (by simp), closed⟩

theorem path (member : index ∈ reachable) : ∃ path, function.IsPath path index := by
  obtain ⟨fuel, walk⟩ := structured.walk
  refine reachableLoop_walk walk (by simp) ?_ index member
  intro u start
  obtain rfl : u = function.entry := by simpa using start
  exact ⟨[], .refl⟩

theorem of_path {path : List Nat} (walk : function.IsPath path index) : index ∈ reachable :=
  walk.induct structured.closed.1 fun u v known edge => structured.closed.2 u known v edge

theorem lt (member : index ∈ reachable) : index < function.blocks.length := by
  obtain ⟨path, walk⟩ := structured.path member
  exact walk.induct (P := (· < function.blocks.length)) structured.entry_lt fun _ _ _ edge => structured.edge_lt edge

theorem predecessor (member : index ∈ reachable) (ne : index ≠ function.entry) :
    ∃ source ∈ reachable, function.Edge source index := by
  obtain ⟨path, walk⟩ := structured.path member
  cases walk with
  | refl => exact absurd rfl ne
  | step walk edge => exact ⟨_, structured.of_path walk, edge⟩

theorem mem_predecessors {source : Nat} (member : source ∈ reachable) :
    source ∈ function.predecessors index ↔ function.Edge source index := by
  constructor
  · intro listed
    obtain ⟨other, -, listed⟩ := List.mem_flatMap.1 listed
    obtain ⟨target, edge, same⟩ := List.mem_filterMap.1 listed
    split at same
    · next equal =>
      obtain rfl := equal
      obtain rfl : other = source := by simpa using same
      exact edge
    · simp at same
  · intro edge
    exact List.mem_flatMap.2 ⟨source, List.mem_range.2 (structured.lt member), List.mem_filterMap.2 ⟨index, edge, by simp⟩⟩

theorem definesAt_mem (defines : function.DefinesAt index value) : value ∈ allValues := by
  obtain ⟨instruction, member, defines⟩ := defines
  exact (mem_collectValues structured.values).2 ⟨instruction, Function.mem_instructions member, defines⟩

theorem definesAt_unique {other : Nat} (defines : function.DefinesAt index value)
    (defines' : function.DefinesAt other value) : index = other := by
  obtain ⟨instruction, member, defines⟩ := defines
  obtain ⟨instruction', member', defines'⟩ := defines'
  exact (collectValues_definesOnce structured.values).block_eq member defines member' defines'

end Function.Structured

/-! ### One round -/

/-- The sets after the first `count` blocks of a round. -/
def roundUntil (function : Function) (reachable : Finset Nat) (sets : MustDefined) (count : Nat) : MustDefined × Bool :=
  (List.range count).foldl (updateBlock function reachable) (sets, false)

theorem roundUntil_succ : roundUntil function reachable sets (count + 1) =
    updateBlock function reachable (roundUntil function reachable sets count) count := by
  unfold roundUntil
  rw [List.range_succ, List.foldl_append, List.foldl_cons, List.foldl_nil]

theorem updateBlock_of_ne {state : MustDefined × Bool} {other : Nat} (ne : other ≠ index) :
    (updateBlock function reachable state index).1.outgoing other = state.1.outgoing other := by
  by_cases member : index ∈ reachable
  · simp [updateBlock, member, ne]
  · simp [updateBlock, member]

theorem updateBlock_self (function : Function) (state : MustDefined × Bool) (member : index ∈ reachable) :
    (updateBlock function reachable state index).1.incoming index = nextIncoming function reachable state.1 index
      ∧ (updateBlock function reachable state index).1.outgoing index =
        defineAll (function.instructionsAt index) (nextIncoming function reachable state.1 index) := by
  unfold updateBlock
  simp [member]

theorem updateBlock_incoming_of_ne {state : MustDefined × Bool} {other : Nat} (ne : other ≠ index) :
    (updateBlock function reachable state index).1.incoming other = state.1.incoming other := by
  by_cases member : index ∈ reachable
  · simp [updateBlock, member, ne]
  · simp [updateBlock, member]

theorem roundUntil_of_le (le : count ≤ index) :
    (roundUntil function reachable sets count).1.outgoing index = sets.outgoing index := by
  induction count with
  | zero => rfl
  | succ count ih => rw [roundUntil_succ, updateBlock_of_ne (by omega), ih (by omega)]

theorem roundUntil_of_lt (function : Function) (reachable : Finset Nat) (sets : MustDefined) {more : Nat}
    (visited : index < count) (le : count ≤ more) :
    (roundUntil function reachable sets more).1.incoming index = (roundUntil function reachable sets count).1.incoming index
      ∧ (roundUntil function reachable sets more).1.outgoing index =
        (roundUntil function reachable sets count).1.outgoing index := by
  induction more, le using Nat.le_induction with
  | base => exact ⟨rfl, rfl⟩
  | succ more le ih =>
    rw [roundUntil_succ, updateBlock_of_ne (by omega), updateBlock_incoming_of_ne (by omega)]
    exact ih

theorem round_at (sets : MustDefined) (bound : index < function.blocks.length) (member : index ∈ reachable) :
    (round function reachable sets).1.incoming index =
        nextIncoming function reachable (roundUntil function reachable sets index).1 index
      ∧ (round function reachable sets).1.outgoing index =
        defineAll (function.instructionsAt index) ((round function reachable sets).1.incoming index) := by
  have kept := roundUntil_of_lt function reachable sets
    (Nat.lt_succ_self index) (Nat.succ_le_of_lt bound)
  have visit := updateBlock_self function (roundUntil function reachable sets index) member
  rw [← roundUntil_succ] at visit
  change (roundUntil function reachable sets function.blocks.length).1.incoming index = _ ∧
    (roundUntil function reachable sets function.blocks.length).1.outgoing index =
      defineAll _ ((roundUntil function reachable sets function.blocks.length).1.incoming index)
  rw [kept.1, kept.2, visit.1, visit.2]
  exact ⟨rfl, rfl⟩

theorem round_reads (reachable : Finset Nat) (sets : MustDefined) (source : Nat) (bound : index ≤ function.blocks.length) :
    (roundUntil function reachable sets index).1.outgoing source =
      if source < index then (round function reachable sets).1.outgoing source else sets.outgoing source := by
  split
  · next before => exact (roundUntil_of_lt function reachable sets before bound).2.symm
  · next after => exact roundUntil_of_le (by omega)

theorem mem_foldl_inter {outgoing : Nat → Finset ValueId} {rest : List Nat} {start : Finset ValueId} :
    value ∈ rest.foldl (fun intersection predecessor => intersection ∩ outgoing predecessor) start ↔
      value ∈ start ∧ ∀ predecessor ∈ rest, value ∈ outgoing predecessor := by
  induction rest generalizing start with
  | nil => simp
  | cons first rest ih => simp [ih, and_assoc]

theorem mem_nextIncoming (structured : function.Structured reachable allValues) (member : index ∈ reachable) :
    value ∈ nextIncoming function reachable sets index ↔ index ≠ function.entry ∧
      ∀ source ∈ reachable, function.Edge source index → value ∈ sets.outgoing source := by
  unfold nextIncoming
  by_cases entry : index = function.entry
  · simp [entry]
  have listed : ∀ source, source ∈ (function.predecessors index).filter (· ∈ reachable) ↔
      source ∈ reachable ∧ function.Edge source index := by
    intro source
    simp only [List.mem_filter, decide_eq_true_eq]
    constructor
    · exact fun ⟨listed, member⟩ => ⟨member, (structured.mem_predecessors member).1 listed⟩
    · exact fun ⟨member, edge⟩ => ⟨(structured.mem_predecessors member).2 edge, member⟩
  rw [if_neg entry]
  cases paths : (function.predecessors index).filter (· ∈ reachable) with
  | nil =>
    obtain ⟨source, member, edge⟩ := structured.predecessor member entry
    have none := (listed source).2 ⟨member, edge⟩
    simp [paths] at none
  | cons first rest =>
    rw [paths] at listed
    simp only [mem_foldl_inter, ne_eq, entry, not_false_eq_true, true_and]
    constructor
    · intro ⟨first', rest'⟩ source member edge
      obtain rfl | later := List.mem_cons.1 ((listed source).2 ⟨member, edge⟩)
      · exact first'
      · exact rest' source later
    · intro each
      have each' : ∀ source ∈ first :: rest, value ∈ sets.outgoing source := fun source listed' =>
        each source ((listed source).1 listed').1 ((listed source).1 listed').2
      exact ⟨each' first (by simp), fun source later => each' source (by simp [later])⟩

/-! ### The blocks that have lost a value -/

/-- A reachable block whose outgoing set does not hold the value. -/
def MustDefined.Lost (sets : MustDefined) (reachable : Finset Nat) (value : ValueId) (index : Nat) : Prop :=
  index ∈ reachable ∧ value ∉ sets.outgoing index

theorem round_sweep (structured : function.Structured reachable allValues) :
    Sweep function.Edge (fun index => index ∈ reachable ∧ ¬ function.DefinesAt index value) (· = function.entry)
      (sets.Lost reachable value) ((round function reachable sets).1.Lost reachable value) := by
  intro index
  unfold MustDefined.Lost
  by_cases member : index ∈ reachable
  swap
  · simp [member]
  have bound := structured.lt member
  obtain ⟨incoming, outgoing⟩ := round_at sets bound member
  have reads (source : Nat) := round_reads reachable sets source bound.le
  rw [outgoing, mem_defineAll, incoming, mem_nextIncoming structured member]
  simp only [member, true_and, not_or, not_and, not_forall, reads]
  rw [and_comm]
  refine and_congr Iff.rfl ?_
  by_cases entry : index = function.entry
  · simp [entry]
  simp only [ne_eq, entry, not_false_eq_true, forall_const, false_or, exists_prop]
  refine exists_congr fun source => ?_
  by_cases before : source < index
  · simp only [before, if_true, true_and, Nat.not_le.2 before, false_and, or_false]
    exact ⟨fun ⟨known, edge, lost⟩ => ⟨edge, known, lost⟩, fun ⟨edge, known, lost⟩ => ⟨known, edge, lost⟩⟩
  · simp only [before, if_false, false_and, Nat.not_lt.1 before, true_and, false_or]
    exact ⟨fun ⟨known, edge, lost⟩ => ⟨edge, known, lost⟩, fun ⟨edge, known, lost⟩ => ⟨known, edge, lost⟩⟩

end BasicNext.Ir
