import BasicNext.Ir.OwnershipWalk

/-!
# The ownership balance

Replaying the trace of a path holds, at the start of every block, exactly the owned values of the walk.
That needs one fact beyond the checks of the blocks: a value is never owned where it is about to be
defined, because the owned values of a block are defined on the path that reaches it first. A path that
returns ends with nothing held, so every reference on it is consumed once.
-/

namespace BasicNext.Ir

open Lib

variable {module : Module} {function : Function} {value : ValueId}

/-! ### One instruction -/

theorem consumeAll_spec {span : Span} {values : List ValueId} {state after : OwnershipState}
    (h : consumeAll span values state = .ok after) :
    held state.owned (values.map .consume) = some after.owned
      ∧ (∀ other ∈ after.owned, other ∈ state.owned)
      ∧ ∀ other, other ∈ state.owned ∨ other ∈ state.consumed → other ∈ after.owned ∨ other ∈ after.consumed := by
  induction values generalizing state with
  | nil =>
    obtain rfl : state = after := by simpa [consumeAll] using h
    exact ⟨rfl, fun _ h => h, fun _ h => h⟩
  | cons first values ih =>
    simp only [consumeAll, bind_eq_ok, rejectIf_eq_ok, decide_eq_false_iff_not, not_not] at h
    obtain ⟨-, owned, rest⟩ := h
    obtain ⟨replay, fewer, covers⟩ := ih rest
    refine ⟨?_, fun other member => Finset.mem_of_mem_erase (fewer other member), ?_⟩
    · rw [List.map_cons, held, if_pos owned]
      exact replay
    · intro other known
      by_cases same : other = first
      · exact covers other (.inr (by simp [same]))
      · rcases known with known | known
        · exact covers other (.inl (Finset.mem_erase.2 ⟨same, known⟩))
        · exact covers other (.inr (Finset.mem_insert_of_mem known))

theorem ownedResult_eq_some {valueTypes : ValueTypes} {instruction : Instruction} :
    ownedResult module valueTypes instruction = some value ↔
      producesOwned module instruction valueTypes = true ∧ instructionDefines instruction = some value := by
  unfold ownedResult
  split <;> simp_all

/-- What the check of one instruction does to the state. -/
structure Passes (module : Module) (function : Function) (instruction : Instruction)
    (state after : OwnershipState) : Prop where
  reads : ∀ value ∈ instructionUses instruction, value ∉ state.consumed
  owned_of : ∀ value ∈ after.owned, value ∈ state.owned
    ∨ ownedResult module (ownershipTypes function) instruction = some value
  covers : ∀ value, value ∈ state.owned ∨ value ∈ state.consumed
      ∨ ownedResult module (ownershipTypes function) instruction = some value →
    value ∈ after.owned ∨ value ∈ after.consumed
  replay : ∀ origin, (∀ value, instructionDefines instruction = some value → value ∉ state.owned) →
    held state.owned (instructionTrace module function origin instruction) = some after.owned

theorem checkInstruction_passes {instruction : Instruction} {state after : OwnershipState}
    (h : checkInstruction module function (ownershipTypes function) state instruction = .ok after) :
    Passes module function instruction state after := by
  simp only [checkInstruction, bind_eq_ok, rejectIf_eq_ok] at h
  obtain ⟨-, -, -, unread, -, -, middle, consumes, result⟩ := h
  obtain ⟨replay, fewer, covers⟩ := consumeAll_spec consumes
  have traced : ∀ origin, instructionTrace module function origin instruction
      = (instructionReads origin instruction).map .read
        ++ ((consumed module function instruction (ownershipTypes function)).map .consume
          ++ (instructionDefines instruction).toList.map fun value =>
              .define value (producesOwned module instruction (ownershipTypes function))) :=
    fun origin => by rw [instructionTrace, List.append_assoc]
  have reads : ∀ value ∈ instructionUses instruction, value ∉ state.consumed := by
    intro value member
    simpa using List.any_eq_false.1 unread value member
  cases owned : ownedResult module (ownershipTypes function) instruction with
  | some destination =>
    rw [owned] at result
    obtain rfl := pure_eq_ok.1 result
    obtain ⟨produces, defines⟩ := ownedResult_eq_some.1 owned
    refine ⟨reads, fun value member => ?_, fun value known => ?_, fun origin fresh => ?_⟩
    · rcases Finset.mem_insert.1 member with rfl | member
      · exact .inr owned
      · exact .inl (fewer value member)
    · rcases known with known | known | same
      · exact (covers value (.inl known)).imp Finset.mem_insert_of_mem id
      · exact (covers value (.inr known)).imp Finset.mem_insert_of_mem id
      · obtain rfl : destination = value := by simpa [owned] using same
        exact .inl (Finset.mem_insert_self _ _)
    · have unowned : destination ∉ middle.owned :=
        fun member => fresh destination defines (fewer destination member)
      rw [traced, held_append, held_reads, Option.bind_some, held_append, replay]
      simp [defines, produces, held, unowned]
  | none =>
    rw [owned] at result
    obtain rfl := pure_eq_ok.1 result
    refine ⟨reads, fun value member => .inl (fewer value member), fun value known => ?_, fun origin fresh => ?_⟩
    · rcases known with known | known | same
      · exact covers value (.inl known)
      · exact covers value (.inr known)
      · simp [owned] at same
    · rw [traced, held_append, held_reads, Option.bind_some, held_append, replay]
      cases defines : instructionDefines instruction with
      | none => rfl
      | some destination =>
        have borrowed : producesOwned module instruction (ownershipTypes function) = false := by
          simpa [ownedResult, defines] using owned
        have unowned : destination ∉ middle.owned :=
          fun member => fresh destination defines (fewer destination member)
        simp [borrowed, held, unowned]

/-! ### One block -/

/-- What the check of a block's instructions does to the state. -/
structure BlockTransfer (module : Module) (function : Function) (instructions : List Instruction)
    (state after : OwnershipState) : Prop where
  owned_of : ∀ value ∈ after.owned, value ∈ state.owned
    ∨ ∃ instruction ∈ instructions, ownedResult module (ownershipTypes function) instruction = some value
  covers : ∀ value, (value ∈ state.owned ∨ value ∈ state.consumed
      ∨ ∃ instruction ∈ instructions, ownedResult module (ownershipTypes function) instruction = some value) →
    value ∈ after.owned ∨ value ∈ after.consumed
  replay : ∀ origin, (instructions.filterMap instructionDefines).Nodup →
    (∀ value ∈ instructions.filterMap instructionDefines, value ∉ state.owned) →
      held state.owned (instructionsTrace module function origin instructions) = some after.owned

theorem checkInstructions_transfer {instructions : List Instruction} {state after : OwnershipState}
    (h : checkInstructions module function instructions (ownershipTypes function) state = .ok after) :
    BlockTransfer module function instructions state after := by
  unfold checkInstructions at h
  induction instructions generalizing state with
  | nil =>
    obtain rfl : state = after := by simpa [pure_eq_ok] using h
    exact ⟨fun _ h => .inl h, fun _ h => by simpa using h, fun _ _ _ => rfl⟩
  | cons instruction instructions ih =>
    obtain ⟨next, first, rest⟩ := foldlM_cons_eq_ok.1 h
    have here := checkInstruction_passes first
    have later := ih rest
    refine ⟨fun value member => ?_, fun value known => ?_, fun origin once fresh => ?_⟩
    · rcases later.owned_of value member with known | ⟨other, within, owned⟩
      · exact (here.owned_of value known).imp_right fun owned =>
          ⟨instruction, List.mem_cons_self, owned⟩
      · exact .inr ⟨other, List.mem_cons_of_mem _ within, owned⟩
    · apply later.covers
      rcases known with known | known | ⟨other, within, owned⟩
      · exact (here.covers value (.inl known)).imp_right .inl
      · exact (here.covers value (.inr (.inl known))).imp_right .inl
      · rcases List.mem_cons.1 within with rfl | within
        · exact (here.covers value (.inr (.inr owned))).imp_right .inl
        · exact .inr (.inr ⟨other, within, owned⟩)
    · have definesHere : ∀ value, instructionDefines instruction = some value →
          value ∉ instructions.filterMap instructionDefines ∧ value ∉ state.owned := by
        intro value defines
        rw [List.filterMap_cons_some defines] at once fresh
        exact ⟨(List.nodup_cons.1 once).1, fresh value List.mem_cons_self⟩
      have onceLater : (instructions.filterMap instructionDefines).Nodup :=
        once.sublist ((List.sublist_cons_self _ _).filterMap _)
      have freshLater : ∀ value ∈ instructions.filterMap instructionDefines, value ∉ next.owned := by
        intro value member owned
        rcases here.owned_of value owned with known | result
        · exact fresh value (((List.sublist_cons_self _ _).filterMap _).subset member) known
        · exact (definesHere value (ownedResult_eq_some.1 result).2).1 member
      unfold instructionsTrace
      rw [List.flatMap_cons, held_append, here.replay origin fun value defines => (definesHere value defines).2]
      exact later.replay origin onceLater freshLater

/-! ### Along a path -/

/-- The owned values of every block, as the walk over an accepted function finds them, and the states
it checked the blocks with. -/
structure OwnedSets (module : Module) (function : Function) (P : Nat → OwnershipState → Prop)
    (owned : Nat → Finset ValueId) : Prop where
  entry : owned function.entry = ∅
  block : ∀ path last, function.IsPath path last → ∃ block state after, P last state
    ∧ function.blocks[last]? = some block ∧ state.owned = owned last
    ∧ checkInstructions module function block.instructions (ownershipTypes function) state = .ok after
    ∧ (∀ value, block.terminator = .return value →
        checkReturn module function (ownershipTypes function) after.owned value = .ok ())
    ∧ ∀ target, function.Edge last target → owned target = after.owned

theorem Checked.ownedSets {reachable : Finset Nat} {sets : MustDefined} {fuel : Nat}
    (checked : Checked module function reachable sets)
    (h : validateOwnershipOf fuel module function = .ok ()) (P : Nat → OwnershipState → Prop)
    (base : P function.entry {})
    (mono : ∀ index owned consumed more, P index ⟨owned, consumed⟩ → P index ⟨owned, consumed ∪ more⟩)
    (step : ∀ index state block after target, P index state → function.blocks[index]? = some block →
      checkInstructions module function block.instructions (ownershipTypes function) state = .ok after →
      function.Edge index target → P target after) :
    ∃ owned, OwnedSets module function P owned := by
  obtain ⟨owned, entry, blocks⟩ := checked.ownership_blocks h P base mono step
  refine ⟨fun index => (owned index).getD ∅, by simp [entry], fun path last walk => ?_⟩
  obtain ⟨state, holds, known, block, after, found, passes, returns, hands⟩ := blocks path last walk
  exact ⟨block, state, after, holds, found, by simp [known], passes, returns,
    fun target edge => by simp [hands target edge]⟩

namespace OwnedSets

variable {P : Nat → OwnershipState → Prop} {owned : Nat → Finset ValueId} {path : List Nat}
  {last : Nat} {instruction : Instruction} {block : BasicBlock} {earlier later : List Instruction}
  (sets : OwnedSets module function P owned)
include sets

theorem owned_defined (walk : function.IsPath path last) (member : value ∈ owned last) :
    Defines value (pathTrace module function none path) := by
  induction walk generalizing value with
  | refl => simp [sets.entry] at member
  | step walk edge ih =>
    rename_i path source target
    obtain ⟨block, state, after, -, found, entered, passes, -, hands⟩ := sets.block path source walk
    rw [hands target edge] at member
    rw [pathTrace_append, defines_append, pathTrace_singleton]
    rcases (checkInstructions_transfer passes).owned_of value member with before | ⟨other, within, result⟩
    · exact .inl (ih (entered ▸ before))
    · refine .inr (defines_blockTrace.2 ⟨other, ?_, (ownedResult_eq_some.1 result).2⟩)
      simpa [Function.instructionsAt, found] using within

variable (once : function.DefinesOnce)
include once

theorem not_owned_of_defines (walk : function.IsPath path last) (member : instruction ∈ function.instructionsAt last)
    (defines : instructionDefines instruction = some value) : value ∉ owned last := by
  intro present
  obtain ⟨path, walk, fresh⟩ := walk.first_visit
  obtain ⟨index, passed, other, there, defines'⟩ := defines_pathTrace.1 (sets.owned_defined walk present)
  exact fresh (once.block_eq member defines there defines' ▸ passed)

theorem held_earlier (walk : function.IsPath path last) {state middle : OwnershipState}
    (found : function.blocks[last]? = some block) (entered : state.owned = owned last)
    (split : block.instructions = earlier ++ later)
    (passes : checkInstructions module function earlier (ownershipTypes function) state = .ok middle)
    (origin : Option Nat) :
    held (owned last) (instructionsTrace module function origin earlier) = some middle.owned := by
  rw [← entered]
  refine (checkInstructions_transfer passes).replay origin ?_ fun value member => ?_
  · have nodup := once.block_nodup found
    rw [split, List.filterMap_append] at nodup
    exact (List.nodup_append.1 nodup).1
  · obtain ⟨instruction, within, defines⟩ := List.mem_filterMap.1 member
    rw [entered]
    have listed : instruction ∈ function.instructionsAt last := by
      simp [Function.instructionsAt, found, split, within]
    exact sets.not_owned_of_defines once walk listed defines

theorem held_path (walk : function.IsPath path last) :
    held ∅ (pathTrace module function none path) = some (owned last) := by
  induction walk with
  | refl =>
    rw [sets.entry]
    rfl
  | step walk edge ih =>
    rename_i path source target
    obtain ⟨block, state, after, -, found, entered, passes, -, hands⟩ := sets.block path source walk
    have instructions := sets.held_earlier once walk found entered (List.append_nil _).symm passes
      path.getLast?
    have noConsumes : terminatorConsumes module function block.terminator = [] := by
      cases terminator : block.terminator with
      | «return» value => simp [Function.Edge, Function.successors, found, terminator, blockSuccessors] at edge
      | _ => rfl
    rw [pathTrace_append, pathTrace_singleton, Option.or_none, held_append, ih, Option.bind_some, hands target edge]
    unfold blockTrace terminatorTrace
    rw [found]
    simp only [noConsumes, List.map_nil, List.append_nil]
    rw [held_append, instructions, Option.bind_some, held_reads]

theorem held_return {returned : Option ValueId} (walk : function.IsPath path last)
    (found : function.blocks[last]? = some block) (returns : block.terminator = .return returned) :
    held ∅ (pathTrace module function none (path ++ [last])) = some ∅ := by
  obtain ⟨block', state, after, -, found', entered, passes, checks, -⟩ := sets.block path last walk
  obtain rfl : block = block' := by simpa [found] using found'
  have instructions := sets.held_earlier once walk found entered (List.append_nil _).symm passes
    path.getLast?
  have balanced : held after.owned (terminatorTrace module function block.terminator) = some ∅ := by
    have accepted := checks returned returns
    unfold terminatorTrace terminatorConsumes
    rw [returns, held_append, held_reads, Option.bind_some]
    unfold checkReturn at accepted
    cases gives : returnedValue module (ownershipTypes function) returned with
    | none =>
      simp only [gives, rejectIf_eq_ok, decide_eq_false_iff_not, ne_eq, not_not] at accepted
      simp [gives, held, accepted]
    | some value =>
      simp only [gives, bind_eq_ok, rejectIf_eq_ok, decide_eq_false_iff_not, ne_eq, not_not] at accepted
      obtain ⟨-, present, rest⟩ := accepted
      simp [gives, held, present, rest]
  rw [pathTrace_append, pathTrace_singleton, Option.or_none, held_append, sets.held_path once walk, Option.bind_some]
  unfold blockTrace
  rw [found]
  simp only
  rw [held_append, instructions, Option.bind_some, balanced]

end OwnedSets

/-! ### The balance -/

/-- The block at `index` ends in a return. -/
def Function.Returns (function : Function) (index : Nat) : Prop :=
  ∃ block value, function.blocks[index]? = some block ∧ block.terminator = .return value

/-- Along every path that returns, each definition of an owned value is followed by one consumption of
it before the value is defined again. -/
def Function.OwnershipBalanced (module : Module) (function : Function) : Prop :=
  ∀ path last, function.IsPath path last → function.Returns last → ∀ before value after,
    pathTrace module function none (path ++ [last]) = before ++ .define value true :: after → consumptions value after = 1

theorem ownershipBalanced (accepted : module.Accepted) (member : function ∈ module.functions) :
    function.OwnershipBalanced module := by
  obtain ⟨⟨reachable, sets, checked⟩, fuel, ownership⟩ := accepted.checked member
  obtain ⟨owned, ownedSets⟩ := checked.ownedSets ownership (fun _ _ => True) trivial
    (fun _ _ _ _ _ => trivial) (fun _ _ _ _ _ _ _ _ _ => trivial)
  rintro path last walk ⟨block, returned, found, returns⟩ before value after trace
  apply consumptions_eq_one
  rw [← trace]
  exact ownedSets.held_return checked.definesOnce walk found returns

/-- A loop that concatenates two strings in each round and releases the result. -/
def concatLoop : Function :=
  { name := "Work", kind := .user, owner := none, parameters := [], weakSymbols := ∅,
    returnType := .named "VOID", entry := 0,
    blocks := [
      ⟨0, [.constant 0 (.string "a") .string defaultModuleSpan,
          .constant 1 (.boolean true) .boolean defaultModuleSpan], .jump 1⟩,
      ⟨1, [.binary 2 "Plus" 0 0 .string defaultModuleSpan, .release 2 none defaultModuleSpan], .branch 1 1 2⟩,
      ⟨2, [], .return none⟩],
    span := defaultModuleSpan }

def concatLoopModule : Module := { functions := [concatLoop] }

theorem ownershipBalanced_concatLoop :
    concatLoopModule.Accepted ∧ concatLoop ∈ concatLoopModule.functions
      ∧ concatLoop.OwnershipBalanced concatLoopModule :=
  have accepted : concatLoopModule.Accepted := ⟨20, by decide⟩
  have member : concatLoop ∈ concatLoopModule.functions := by simp [concatLoopModule]
  ⟨accepted, member, ownershipBalanced accepted member⟩

end BasicNext.Ir
