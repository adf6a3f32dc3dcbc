import BasicNext.Json.Depth
import BasicNext.Json.Holders

/-!
# Writes that are refused

A write into a document is refused for depth when anything lies within 64 containers, where the parser still reads a
text with a scalar there: the two agree but for such a document. Whatever the reason of a refusal, the table is as it
was, and a child that did not move stays.
-/

namespace BasicNext.Json

open Lib

variable {values : Table Value} {handle : Handle} {target result : Value}

/-! ### The depth of a write -/

inductive Write where
  | set (key : String) (value : Value)
  | append (value : Value)
  | setAt (index : Int64) (value : Value)

namespace Write

def value : Write → Value
  | set _ value | append value | setAt _ value => value

def run (write : Write) (values : Table Value) (handle : Handle) : Outcome Unit × Table Value :=
  match write with
  | set key value => setValue values handle key value
  | append value => appendValue values handle value
  | setAt index value => Json.setAt values handle index value

def written (write : Write) (target : Value) : Option Value :=
  match write, target with
  | set key value, .object entries => some (.object (Entries.insert entries key value).1)
  | append value, .array items => some (.array (items ++ [value]))
  | setAt index value, .array items => (position items index).toOption.map fun slot => .array (items.set slot value)
  | _, _ => none

theorem limit_iff {written : Value} {undone done : Table Value} :
    (if depthOf written > maxDepth then (.error .depth, undone) else (.ok (), done) : Outcome Unit × Table Value).1 =
      .error .depth ↔ ∃ result, some written = some result ∧ maxDepth < depthOf result := by
  split
  · next deep => exact iff_of_true rfl ⟨_, rfl, deep⟩
  · next shallow =>
    refine iff_of_false (fun refused => by cases refused) fun ⟨result, same, deep⟩ => ?_
    obtain rfl := Option.some.inj same
    exact shallow deep

theorem position_ne_depth {items : List Value} {index : Int64} {failure : JsonFailure}
    (outside : position items index = .error failure) : failure ≠ .depth := by
  unfold position at outside
  split at outside
  · cases outside
  · cases outside
    simp

theorem run_depth_iff (write : Write) (found : values.lookup handle = some target) :
    (write.run values handle).1 = .error .depth ↔ ∃ result, write.written target = some result ∧ maxDepth < depthOf result := by
  have elsewhere {failure : JsonFailure} (other : failure ≠ .depth) (missing : write.written target = none) :
      (Except.error failure : Outcome Unit) = .error .depth ↔
        ∃ result, write.written target = some result ∧ maxDepth < depthOf result := by
    refine iff_of_false (fun refused => other (Except.error.inj refused)) fun ⟨result, written, _⟩ => ?_
    rw [missing] at written
    cases written
  cases write with
  | set key value =>
    unfold run setValue
    rw [found]
    cases target with
    | object entries => exact limit_iff
    | _ => exact elsewhere (by simp) rfl
  | append value =>
    unfold run appendValue
    rw [found]
    cases target with
    | array items => exact limit_iff
    | _ => exact elsewhere (by simp) rfl
  | setAt index value =>
    unfold run Json.setAt
    rw [found]
    cases target with
    | array items =>
      dsimp only
      cases slot : position items index with
      | error failure => exact elsewhere (position_ne_depth slot) (by simp [written, slot, Except.toOption])
      | ok slot' =>
        simp only [written, slot, Except.toOption, Option.map_some]
        exact limit_iff
    | _ => exact elsewhere (by simp) rfl

theorem written_wellFormed (write : Write) (wellFormed : target.WellFormed) (valueWell : write.value.WellFormed)
    (written : write.written target = some result) : result.WellFormed := by
  cases write with
  | set key value =>
    cases wellFormed with
    | object distinct each =>
      obtain rfl := Option.some.inj written
      refine .object (Entries.keys_insert distinct) fun entry member => ?_
      obtain old | new := Entries.mem_insert member
      · exact each entry old
      · exact new ▸ valueWell
    | _ => cases written
  | append value =>
    cases wellFormed with
    | array each =>
      obtain rfl := Option.some.inj written
      refine .array fun item member => ?_
      obtain old | new := List.mem_append.1 member
      · exact each item old
      · exact List.mem_singleton.1 new ▸ valueWell
    | _ => cases written
  | setAt index value =>
    cases wellFormed with
    | array each =>
      obtain ⟨slot, -, rfl⟩ := Option.map_eq_some_iff.1 written
      refine .array fun item member => ?_
      obtain old | new := List.mem_or_eq_of_mem_set member
      · exact each item old
      · exact new ▸ valueWell
    | _ => cases written

/-- A write and the parser's visitor agree on the depth of the written document exactly when a container lies within 64
others wherever anything does. -/
theorem depth_agrees_iff (write : Write) (found : values.lookup handle = some target) (wellFormed : target.WellFormed)
    (valueWell : write.value.WellFormed) :
    ((write.run values handle).1 = .error .depth ↔ ∃ result, write.written target = some result ∧
          deserialize (eventsOf result) 0 = .error (.custom nestingMessage)) ↔
      ∀ result, write.written target = some result → (∃ part, Within maxDepth result part) →
        ∃ part, part.isContainer = true ∧ Within maxDepth result part := by
  rw [run_depth_iff write found]
  cases written : write.written target with
  | none => simp
  | some result =>
    have resultWell := written_wellFormed write wellFormed valueWell written
    simp only [Option.some.injEq, exists_eq_left', forall_eq']
    rw [lt_depthOf, deserialize_depth_iff resultWell]
    constructor
    · exact fun same => same.1
    · exact fun containers => ⟨containers, fun ⟨part, _, within⟩ => ⟨part, within⟩⟩

end Write

def nest : Nat → Value
  | 0 => .null
  | count + 1 => .array [nest count]

theorem nest_wellFormed (count : Nat) : (nest count).WellFormed := by
  induction count with
  | zero => exact .null
  | succ count ih => exact .array fun item member => List.mem_singleton.1 member ▸ ih

theorem within_nest {count levels : Nat} {part : Value} :
    Within count (nest levels) part ↔ count ≤ levels ∧ part = nest (levels - count) := by
  induction count generalizing levels with
  | zero =>
    constructor
    · intro within
      cases within
      exact ⟨by omega, rfl⟩
    · intro ⟨_, same⟩
      subst same
      exact .here
  | succ count ih =>
    cases levels with
    | zero => exact iff_of_false (not_within_of_scalar rfl) (by omega)
    | succ levels =>
      rw [nest, within_array]
      simp only [List.mem_singleton, exists_eq_left, ih]
      rw [Nat.add_sub_add_right, Nat.add_le_add_iff_right]

/-- An empty array takes no array of 63 levels around a null, which the parser reads. -/
theorem depth_disagrees : ¬ ∀ (values : Table Value) (handle : Handle) (target : Value) (write : Write),
    values.lookup handle = some target → target.WellFormed → write.value.WellFormed →
      ((write.run values handle).1 = .error .depth ↔ ∃ result, write.written target = some result ∧
          deserialize (eventsOf result) 0 = .error (.custom nestingMessage)) := by
  intro always
  have found : ((∅ : Table Value).insert 1 (.array [])).lookup 1 = some (.array []) := AList.lookup_insert _
  have agrees := always _ 1 (.array []) (.append (nest 63)) found (.array (by simp)) (nest_wellFormed 63)
  have refused := (Write.run_depth_iff (.append (nest 63)) found).2
    ⟨nest 64, rfl, lt_depthOf.2 ⟨nest 0, within_nest.2 ⟨le_rfl, rfl⟩⟩⟩
  obtain ⟨result, written, deep⟩ := agrees.1 refused
  obtain rfl : nest 64 = result := Option.some.inj written
  obtain ⟨part, container, within⟩ := (deserialize_depth_iff (nest_wellFormed 64)).1 deep
  rw [(within_nest.1 within).2] at container
  cases container

theorem depth_agrees_nest :
    (((∅ : Table Value).insert 1 (.array [])).lookup 1 = some (.array []) ∧ (Value.array []).WellFormed ∧
        (nest 63).WellFormed) ∧
      ((((Write.append (nest 63)).run ((∅ : Table Value).insert 1 (.array [])) 1).1 = .error .depth ↔
          ∃ result, (Write.append (nest 63)).written (.array []) = some result ∧
            deserialize (eventsOf result) 0 = .error (.custom nestingMessage)) ↔
        ∀ result, (Write.append (nest 63)).written (.array []) = some result → (∃ part, Within maxDepth result part) →
          ∃ part, part.isContainer = true ∧ Within maxDepth result part) := by
  have found : ((∅ : Table Value).insert 1 (.array [])).lookup 1 = some (.array []) := AList.lookup_insert _
  have empty : (Value.array []).WellFormed := .array (by simp)
  exact ⟨⟨found, empty, nest_wellFormed 63⟩, Write.depth_agrees_iff (.append (nest 63)) found empty (nest_wellFormed 63)⟩

/-! ### A refused write changes nothing -/

/-- Every document, every count and the next handle are as they were. -/
structure Documents.Same (documents after : Documents) : Prop where
  values : ∀ handle, after.values.lookup handle = documents.values.lookup handle
  holders : after.holders = documents.holders
  next : after.next = documents.next

theorem Documents.Same.refl (documents : Documents) : documents.Same documents := ⟨fun _ => rfl, rfl, rfl⟩

theorem Documents.write_failed (documents : Documents) (edit : Table Value → Outcome Unit × Table Value) {handle : Handle}
    (written : Written documents.values handle (edit documents.values)) {failure : JsonFailure}
    (failed : (documents.write edit).1 = .error failure) : documents.Same (documents.write edit).2 := by
  obtain ⟨-, same⟩ | ⟨done, -⟩ := written
  · exact ⟨same, rfl, rfl⟩
  · have done : (documents.write edit).1 = .ok () := done
    rw [done] at failed
    cases failed

theorem Documents.moveChild_failed (documents : Documents) {parent child : Handle}
    (edit : Value → Table Value → Outcome Unit × Table Value)
    (written : ∀ value, Written documents.values parent (edit value documents.values)) {failure : JsonFailure}
    (failed : (documents.moveChild parent child edit).1 = .error failure) :
    documents.Same (documents.moveChild parent child edit).2 := by
  unfold moveChild at failed ⊢
  by_cases self : parent = child
  · rw [if_pos self]
    exact .refl documents
  rw [if_neg self] at failed ⊢
  cases found : documents.document child with
  | none => exact .refl documents
  | some value =>
    have refused (failure : JsonFailure) (failed : (documents.write (edit value)).1 = .error failure) :=
      write_failed documents _ (written value) failed
    rw [found] at failed
    dsimp only at failed ⊢
    cases answered : documents.write (edit value) with
    | mk answer after =>
      rw [answered] at failed refused
      cases answer with
      | error failure => exact refused failure rfl
      | ok => cases failed

theorem Documents.moveChild_refused {documents : Documents} {parent child : Handle} {value : Value}
    (edit : Value → Table Value → Outcome Unit × Table Value) (apart : parent ≠ child)
    (found : documents.document child = some value) {failure : JsonFailure}
    (refused : (documents.write (edit value)).1 = .error failure) :
    (documents.moveChild parent child edit).1 = .error failure := by
  unfold moveChild
  rw [if_neg apart, found]
  dsimp only
  cases answered : documents.write (edit value) with
  | mk answer after =>
    rw [answered] at refused
    obtain rfl : answer = .error failure := refused
    rfl

variable (serde : SerdeJson)

/-- A write or a move that answers with an error leaves the table of documents as it was. -/
theorem write_atomic (documents : Documents) (operation : Operation) (failure : JsonFailure)
    (failed : (perform serde documents operation).1 = .done (.error failure)) :
    documents.Same (perform serde documents operation).2 := by
  cases operation with
  | setValue handle key value =>
    exact documents.write_failed (setValue · handle key value) (setValue_written _ _ _ _) (Answer.done.inj failed)
  | setAt handle index value =>
    exact documents.write_failed (setAt · handle index value) (setAt_written _ _ _ _) (Answer.done.inj failed)
  | appendValue handle value =>
    exact documents.write_failed (appendValue · handle value) (appendValue_written _ _ _) (Answer.done.inj failed)
  | moveInto parent key child =>
    exact documents.moveChild_failed (fun value values => setValue values parent key value)
      (fun _ => setValue_written _ _ _ _) (Answer.done.inj failed)
  | moveIntoAt parent index child =>
    exact documents.moveChild_failed (fun value values => setAt values parent index value)
      (fun _ => setAt_written _ _ _ _) (Answer.done.inj failed)
  | appendMoved parent child =>
    exact documents.moveChild_failed (fun value values => appendValue values parent value)
      (fun _ => appendValue_written _ _ _) (Answer.done.inj failed)
  | _ => cases failed

theorem appendMoved_nest {documents : Documents} {parent child : Handle} (apart : parent ≠ child)
    (empty : documents.values.lookup parent = some (.array [])) (nested : documents.document child = some (nest 63)) :
    (perform serde documents (.appendMoved parent child)).1 = .done (.error .depth) := by
  have refused := (Write.run_depth_iff (.append (nest 63)) empty).2
    ⟨nest 64, rfl, lt_depthOf.2 ⟨nest 0, within_nest.2 ⟨le_rfl, rfl⟩⟩⟩
  exact congrArg Answer.done
    (Documents.moveChild_refused (fun value values => appendValue values parent value) apart nested refused)

/-- A child of 63 levels around a null does not move into an empty array. -/
theorem write_atomic_nest :
    let documents : Documents := ⟨((∅ : Table Value).insert 1 (.array [])).insert 2 (nest 63),
      ((∅ : Table UInt64).insert 1 1).insert 2 1, 3⟩
    (perform nestedText documents (.appendMoved 1 2)).1 = .done (.error .depth) ∧
      documents.Same (perform nestedText documents (.appendMoved 1 2)).2 := by
  intro documents
  have empty : documents.values.lookup 1 = some (.array []) :=
    (AList.lookup_insert_ne (by decide)).trans (AList.lookup_insert _)
  have nested : documents.document 2 = some (nest 63) := AList.lookup_insert _
  have failed := appendMoved_nest nestedText (by decide) empty nested
  exact ⟨failed, write_atomic nestedText documents (.appendMoved 1 2) .depth failed⟩

end BasicNext.Json
