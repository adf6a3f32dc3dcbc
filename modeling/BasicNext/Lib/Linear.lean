import Mathlib.Data.Finset.Basic

/-!
# Traces of values that carry a reference

A trace lists, in order, what a run reads, consumes and defines. `held` replays it: it keeps the
values that carry a reference, and fails where a value is consumed that carries none, or defined while
it still carries one. A trace that replays from nothing to nothing consumes every reference once.
-/

namespace BasicNext.Lib

variable {α : Type*}

inductive Access (α : Type*) where
  | read (value : α)
  | consume (value : α)
  | define (value : α) (owned : Bool)
deriving DecidableEq

/-- A definition of `value` is on the trace. -/
def Defines (value : α) (trace : List (Access α)) : Prop := ∃ owned, .define value owned ∈ trace

/-- Every read is in the relation `R` to what comes before it. -/
def EveryRead (R : List (Access α) → α → Prop) (trace : List (Access α)) : Prop :=
  ∀ before value after, trace = before ++ .read value :: after → R before value

/-- Every read comes after a definition of the same value. -/
def ReadsDefined : List (Access α) → Prop := EveryRead fun before value => Defines value before

/-- After a consumption of a value, it is read only once it has been defined again. -/
def ReadsUnconsumed : List (Access α) → Prop :=
  EveryRead fun before value =>
    ∀ earlier between, before = earlier ++ .consume value :: between → Defines value between

/-! ### Definitions -/

@[simp] theorem defines_nil {value : α} : ¬ Defines value ([] : List (Access α)) := by
  simp [Defines]

@[simp] theorem defines_append {value : α} {first second : List (Access α)} :
    Defines value (first ++ second) ↔ Defines value first ∨ Defines value second := by
  simp [Defines, exists_or]

@[simp] theorem defines_cons {value : α} {access : Access α} {trace : List (Access α)} :
    Defines value (access :: trace) ↔ (∃ owned, access = .define value owned) ∨ Defines value trace := by
  simp [Defines, exists_or, eq_comm]

theorem Defines.of_mem {value : α} {owned : Bool} {trace : List (Access α)}
    (h : .define value owned ∈ trace) : Defines value trace :=
  ⟨owned, h⟩

/-! ### Positions in a trace made of parts -/

theorem append_eq_split {β : Type*} {first second before after : List β} {a : β}
    (h : first ++ second = before ++ a :: after) :
    (∃ rest, first = before ++ a :: rest ∧ after = rest ++ second)
      ∨ ∃ rest, before = first ++ rest ∧ second = rest ++ a :: after := by
  obtain ⟨middle, before_eq, second_eq⟩ | ⟨middle, first_eq, after_eq⟩ := List.append_eq_append_iff.1 h
  · exact .inr ⟨middle, before_eq, second_eq⟩
  · cases middle with
    | nil =>
      rw [List.nil_append] at after_eq
      rw [List.append_nil] at first_eq
      exact .inr ⟨[], by simp [first_eq], by simp [after_eq]⟩
    | cons b middle =>
      rw [List.cons_append, List.cons.injEq] at after_eq
      obtain ⟨rfl, after_eq⟩ := after_eq
      exact .inl ⟨middle, first_eq, after_eq⟩

theorem flatMap_eq_split {β γ : Type*} {parts : List β} {f : β → List γ} {before after : List γ} {a : γ}
    (h : parts.flatMap f = before ++ a :: after) :
    ∃ earlier part later first last, parts = earlier ++ part :: later ∧ f part = first ++ a :: last
      ∧ before = earlier.flatMap f ++ first ∧ after = last ++ later.flatMap f := by
  induction parts generalizing before with
  | nil => simp at h
  | cons part parts ih =>
    rw [List.flatMap_cons] at h
    rcases append_eq_split h with ⟨rest, here, after_eq⟩ | ⟨rest, before_eq, there⟩
    · exact ⟨[], part, parts, before, rest, rfl, here, rfl, after_eq⟩
    · obtain ⟨earlier, other, later, first, last, parts_eq, other_eq, rest_eq, after_eq⟩ := ih there
      refine ⟨part :: earlier, other, later, first, last, ?_, other_eq, ?_, after_eq⟩
      · rw [parts_eq, List.cons_append]
      · rw [before_eq, rest_eq, List.flatMap_cons, List.append_assoc]

theorem reads_append_eq_split {values : List α} {rest before after : List (Access α)} {value : α}
    (noReads : ∀ other, .read other ∉ rest)
    (h : values.map .read ++ rest = before ++ .read value :: after) :
    value ∈ values ∧ ∃ earlier, before = List.map .read earlier := by
  rcases append_eq_split h with ⟨_, reads_eq, -⟩ | ⟨_, -, rest_eq⟩
  · obtain ⟨earlier, later, rfl, rfl, later_eq⟩ := List.map_eq_append_iff.1 reads_eq
    obtain ⟨other, _, rfl, same, -⟩ := List.map_eq_cons_iff.1 later_eq
    obtain rfl : other = value := by simpa using same
    exact ⟨by simp, earlier, rfl⟩
  · exact absurd (by simp [rest_eq]) (noReads value)

theorem everyRead_append {R : List (Access α) → α → Prop} {first second : List (Access α)}
    (h : EveryRead R first) (h' : ∀ before value after, second = before ++ .read value :: after →
      R (first ++ before) value) : EveryRead R (first ++ second) := by
  intro before value after trace_eq
  rcases append_eq_split trace_eq with ⟨rest, first_eq, -⟩ | ⟨rest, rfl, second_eq⟩
  · exact h before value rest first_eq
  · exact h' rest value after second_eq

/-! ### Replay -/

section
variable [DecidableEq α]

/-- The values that carry a reference after `trace`, from those that do before it. -/
@[grind] def held : Finset α → List (Access α) → Option (Finset α)
  | holding, [] => some holding
  | holding, .read _ :: trace => held holding trace
  | holding, .consume value :: trace =>
    if value ∈ holding then held (holding.erase value) trace else none
  | holding, .define value owned :: trace =>
    if value ∈ holding then none
    else held (if owned then insert value holding else holding) trace

variable {holding final : Finset α} {trace first second : List (Access α)} {value : α}

theorem held_append :
    held holding (first ++ second) = (held holding first).bind (held · second) := by
  induction first generalizing holding with
  | nil => rfl
  | cons access first ih =>
    cases access with
    | read value => exact ih
    | consume value =>
      by_cases holds : value ∈ holding
      · simpa [held, holds] using ih
      · simp [held, holds]
    | define value owned =>
      by_cases holds : value ∈ holding
      · simp [held, holds]
      · simpa [held, holds] using ih

theorem held_append_eq_some :
    held holding (first ++ second) = some final ↔
      ∃ middle, held holding first = some middle ∧ held middle second = some final := by
  rw [held_append, Option.bind_eq_some_iff]

theorem held_reads {values : List α} : held holding (values.map .read) = some holding := by
  induction values with
  | nil => rfl
  | cons value values ih => exact ih

theorem held_of_notMem (replay : held holding trace = some final) (absent : value ∉ holding)
    (undefined : ¬ Defines value trace) : value ∉ final ∧ .consume value ∉ trace := by
  induction trace generalizing holding with
  | nil =>
    obtain rfl : holding = final := by simpa [held] using replay
    exact ⟨absent, by simp⟩
  | cons access trace ih =>
    rw [defines_cons, not_or] at undefined
    cases access with
    | read other => simpa using ih replay absent undefined.2
    | consume other =>
      rw [held] at replay
      split at replay
      · next holds =>
        have differs : value ≠ other := fun h => absent (h ▸ holds)
        have := ih replay (fun h => absent (Finset.mem_of_mem_erase h)) undefined.2
        simpa [differs] using this
      · cases replay
    | define other owned =>
      rw [held] at replay
      split at replay
      · cases replay
      · have differs : value ≠ other := fun h => undefined.1 ⟨owned, by rw [h]⟩
        have stays : value ∉ (if owned then insert other holding else holding) := by
          split <;> simp [differs, absent]
        simpa using ih replay stays undefined.2

theorem held_of_consumed {before after : List (Access α)}
    (replay : held holding (before ++ .consume value :: after) = some final)
    (undefined : ¬ Defines value after) : value ∉ final := by
  obtain ⟨middle, -, rest⟩ := held_append_eq_some.1 replay
  rw [held] at rest
  split at rest
  · exact (held_of_notMem rest (by simp) undefined).1
  · cases rest

theorem consume_mem_of_held (replay : held holding trace = some final) (present : value ∈ holding)
    (gone : value ∉ final) : .consume value ∈ trace := by
  induction trace generalizing holding with
  | nil =>
    obtain rfl : holding = final := by simpa [held] using replay
    exact absurd present gone
  | cons access trace ih =>
    cases access with
    | read other => exact List.mem_cons_of_mem _ (ih replay present)
    | consume other =>
      rw [held] at replay
      split at replay
      · by_cases same : value = other
        · simp [same]
        · exact List.mem_cons_of_mem _ (ih replay (Finset.mem_erase.2 ⟨same, present⟩))
      · cases replay
    | define other owned =>
      rw [held] at replay
      split at replay
      · cases replay
      · refine List.mem_cons_of_mem _ (ih replay ?_)
        split <;> simp [present]

theorem mem_held (replay : held holding trace = some final) (present : value ∈ final) :
    value ∈ holding ∨ .define value true ∈ trace := by
  induction trace generalizing holding with
  | nil =>
    obtain rfl : holding = final := by simpa [held] using replay
    exact .inl present
  | cons access trace ih =>
    cases access with
    | read other => exact (ih replay).imp_right (List.mem_cons_of_mem _)
    | consume other =>
      rw [held] at replay
      split at replay
      · exact (ih replay).imp Finset.mem_of_mem_erase (List.mem_cons_of_mem _)
      · cases replay
    | define other owned =>
      rw [held] at replay
      split at replay
      · cases replay
      · rcases ih replay with before | later
        · cases owned with
          | false => exact .inl before
          | true =>
            rcases Finset.mem_insert.1 before with rfl | before
            · exact .inr (by simp)
            · exact .inl before
        · exact .inr (List.mem_cons_of_mem _ later)

theorem define_mem_of_consumed {before after : List (Access α)}
    (replay : held ∅ (before ++ .consume value :: after) = some final) :
    .define value true ∈ before := by
  obtain ⟨middle, first, rest⟩ := held_append_eq_some.1 replay
  rw [held] at rest
  split at rest
  · next holds => simpa using mem_held first holds
  · cases rest

/-! ### The balance -/

/-- How often `value` is consumed before its next definition. -/
def consumptions (value : α) (trace : List (Access α)) : Nat :=
  (trace.takeWhile fun access =>
    match access with
    | .define other _ => other ≠ value
    | _ => true).count (.consume value)

theorem consumptions_of_mem (replay : held holding trace = some final) (gone : value ∉ final) :
    consumptions value trace = if value ∈ holding then 1 else 0 := by
  induction trace generalizing holding with
  | nil =>
    obtain rfl : holding = final := by simpa [held] using replay
    simp [consumptions, gone]
  | cons access trace ih =>
    cases access with
    | read other => simpa [consumptions] using ih replay
    | consume other =>
      rw [held] at replay
      split at replay
      · next holds =>
        have rest := ih replay
        by_cases same : value = other
        · subst same
          simp_all [consumptions]
        · simpa [consumptions, same, Ne.symm same] using rest
      · cases replay
    | define other owned =>
      rw [held] at replay
      split at replay
      · cases replay
      · next absent =>
        by_cases same : value = other
        · subst same
          simp [consumptions, absent]
        · have rest := ih replay
          have unchanged : value ∈ (if owned then insert other holding else holding)
              ↔ value ∈ holding := by split <;> simp [same]
          simpa [consumptions, Ne.symm same, unchanged] using rest

theorem consumptions_eq_one {before after : List (Access α)}
    (replay : held ∅ (before ++ .define value true :: after) = some ∅) :
    consumptions value after = 1 := by
  obtain ⟨middle, -, rest⟩ := held_append_eq_some.1 replay
  rw [held] at rest
  split at rest
  · cases rest
  · have counted := consumptions_of_mem rest (Finset.notMem_empty value)
    simpa using counted

end

end BasicNext.Lib
