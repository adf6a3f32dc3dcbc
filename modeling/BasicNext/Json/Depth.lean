import BasicNext.Json.Parse

/-!
# The levels of a value

A part of a value lies within so many containers. The writes into a document count every level of it, the parser only
the containers: a write is refused when anything lies within 64 containers, a text when a container does.
-/

namespace BasicNext.Json

open Lib

variable {value part : Value} {count depth : Nat} {entries : Entries} {items : List Value}

/-! ### Values that a table can hold -/

def Number.Finite : Number → Prop
  | float bits => fromF64 bits = some (float bits)
  | _ => True

/-- What `serde_json` can hold: the keys of an object are distinct, its numbers finite. -/
inductive Value.WellFormed : Value → Prop
  | null : WellFormed .null
  | bool {value : Bool} : WellFormed (.bool value)
  | number {value : Number} : value.Finite → WellFormed (.number value)
  | string {value : String} : WellFormed (.string value)
  | array {items : List Value} : (∀ item ∈ items, WellFormed item) → WellFormed (.array items)
  | object {entries : List (String × Value)} : (entries.map Prod.fst).Nodup →
      (∀ entry ∈ entries, WellFormed entry.2) → WellFormed (.object entries)

theorem Entries.get_eq_none {key : String} : entries.get key = none ↔ key ∉ entries.map Prod.fst := by
  induction entries with
  | nil => simp [get]
  | cons entry rest ih =>
    obtain ⟨other, old⟩ := entry
    by_cases same : other = key
    · simp [get, same]
    · simp [get, same, Ne.symm same, ih]

theorem Entries.keys_replace {key : String} : (entries.replace key value).map Prod.fst = entries.map Prod.fst := by
  induction entries with
  | nil => rfl
  | cons entry rest ih =>
    obtain ⟨other, old⟩ := entry
    by_cases same : other = key
    · simp [replace, same]
    · simp [replace, same, ih]

theorem Entries.keys_add {key : String} : ((entries.add key value).map Prod.fst).Perm (key :: entries.map Prod.fst) := by
  induction entries with
  | nil => exact .refl _
  | cons entry rest ih =>
    obtain ⟨other, old⟩ := entry
    by_cases first : key < other
    · simp [add, first]
    · simp only [add, first, if_false, List.map_cons]
      exact (ih.cons other).trans (.swap key other _)

theorem Entries.keys_insert {key : String} (distinct : (entries.map Prod.fst).Nodup) :
    ((Entries.insert entries key value).1.map Prod.fst).Nodup := by
  unfold insert
  cases found : entries.get key with
  | none =>
    rw [keys_add.nodup_iff]
    exact List.nodup_cons.2 ⟨get_eq_none.1 found, distinct⟩
  | some previous =>
    rw [keys_replace]
    exact distinct

/-! ### Levels -/

def Value.isContainer : Value → Bool
  | .array _ | .object _ => true
  | _ => false

/-- `Within count value part`: `part` lies in `value`, within `count` containers. -/
inductive Within : Nat → Value → Value → Prop
  | here {value : Value} : Within 0 value value
  | item {count : Nat} {items : List Value} {item part : Value} :
      item ∈ items → Within count item part → Within (count + 1) (.array items) part
  | entry {count : Nat} {entries : List (String × Value)} {entry : String × Value} {part : Value} :
      entry ∈ entries → Within count entry.2 part → Within (count + 1) (.object entries) part

theorem within_array : Within (count + 1) (.array items) part ↔ ∃ item ∈ items, Within count item part := by
  constructor
  · intro within
    cases within with
    | item member within => exact ⟨_, member, within⟩
  · intro ⟨item, member, within⟩
    exact .item member within

theorem within_object : Within (count + 1) (.object entries) part ↔ ∃ entry ∈ entries, Within count entry.2 part := by
  constructor
  · intro within
    cases within with
    | entry member within => exact ⟨_, member, within⟩
  · intro ⟨entry, member, within⟩
    exact .entry member within

theorem lt_depthOfItems : count < depthOfItems items ↔ ∃ item ∈ items, count < depthOf item := by
  induction items with
  | nil => simp [depthOfItems]
  | cons item rest ih => simp [depthOfItems, ih]

theorem lt_depthOfEntries : count < depthOfEntries entries ↔ ∃ entry ∈ entries, count < depthOf entry.2 := by
  induction entries with
  | nil => simp [depthOfEntries]
  | cons entry rest ih =>
    rw [depthOfEntries, lt_max_iff, ih, List.exists_mem_cons_iff]

theorem not_within_of_scalar (scalar : value.isContainer = false) : ¬ Within (count + 1) value part := by
  intro within
  cases within <;> cases scalar

theorem depthOf_scalar (scalar : value.isContainer = false) : depthOf value = 1 := by
  cases value <;> first | rfl | cases scalar

theorem ensureDepth_scalar (scalar : value.isContainer = false) : ensureDepth value depth = .ok () := by
  cases value <;> first | rfl | cases scalar

theorem lt_depthOf_scalar (scalar : value.isContainer = false) :
    count < depthOf value ↔ ∃ part, Within count value part := by
  rw [depthOf_scalar scalar]
  cases count with
  | zero => exact iff_of_true Nat.one_pos ⟨value, .here⟩
  | succ count => exact iff_of_false (by omega) fun ⟨_, within⟩ => not_within_of_scalar scalar within

theorem lt_depthOf : count < depthOf value ↔ ∃ part, Within count value part := by
  induction value using Value.induction generalizing count with
  | null => exact lt_depthOf_scalar rfl
  | bool => exact lt_depthOf_scalar rfl
  | number => exact lt_depthOf_scalar rfl
  | string => exact lt_depthOf_scalar rfl
  | array items ih =>
    rw [depthOf]
    cases count with
    | zero => exact iff_of_true (by omega) ⟨_, .here⟩
    | succ count =>
      simp only [within_array]
      rw [Nat.add_comm count 1, Nat.add_lt_add_iff_left, lt_depthOfItems, exists_comm]
      refine exists_congr fun item => ?_
      by_cases member : item ∈ items
      · simp [member, ih item member]
      · simp [member]
  | object entries ih =>
    rw [depthOf]
    cases count with
    | zero => exact iff_of_true (by omega) ⟨_, .here⟩
    | succ count =>
      simp only [within_object]
      rw [Nat.add_comm count 1, Nat.add_lt_add_iff_left, lt_depthOfEntries, exists_comm]
      refine exists_congr fun entry => ?_
      by_cases member : entry ∈ entries
      · simp [member, ih entry member]
      · simp [member]

theorem ensureDepth_iff_scalar (scalar : value.isContainer = false) :
    ensureDepth value depth = .ok () ↔ ∀ part, Within count value part → part.isContainer = false := by
  refine iff_of_true (ensureDepth_scalar scalar) fun part within => ?_
  cases within with
  | here => exact scalar
  | item => cases scalar
  | entry => cases scalar

theorem ensureDepth_iff (limit : depth + count = maxDepth) :
    ensureDepth value depth = .ok () ↔ ∀ part, Within count value part → part.isContainer = false := by
  induction value using Value.induction generalizing depth count with
  | null => exact ensureDepth_iff_scalar rfl
  | bool => exact ensureDepth_iff_scalar rfl
  | number => exact ensureDepth_iff_scalar rfl
  | string => exact ensureDepth_iff_scalar rfl
  | array items ih =>
    rw [ensureDepth_array, ensureDepthItems_iff]
    cases count with
    | zero =>
      refine iff_of_false (by omega) fun scalars => ?_
      cases scalars _ .here
    | succ count =>
      have inner (item : Value) (member : item ∈ items) := @ih item member count (depth + 1) (by omega)
      simp only [within_array, forall_exists_index, and_imp]
      constructor
      · intro ⟨_, shallow⟩ part item member within
        exact (inner item member).1 (shallow item member) part within
      · intro scalars
        refine ⟨by omega, fun item member => (inner item member).2 fun part within => ?_⟩
        exact scalars part item member within
  | object entries ih =>
    rw [ensureDepth_object, ensureDepthEntries_iff]
    cases count with
    | zero =>
      refine iff_of_false (by omega) fun scalars => ?_
      cases scalars _ .here
    | succ count =>
      have inner (entry : String × Value) (member : entry ∈ entries) := @ih entry member count (depth + 1) (by omega)
      simp only [within_object, forall_exists_index, and_imp]
      constructor
      · intro ⟨_, shallow⟩ part entry member within
        exact (inner entry member).1 (shallow entry member) part within
      · intro scalars
        refine ⟨by omega, fun entry member => (inner entry member).2 fun part within => ?_⟩
        exact scalars part entry member within

/-! ### The visitor -/

theorem Entries.get_add_ne {key other : String} (ne : other ≠ key) :
    (entries.add key value).get other = entries.get other := by
  induction entries with
  | nil => simp [add, get, Ne.symm ne]
  | cons entry rest ih =>
    obtain ⟨first, old⟩ := entry
    rw [add]
    split
    · simp [get, Ne.symm ne]
    · simp [get, ih]

/-- The parser's visitor reads a text that spells out the value: it ends in a value, or where the containers are too
deep. -/
def Visited {T : Type} (shallow : Prop) (read : Except VisitError T) : Prop :=
  shallow ∧ (∃ result, read = .ok result) ∨ ¬ shallow ∧ read = .error (.custom nestingMessage)

theorem visited_seq (each : ∀ item ∈ items, Visited (ensureDepth item depth = .ok ()) (deserialize (eventsOf item) depth))
    (before : List Value) :
    Visited (∀ item ∈ items, ensureDepth item depth = .ok ()) (visitSeq (eventsOfItems items) none depth before) := by
  induction items generalizing before with
  | nil => exact .inl ⟨by simp, before, rfl⟩
  | cons item rest ih =>
    obtain ⟨here, others⟩ := List.forall_mem_cons.1 each
    rw [eventsOfItems, visitSeq, List.forall_mem_cons]
    obtain ⟨shallow, read, first⟩ | ⟨deep, first⟩ := here
    · rw [first]
      obtain ⟨shallows, result⟩ | ⟨deep, result⟩ := ih others (before ++ [read])
      · exact .inl ⟨⟨shallow, shallows⟩, result⟩
      · exact .inr ⟨fun both => deep both.2, result⟩
    · rw [first]
      exact .inr ⟨fun both => deep both.1, rfl⟩

theorem visited_map
    (each : ∀ entry ∈ entries, Visited (ensureDepth entry.2 depth = .ok ()) (deserialize (eventsOf entry.2) depth))
    (distinct : (entries.map Prod.fst).Nodup) (before : Entries) (fresh : ∀ entry ∈ entries, before.get entry.1 = none) :
    Visited (∀ entry ∈ entries, ensureDepth entry.2 depth = .ok ()) (visitMap (eventsOfEntries entries) none depth before) := by
  induction entries generalizing before with
  | nil => exact .inl ⟨by simp, before, rfl⟩
  | cons entry rest ih =>
    obtain ⟨key, item⟩ := entry
    obtain ⟨here, others⟩ := List.forall_mem_cons.1 each
    obtain ⟨new, fresh⟩ := List.forall_mem_cons.1 fresh
    obtain ⟨once, distinct⟩ := List.nodup_cons.1 distinct
    rw [eventsOfEntries, visitMap, if_neg (by simp [new]), List.forall_mem_cons]
    obtain ⟨shallow, read, first⟩ | ⟨deep, first⟩ := here
    · rw [first]
      have inserted : (before.insert key read).1 = before.add key read := by simp [Entries.insert, new]
      have later : ∀ entry ∈ rest, (before.insert key read).1.get entry.1 = none := by
        intro entry member
        have ne : entry.1 ≠ key := fun same => once (List.mem_map.2 ⟨entry, member, same⟩)
        rw [inserted, Entries.get_add_ne ne]
        exact fresh entry member
      obtain ⟨shallows, result⟩ | ⟨deep, result⟩ := ih others distinct _ later
      · exact .inl ⟨⟨shallow, shallows⟩, result⟩
      · exact .inr ⟨fun both => deep both.2, result⟩
    · rw [first]
      exact .inr ⟨fun both => deep both.1, rfl⟩

theorem visited (wellFormed : value.WellFormed) (depth : Nat) :
    Visited (ensureDepth value depth = .ok ()) (deserialize (eventsOf value) depth) := by
  induction value using Value.induction generalizing depth with
  | null => exact .inl ⟨rfl, _, rfl⟩
  | bool => exact .inl ⟨rfl, _, rfl⟩
  | string => exact .inl ⟨rfl, _, rfl⟩
  | number number =>
    cases wellFormed with
    | number finite =>
      cases number with
      | posInt => exact .inl ⟨rfl, _, rfl⟩
      | negInt => exact .inl ⟨rfl, _, rfl⟩
      | float bits => exact .inl ⟨rfl, _, by rw [eventsOf, deserialize, (finite : Number.fromF64 bits = _)]⟩
  | array items ih =>
    cases wellFormed with
    | array each =>
      rw [eventsOf, deserialize, ensureDepth_array, ensureDepthItems_iff]
      by_cases limit : depth ≥ maxDepth
      · rw [if_pos limit]
        exact .inr ⟨fun shallow => by omega, rfl⟩
      rw [if_neg limit]
      obtain ⟨shallow, read, result⟩ | ⟨deep, result⟩ :=
        visited_seq (fun item member => ih item member (each item member) (depth + 1)) []
      · exact .inl ⟨⟨by omega, shallow⟩, .array read, by rw [result]; rfl⟩
      · exact .inr ⟨fun both => deep both.2, by rw [result]; rfl⟩
  | object entries ih =>
    cases wellFormed with
    | object distinct each =>
      rw [eventsOf, deserialize, ensureDepth_object, ensureDepthEntries_iff]
      by_cases limit : depth ≥ maxDepth
      · rw [if_pos limit]
        exact .inr ⟨fun shallow => by omega, rfl⟩
      rw [if_neg limit]
      obtain ⟨shallow, read, result⟩ | ⟨deep, result⟩ :=
        visited_map (fun entry member => ih entry member (each entry member) (depth + 1)) distinct [] fun _ _ => rfl
      · exact .inl ⟨⟨by omega, shallow⟩, .object read, by rw [result]; rfl⟩
      · exact .inr ⟨fun both => deep both.2, by rw [result]; rfl⟩

theorem deserialize_depth_iff (wellFormed : value.WellFormed) :
    deserialize (eventsOf value) 0 = .error (.custom nestingMessage) ↔
      ∃ part, part.isContainer = true ∧ Within maxDepth value part := by
  have shallow : ensureDepth value 0 = .ok () ↔ _ := ensureDepth_iff (Nat.zero_add maxDepth)
  obtain ⟨bounded, read, result⟩ | ⟨deep, result⟩ := visited wellFormed 0
  · refine iff_of_false (fun refused => ?_) fun ⟨part, container, within⟩ => ?_
    · rw [result] at refused
      cases refused
    · rw [shallow.1 bounded part within] at container
      cases container
  · refine iff_of_true result ?_
    rw [shallow] at deep
    push Not at deep
    obtain ⟨part, within, container⟩ := deep
    exact ⟨part, by simpa using container, within⟩

end BasicNext.Json
