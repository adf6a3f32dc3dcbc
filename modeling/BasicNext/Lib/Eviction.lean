import Mathlib.Data.List.AList
import Mathlib.Data.List.MinMax
import Mathlib.Data.Prod.Lex

/-!
# Tables of a bounded size

A finite map that forgets entries: those that a predicate does not keep, and the one touched first when it is full.
-/

namespace BasicNext.Lib.Eviction

variable {α β : Type*}

abbrev Table (α β : Type*) := AList fun _ : α => β

/-- The entries that `keep` accepts. -/
def retain (keep : α → β → Bool) (table : Table α β) : Table α β where
  entries := table.entries.filter fun entry => keep entry.1 entry.2
  nodupKeys := List.NodupKeys.sublist List.filter_sublist table.nodupKeys

/-- The key touched first, in the order that `place` gives where several were. -/
def oldest (touched : β → Nat) (place : α → Nat) (table : Table α β) : Option α :=
  (table.entries.argmin fun entry => toLex (touched entry.2, place entry.1)).map (·.1)

variable {keep : α → β → Bool} {touched : β → Nat} {place : α → Nat} {table table' : Table α β} {key : α}

theorem oldest_mem (found : oldest touched place table = some key) : key ∈ table := by
  obtain ⟨entry, least, rfl⟩ := Option.map_eq_some_iff.1 found
  exact List.mem_map_of_mem (List.argmin_mem least)

theorem oldest_eq_none (none : oldest touched place table = none) : table.keys.length = 0 := by
  have empty := List.argmin_eq_none.1 (Option.map_eq_none_iff.1 none)
  rw [AList.keys, empty]
  rfl

theorem length_keys_le (subset : ∀ key ∈ table', key ∈ table) : table'.keys.length ≤ table.keys.length :=
  (List.subperm_of_subset (AList.keys_nodup table') fun key member =>
    AList.mem_keys.1 (subset key (AList.mem_keys.2 member))).length_le

section decidable

variable [DecidableEq α] {value : β} {capacity : Nat}

/-- A full table forgets its oldest entry. -/
def makeRoom (capacity : Nat) (touched : β → Nat) (place : α → Nat) (table : Table α β) : Table α β :=
  if capacity ≤ table.keys.length then
    match oldest touched place table with
    | some key => table.erase key
    | none => table
  else table

theorem lookup_retain_eq_some :
    (retain keep table).lookup key = some value ↔ table.lookup key = some value ∧ keep key value = true := by
  rw [← Option.mem_def, AList.mem_lookup_iff, ← Option.mem_def, AList.mem_lookup_iff]
  exact List.mem_filter

theorem mem_retain (kept : key ∈ retain keep table) : key ∈ table := by
  obtain ⟨value, found⟩ := Option.isSome_iff_exists.1 (AList.lookup_isSome.2 kept)
  exact AList.lookup_isSome.1 (Option.isSome_of_mem (lookup_retain_eq_some.1 found).1)

theorem makeRoom_of_lt (room : table.keys.length < capacity) : makeRoom capacity touched place table = table :=
  if_neg (by omega)

theorem makeRoom_of_le (some : 0 < capacity) (full : capacity ≤ table.keys.length) :
    ∃ key ∈ table, makeRoom capacity touched place table = table.erase key := by
  rw [makeRoom, if_pos full]
  cases found : oldest touched place table with
  | none =>
    have empty := oldest_eq_none found
    omega
  | some key => exact ⟨key, oldest_mem found, rfl⟩

theorem lookup_of_makeRoom (found : (makeRoom capacity touched place table).lookup key = some value) :
    table.lookup key = some value := by
  unfold makeRoom at found
  split at found
  · split at found
    · next oldest _ =>
      by_cases same : key = oldest
      · rw [same, AList.lookup_erase] at found
        cases found
      · rwa [AList.lookup_erase_ne same] at found
    · exact found
  · exact found

theorem mem_makeRoom (kept : key ∈ makeRoom capacity touched place table) : key ∈ table := by
  obtain ⟨value, found⟩ := Option.isSome_iff_exists.1 (AList.lookup_isSome.2 kept)
  exact AList.lookup_isSome.1 (Option.isSome_of_mem (lookup_of_makeRoom found))

theorem length_erase_lt (member : key ∈ table) : (table.erase key).keys.length < table.keys.length := by
  have positive := List.length_pos_of_mem (AList.mem_keys.1 member)
  rw [AList.keys_erase, List.length_erase_of_mem (AList.mem_keys.1 member)]
  omega

theorem length_insert_le : (table.insert key value).keys.length ≤ table.keys.length + 1 := by
  rw [AList.keys_insert, List.length_cons]
  exact Nat.succ_le_succ List.length_erase_le

theorem length_insert_of_mem (member : key ∈ table) : (table.insert key value).keys.length ≤ table.keys.length := by
  apply length_keys_le
  intro other inserted
  rcases (AList.mem_insert _).1 inserted with rfl | kept
  · exact member
  · exact kept

theorem length_makeRoom (some : 0 < capacity) (within : table.keys.length ≤ capacity) :
    (makeRoom capacity touched place table).keys.length < capacity := by
  rcases Nat.lt_or_ge table.keys.length capacity with room | full
  · rwa [makeRoom_of_lt room]
  · obtain ⟨key, member, same⟩ := makeRoom_of_le some full
    rw [same]
    exact (length_erase_lt member).trans_le within

end decidable

end BasicNext.Lib.Eviction
