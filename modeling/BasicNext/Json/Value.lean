import BasicNext.Lib.Except
import Mathlib.Data.UInt

/-!
# JSON values and their nesting

The values of `serde_json`, the two measures of their nesting (`ensure_depth` of the parser and the
printer, `depth_of` of the writes into a document) and how they compare.
-/

namespace BasicNext.Json

open Lib

/-! ### Values -/

/-- `serde_json::Number`: a non-negative integer, a negative one, or the bits of a finite float. -/
inductive Number where
  | posInt (value : UInt64)
  | negInt (value : Int64)
  | float (bits : UInt64)
deriving DecidableEq, Repr

namespace Number

def ofInt64 (value : Int64) : Number :=
  if value < 0 then negInt value else posInt value.toUInt64

/-- No number is infinite or not a number: those floats have every bit of the exponent set. -/
def fromF64 (bits : UInt64) : Option Number :=
  if (bits >>> 52) &&& 0x7ff = 0x7ff then none else some (float bits)

end Number

/-- The entries of an object, in the order of their keys. -/
inductive Value where
  | null
  | bool (value : Bool)
  | number (value : Number)
  | string (value : String)
  | array (items : List Value)
  | object (entries : List (String × Value))
deriving Repr

namespace Value

mutual

variable {P : Value → Prop}

theorem induction (null : P .null) (bool : ∀ b, P (.bool b)) (number : ∀ n, P (.number n)) (string : ∀ s, P (.string s))
    (array : ∀ items : List Value, (∀ item ∈ items, P item) → P (.array items))
    (object : ∀ entries : List (String × Value), (∀ entry ∈ entries, P entry.2) → P (.object entries)) :
    (value : Value) → P value
  | .null => null
  | .bool b => bool b
  | .number n => number n
  | .string s => string s
  | .array items => array items (induction_items null bool number string array object items)
  | .object entries => object entries (induction_entries null bool number string array object entries)

theorem induction_items (null : P .null) (bool : ∀ b, P (.bool b))
    (number : ∀ n, P (.number n)) (string : ∀ s, P (.string s))
    (array : ∀ items : List Value, (∀ item ∈ items, P item) → P (.array items))
    (object : ∀ entries : List (String × Value), (∀ entry ∈ entries, P entry.2) → P (.object entries)) :
    (items : List Value) → ∀ item ∈ items, P item
  | [] => fun _ member => nomatch member
  | first :: rest => List.forall_mem_cons.2
    ⟨induction null bool number string array object first, induction_items null bool number string array object rest⟩

theorem induction_entries (null : P .null) (bool : ∀ b, P (.bool b))
    (number : ∀ n, P (.number n)) (string : ∀ s, P (.string s))
    (array : ∀ items : List Value, (∀ item ∈ items, P item) → P (.array items))
    (object : ∀ entries : List (String × Value), (∀ entry ∈ entries, P entry.2) → P (.object entries)) :
    (entries : List (String × Value)) → ∀ entry ∈ entries, P entry.2
  | [] => fun _ member => nomatch member
  | (_, first) :: rest => List.forall_mem_cons.2
    ⟨induction null bool number string array object first, induction_entries null bool number string array object rest⟩

end

end Value

def kindOf : Value → String
  | .object _ => "object"
  | .array _ => "array"
  | .string _ => "string"
  | .number _ => "number"
  | .bool _ => "boolean"
  | .null => "null"

/-! ### The map of an object -/

abbrev Entries := List (String × Value)

namespace Entries

@[grind] def get (key : String) : Entries → Option Value
  | [] => none
  | (other, value) :: rest => if other = key then some value else get key rest

/-- The value of the first entry under `key`, replaced. -/
@[grind] def replace (key : String) (value : Value) : Entries → Entries
  | [] => []
  | (other, old) :: rest =>
    if other = key then (key, value) :: rest else (other, old) :: replace key value rest

/-- A new entry, before the first greater key. -/
def add (key : String) (value : Value) : Entries → Entries
  | [] => [(key, value)]
  | (other, old) :: rest =>
    if key < other then (key, value) :: (other, old) :: rest else (other, old) :: add key value rest

/-- The entries after the write, and the value that was under the key. -/
def insert (entries : Entries) (key : String) (value : Value) : Entries × Option Value :=
  match entries.get key with
  | some previous => (entries.replace key value, some previous)
  | none => (entries.add key value, none)

@[grind] def remove (key : String) : Entries → Entries
  | [] => []
  | (other, old) :: rest => if other = key then rest else (other, old) :: remove key rest

variable {entries : Entries} {key : String}

theorem mem_of_get {value : Value} (found : entries.get key = some value) : (key, value) ∈ entries := by
  induction entries with
  | nil => cases found
  | cons entry rest ih =>
    obtain ⟨other, old⟩ := entry
    rw [get] at found
    split at found
    · next same =>
      cases found
      rw [same]
      exact List.mem_cons_self
    · exact List.mem_cons_of_mem _ (ih found)

theorem replace_replace {previous : Value} (found : entries.get key = some previous) (value : Value) :
    (entries.replace key value).replace key previous = entries := by
  induction entries with
  | nil => simp [get] at found
  | cons entry rest ih =>
    obtain ⟨other, old⟩ := entry
    rw [get] at found
    by_cases same : other = key
    · subst same
      obtain rfl : old = previous := by simpa using found
      simp [replace]
    · rw [if_neg same] at found
      simp [replace, same, ih found]

theorem get_replace {previous : Value} (found : entries.get key = some previous) (value : Value) :
    (entries.replace key value).get key = some value := by
  induction entries with
  | nil => simp [get] at found
  | cons entry rest ih =>
    obtain ⟨other, old⟩ := entry
    rw [get] at found
    by_cases same : other = key
    · simp [replace, same, get]
    · rw [if_neg same] at found
      simp [replace, same, get, ih found]

theorem remove_add (missing : entries.get key = none) (value : Value) : (entries.add key value).remove key = entries := by
  induction entries with
  | nil => simp [add, remove]
  | cons entry rest ih =>
    obtain ⟨other, old⟩ := entry
    rw [get] at missing
    have apart : other ≠ key := by
      rintro rfl
      simp at missing
    rw [if_neg apart] at missing
    by_cases first : key < other
    · simp [add, first, remove]
    · simp [add, first, remove, apart, ih missing]

end Entries

/-! ### The nesting of a value -/

def maxDepth : Nat := 64
def maxBytes : Nat := 8 * 1024 * 1024

mutual

/-- Counts the value itself as one level. -/
@[grind] def depthOf : Value → Nat
  | .object entries => 1 + depthOfEntries entries
  | .array items => 1 + depthOfItems items
  | _ => 1

def depthOfItems : List Value → Nat
  | [] => 0
  | item :: rest => max (depthOf item) (depthOfItems rest)

def depthOfEntries : List (String × Value) → Nat
  | [] => 0
  | (_, item) :: rest => max (depthOf item) (depthOfEntries rest)

end

def nestingMessage : String := "JSON nesting exceeds 64 levels"

mutual

@[grind] def ensureDepth : Value → Nat → Except String Unit
  | .array items, depth =>
    if depth ≥ maxDepth then .error nestingMessage else ensureDepthItems items (depth + 1)
  | .object entries, depth =>
    if depth ≥ maxDepth then .error nestingMessage else ensureDepthEntries entries (depth + 1)
  | _, _ => .ok ()

def ensureDepthItems : List Value → Nat → Except String Unit
  | [], _ => .ok ()
  | item :: rest, depth => do
    ensureDepth item depth
    ensureDepthItems rest depth

def ensureDepthEntries : List (String × Value) → Nat → Except String Unit
  | [], _ => .ok ()
  | (_, item) :: rest, depth => do
    ensureDepth item depth
    ensureDepthEntries rest depth

end

@[simp] theorem ensureDepthItems_cons {item : Value} {rest : List Value} {depth : Nat} :
    ensureDepthItems (item :: rest) depth = .ok () ↔
      ensureDepth item depth = .ok () ∧ ensureDepthItems rest depth = .ok () := by
  rw [ensureDepthItems, bind_eq_ok]
  exact ⟨fun ⟨⟨⟩, first, others⟩ => ⟨first, others⟩, fun ⟨first, others⟩ => ⟨⟨⟩, first, others⟩⟩

@[simp] theorem ensureDepthEntries_cons {key : String} {item : Value} {rest : Entries} {depth : Nat} :
    ensureDepthEntries ((key, item) :: rest) depth = .ok () ↔
      ensureDepth item depth = .ok () ∧ ensureDepthEntries rest depth = .ok () := by
  rw [ensureDepthEntries, bind_eq_ok]
  exact ⟨fun ⟨⟨⟩, first, others⟩ => ⟨first, others⟩, fun ⟨first, others⟩ => ⟨⟨⟩, first, others⟩⟩

variable {depth : Nat} {items : List Value}

theorem ensureDepth_array :
    ensureDepth (.array items) depth = .ok () ↔ depth < maxDepth ∧ ensureDepthItems items (depth + 1) = .ok () := by
  rw [ensureDepth]
  by_cases deep : depth ≥ maxDepth
  · rw [if_pos deep]
    simp [Nat.not_lt.2 deep]
  · rw [if_neg deep]
    simp [Nat.not_le.1 deep]

theorem ensureDepth_object {entries : Entries} :
    ensureDepth (.object entries) depth = .ok () ↔ depth < maxDepth ∧ ensureDepthEntries entries (depth + 1) = .ok () := by
  rw [ensureDepth]
  by_cases deep : depth ≥ maxDepth
  · rw [if_pos deep]
    simp [Nat.not_lt.2 deep]
  · rw [if_neg deep]
    simp [Nat.not_le.1 deep]

theorem ensureDepthItems_iff :
    ensureDepthItems items depth = .ok () ↔ ∀ item ∈ items, ensureDepth item depth = .ok () := by
  induction items with
  | nil => simp [ensureDepthItems]
  | cons item rest ih => simp [ih]

theorem ensureDepthEntries_iff {entries : Entries} :
    ensureDepthEntries entries depth = .ok () ↔ ∀ entry ∈ entries, ensureDepth entry.2 depth = .ok () := by
  induction entries with
  | nil => simp [ensureDepthEntries]
  | cons entry rest ih =>
    obtain ⟨key, item⟩ := entry
    rw [ensureDepthEntries_cons, ih, List.forall_mem_cons]

/-! The two measures: `depthOf` counts a scalar as a level and `ensureDepth` does not, so the limit of a
write is the stricter one. -/

theorem depthOf_le_items {item : Value} (member : item ∈ items) :
    depthOf item ≤ depthOfItems items := by
  induction items with
  | nil => cases member
  | cons first rest ih =>
    rw [depthOfItems]
    rcases List.mem_cons.1 member with rfl | later
    · exact Nat.le_max_left _ _
    · exact (ih later).trans (Nat.le_max_right _ _)

theorem depthOf_le_entries {entry : String × Value} {entries : Entries} (member : entry ∈ entries) :
    depthOf entry.2 ≤ depthOfEntries entries := by
  induction entries with
  | nil => cases member
  | cons first rest ih =>
    rw [depthOfEntries]
    rcases List.mem_cons.1 member with rfl | later
    · exact Nat.le_max_left _ _
    · exact (ih later).trans (Nat.le_max_right _ _)

theorem ensureDepth_of_depthOf {value : Value}
    (shallow : depth + depthOf value ≤ maxDepth) : ensureDepth value depth = .ok () := by
  induction value using Value.induction generalizing depth with
  | null => rfl
  | bool => rfl
  | number => rfl
  | string => rfl
  | array items ih =>
    rw [depthOf] at shallow
    refine ensureDepth_array.2 ⟨?_, ensureDepthItems_iff.2 fun item member => ih item member ?_⟩
    · omega
    · have below := depthOf_le_items member
      omega
  | object entries ih =>
    rw [depthOf] at shallow
    refine ensureDepth_object.2 ⟨?_, ensureDepthEntries_iff.2 fun entry member => ih entry member ?_⟩
    · omega
    · have below := depthOf_le_entries member
      omega

theorem ensureDepth_mono {value : Value} {depth lower : Nat} (le : lower ≤ depth)
    (bounded : ensureDepth value depth = .ok ()) : ensureDepth value lower = .ok () := by
  induction value using Value.induction generalizing depth lower with
  | null => rfl
  | bool => rfl
  | number => rfl
  | string => rfl
  | array items ih =>
    rw [ensureDepth_array, ensureDepthItems_iff] at bounded ⊢
    exact ⟨by omega, fun item member => ih item member (by omega) (bounded.2 item member)⟩
  | object entries ih =>
    rw [ensureDepth_object, ensureDepthEntries_iff] at bounded ⊢
    exact ⟨by omega, fun entry member => ih entry member (by omega) (bounded.2 entry member)⟩

end BasicNext.Json
