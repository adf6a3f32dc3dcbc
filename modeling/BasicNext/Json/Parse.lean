import BasicNext.Json.Value

/-!
# Parsing and printing JSON

The visitor that builds a value from what the deserializer shows it, within the bounds on bytes and
nesting, and the printer, which checks the same bounds. The deserializer and the renderer of
`serde_json` are parameters.
-/

namespace BasicNext.Json

open Lib

/-! ### The visitor -/

/-- What the deserializer shows the visitor at a place of the text, down to the first syntax error. A
sequence or a map that fails between two elements ends with the failure. -/
inductive Shown where
  | failure (message : String)
  | unit
  | bool (value : Bool)
  | i64 (value : Int64)
  | u64 (value : UInt64)
  | f64 (bits : UInt64)
  | str (value : String)
  | string (value : String)
  | seq (elements : List Shown) (failure : Option String)
  | map (entries : List (String × Shown)) (failure : Option String)
deriving Repr

/-- An error of the text itself, or one the visitor raises, to which the deserializer adds its place. -/
inductive VisitError where
  | syntaxFailure (message : String)
  | custom (message : String)
deriving DecidableEq, Repr

mutual

/-- `JsonSeed { depth }.deserialize`, which dispatches to the visitor. -/
def deserialize : Shown → Nat → Except VisitError Value
  | .failure message, _ => .error (.syntaxFailure message)
  | .unit, _ => .ok .null
  | .bool value, _ => .ok (.bool value)
  | .i64 value, _ => .ok (.number (.ofInt64 value))
  | .u64 value, _ => .ok (.number (.posInt value))
  | .f64 bits, _ =>
    match Number.fromF64 bits with
    | some number => .ok (.number number)
    | none => .error (.custom "JSON number is not finite")
  | .str value, _ => .ok (.string value)
  | .string value, _ => .ok (.string value)
  | .seq elements failure, depth =>
    if depth ≥ maxDepth then .error (.custom nestingMessage)
    else do
      let values ← visitSeq elements failure (depth + 1) []
      pure (.array values)
  | .map entries failure, depth =>
    if depth ≥ maxDepth then .error (.custom nestingMessage)
    else do
      let values ← visitMap entries failure (depth + 1) []
      pure (.object values)

def visitSeq : List Shown → Option String → Nat → List Value → Except VisitError (List Value)
  | [], none, _, values => .ok values
  | [], some message, _, _ => .error (.syntaxFailure message)
  | element :: rest, failure, depth, values => do
    let value ← deserialize element depth
    visitSeq rest failure depth (values ++ [value])

def visitMap : List (String × Shown) → Option String → Nat → Entries → Except VisitError Entries
  | [], none, _, values => .ok values
  | [], some message, _, _ => .error (.syntaxFailure message)
  | (key, element) :: rest, failure, depth, values =>
    if (values.get key).isSome then .error (.custom "duplicate JSON object key")
    else do
      let value ← deserialize element depth
      visitMap rest failure depth (values.insert key value).1

end

mutual

/-- What the deserializer shows of a text that spells out a value. -/
def eventsOf : Value → Shown
  | .null => .unit
  | .bool value => .bool value
  | .number (.posInt value) => .u64 value
  | .number (.negInt value) => .i64 value
  | .number (.float bits) => .f64 bits
  | .string value => .str value
  | .array items => .seq (eventsOfItems items) none
  | .object entries => .map (eventsOfEntries entries) none

def eventsOfItems : List Value → List Shown
  | [] => []
  | item :: rest => eventsOf item :: eventsOfItems rest

def eventsOfEntries : List (String × Value) → List (String × Shown)
  | [] => []
  | (key, item) :: rest => (key, eventsOf item) :: eventsOfEntries rest

end

/-- The error of the end of the text: something of another kind follows, or it is no JSON. -/
structure EndError where
  isData : Bool
  message : String
deriving DecidableEq, Repr

/-- The parts of `serde_json` that the library calls. -/
structure SerdeJson where
  fromStr : String → Shown
  /-- The text of an error raised in an input: the message and the place. -/
  located : String → String → String
  ending : String → Option EndError
  render : Value → Except String String

variable (serde : SerdeJson)

def parse (input : String) : Except String Value :=
  if input.utf8ByteSize > maxBytes then .error "JSON input exceeds 8 MiB"
  else do
    let value ← (deserialize (serde.fromStr input) 0).mapError fun
      | .syntaxFailure message => message
      | .custom message => serde.located input message
    match serde.ending input with
    | none => pure value
    | some error => .error (if error.isData then "trailing JSON input" else error.message)

def stringify (value : Value) : Except String String := do
  ensureDepth value 0
  let output ← serde.render value
  if output.utf8ByteSize > maxBytes then .error "JSON output exceeds 8 MiB" else pure output

/-! What the visitor builds is within the bound, and it refuses what is not. -/

variable {entries : Entries} {value : Value} {entry : String × Value} {key : String}

theorem Entries.mem_replace (member : entry ∈ entries.replace key value) : entry ∈ entries ∨ entry.2 = value := by
  induction entries with
  | nil => cases member
  | cons first rest ih =>
    obtain ⟨other, old⟩ := first
    rw [replace] at member
    split at member
    · rcases List.mem_cons.1 member with rfl | later
      · exact .inr rfl
      · exact .inl (List.mem_cons_of_mem _ later)
    · rcases List.mem_cons.1 member with rfl | later
      · exact .inl List.mem_cons_self
      · exact (ih later).imp_left (List.mem_cons_of_mem _)

theorem Entries.mem_add (member : entry ∈ entries.add key value) : entry ∈ entries ∨ entry.2 = value := by
  induction entries with
  | nil =>
    obtain rfl := List.mem_singleton.1 member
    exact .inr rfl
  | cons first rest ih =>
    obtain ⟨other, old⟩ := first
    rw [add] at member
    split at member
    · rcases List.mem_cons.1 member with rfl | later
      · exact .inr rfl
      · exact .inl later
    · rcases List.mem_cons.1 member with rfl | later
      · exact .inl List.mem_cons_self
      · exact (ih later).imp_left (List.mem_cons_of_mem _)

theorem Entries.mem_insert (member : entry ∈ (entries.insert key value).1) : entry ∈ entries ∨ entry.2 = value := by
  rw [insert] at member
  split at member
  · exact mem_replace member
  · exact mem_add member

variable {depth : Nat}

theorem ensureDepthEntries_insert
    (old : ensureDepthEntries entries depth = .ok ()) (new : ensureDepth value depth = .ok ()) :
    ensureDepthEntries (entries.insert key value).1 depth = .ok () := by
  rw [ensureDepthEntries_iff] at old ⊢
  intro entry member
  rcases Entries.mem_insert member with before | rfl
  · exact old entry before
  · exact new

mutual

theorem ensureDepth_deserialize : (shown : Shown) → {depth : Nat} → {value : Value} →
    deserialize shown depth = .ok value → ensureDepth value depth = .ok ()
  | .failure _, _, _, read => by cases read
  | .unit, _, _, read => by cases read; rfl
  | .bool _, _, _, read => by cases read; rfl
  | .i64 _, _, _, read => by cases read; rfl
  | .u64 _, _, _, read => by cases read; rfl
  | .f64 bits, _, _, read => by
    rw [deserialize] at read
    split at read
    · cases read
      rfl
    · cases read
  | .str _, _, _, read => by cases read; rfl
  | .string _, _, _, read => by cases read; rfl
  | .seq elements failure, depth, _, read => by
    rw [deserialize] at read
    split at read
    · cases read
    · next shallow =>
      obtain ⟨values, items, built⟩ := bind_eq_ok.1 read
      obtain rfl := pure_eq_ok.1 built
      exact ensureDepth_array.2 ⟨by omega, ensureDepth_visitSeq elements rfl items⟩
  | .map entries failure, depth, _, read => by
    rw [deserialize] at read
    split at read
    · cases read
    · next shallow =>
      obtain ⟨values, items, built⟩ := bind_eq_ok.1 read
      obtain rfl := pure_eq_ok.1 built
      exact ensureDepth_object.2 ⟨by omega, ensureDepth_visitMap entries rfl items⟩

theorem ensureDepth_visitSeq : (elements : List Shown) → {failure : Option String} → {depth : Nat} →
    {before values : List Value} → ensureDepthItems before depth = .ok () →
    visitSeq elements failure depth before = .ok values → ensureDepthItems values depth = .ok ()
  | [], none, _, _, _, bounded, read => by
    cases read
    exact bounded
  | [], some _, _, _, _, _, read => by cases read
  | element :: rest, failure, depth, before, values, bounded, read => by
    rw [visitSeq] at read
    obtain ⟨value, first, others⟩ := bind_eq_ok.1 read
    refine ensureDepth_visitSeq rest (ensureDepthItems_iff.2 fun item member => ?_) others
    rcases List.mem_append.1 member with old | new
    · exact ensureDepthItems_iff.1 bounded item old
    · obtain rfl := List.mem_singleton.1 new
      exact ensureDepth_deserialize element first

theorem ensureDepth_visitMap : (entries : List (String × Shown)) → {failure : Option String} →
    {depth : Nat} → {before values : Entries} → ensureDepthEntries before depth = .ok () →
    visitMap entries failure depth before = .ok values → ensureDepthEntries values depth = .ok ()
  | [], none, _, _, _, bounded, read => by
    cases read
    exact bounded
  | [], some _, _, _, _, _, read => by cases read
  | (key, element) :: rest, failure, depth, before, values, bounded, read => by
    rw [visitMap] at read
    split at read
    · cases read
    · obtain ⟨value, first, others⟩ := bind_eq_ok.1 read
      exact ensureDepth_visitMap rest
        (ensureDepthEntries_insert bounded (ensureDepth_deserialize element first)) others

end

theorem ensureDepth_parse {input : String} (parsed : parse serde input = .ok value) :
    ensureDepth value 0 = .ok () := by
  rw [parse] at parsed
  split at parsed
  · cases parsed
  · obtain ⟨read, shown, ended⟩ := bind_eq_ok.1 parsed
    split at ended
    · obtain rfl := pure_eq_ok.1 ended
      exact ensureDepth_deserialize _ (mapError_eq_ok.1 shown)
    · cases ended

end BasicNext.Json
