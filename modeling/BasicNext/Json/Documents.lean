import BasicNext.Json.Parse
import Mathlib.Data.List.AList

/-!
# The document table

The documents of one module copy and the number of holders of each (`bn_core_json::documents`). A
document is named by a handle from a counter that the copies of a process share. Writes change a
document in place and undo a write that nests it past the limit; nesting one document in another moves
it there.
-/

namespace BasicNext.Json

open Lib

/-- Where a read or write looked in a document. -/
inductive Place where
  | key (key : String)
  | index (index : Int64)
deriving DecidableEq, Repr

inductive JsonFailure where
  | invalidHandle
  | missing (key : String)
  | wrongKind (place : Place) (expected found : String)
  | notContainer (expected found : String)
  | outOfRange (index : Int64) (length : Nat)
  | depth
  | nonFinite
  | selfMove
  | parse (reason : String)
  | stringify (reason : String)
  | unavailable
deriving DecidableEq, Repr

abbrev Outcome := Except JsonFailure

abbrev Handle := UInt64

/-- A hash map from handles. -/
abbrev Table (α : Type) := AList fun _ : Handle => α

structure Documents where
  values : Table Value
  holders : Table UInt64
  /-- The next handle, for every copy of the process. -/
  next : UInt64

/-! ### Handles and holders -/

namespace Documents

/-- Files a value and returns its handle with one holder. -/
def store (documents : Documents) (value : Value) : Handle × Documents :=
  let handle := documents.next
  (handle,
    { values := documents.values.insert handle value
      holders := documents.holders.insert handle 1
      next := documents.next + 1 })

def document (documents : Documents) (handle : Handle) : Option Value :=
  documents.values.lookup handle

/-- One more binding holds the handle. -/
def retain (documents : Documents) (handle : Handle) : Bool × Documents :=
  match documents.holders.lookup handle with
  | some count => (true, { documents with holders := documents.holders.insert handle (count + 1) })
  | none => (false, documents)

/-- Drops one reference, and the document with the last. -/
def release (documents : Documents) (handle : Handle) : Bool × Documents :=
  match documents.holders.lookup handle with
  | some count =>
    if count - 1 = 0 then
      (true,
        { documents with
          holders := documents.holders.erase handle
          values := documents.values.erase handle })
    else (true, { documents with holders := documents.holders.insert handle (count - 1) })
  | none => (false, documents)

end Documents

/-! ### Writes into the values -/

/-- What the writing of a member undoes with: the value that was there, or none. -/
def Entries.restore (written : Entries) (key : String) (previous : Option Value) : Entries :=
  match previous with
  | some previous => (Entries.insert written key previous).1
  | none => Entries.remove key written

/-- Writes a member of an object; a write past the depth limit is undone. -/
def setValue (values : Table Value) (handle : Handle) (key : String) (value : Value) :
    Outcome Unit × Table Value :=
  match values.lookup handle with
  | none => (.error .invalidHandle, values)
  | some (.object entries) =>
    let written := Entries.insert entries key value
    if depthOf (.object written.1) > maxDepth then
      (.error .depth, values.insert handle (.object (Entries.restore written.1 key written.2)))
    else (.ok (), values.insert handle (.object written.1))
  | some target => (.error (.notContainer "object" (kindOf target)), values)

/-- Appends to an array; an append past the depth limit is undone. -/
def appendValue (values : Table Value) (handle : Handle) (value : Value) :
    Outcome Unit × Table Value :=
  match values.lookup handle with
  | none => (.error .invalidHandle, values)
  | some (.array items) =>
    let written := items ++ [value]
    if depthOf (.array written) > maxDepth then
      (.error .depth, values.insert handle (.array written.dropLast))
    else (.ok (), values.insert handle (.array written))
  | some target => (.error (.notContainer "array" (kindOf target)), values)

/-- The position of an index in an array, or why there is none. -/
def position (items : List Value) (index : Int64) : Outcome Nat :=
  if 0 ≤ index.toInt ∧ index.toInt.toNat < items.length then .ok index.toInt.toNat
  else .error (.outOfRange index items.length)

/-- Writes an element of an array; a write past the depth limit is undone. -/
def setAt (values : Table Value) (handle : Handle) (index : Int64) (value : Value) :
    Outcome Unit × Table Value :=
  match values.lookup handle with
  | none => (.error .invalidHandle, values)
  | some (.array items) =>
    match position items index with
    | .error failure => (.error failure, values)
    | .ok slot =>
      let previous := items.getD slot .null
      let written := items.set slot value
      if depthOf (.array written) > maxDepth then
        (.error .depth, values.insert handle (.array (written.set slot previous)))
      else (.ok (), values.insert handle (.array written))
  | some target => (.error (.notContainer "array" (kindOf target)), values)

/-! ### Reads -/

/-- The member under a key, projected; `expected` names the type for a member of another kind. -/
def getValue {T : Type} (values : Table Value) (handle : Handle) (key expected : String)
    (project : Value → Option T) : Outcome T :=
  match values.lookup handle with
  | none => .error .invalidHandle
  | some target =>
    let found :=
      match target with
      | .object entries => Entries.get key entries
      | _ => none
    match found with
    | none => .error (.missing key)
    | some value =>
      match project value with
      | some read => .ok read
      | none => .error (.wrongKind (.key key) expected (kindOf value))

/-- The element at an index, projected; `expected` names the type for an element of another kind. -/
def element {T : Type} (values : Table Value) (handle : Handle) (index : Int64) (expected : String)
    (project : Value → Option T) : Outcome T :=
  match values.lookup handle with
  | none => .error .invalidHandle
  | some (.array items) =>
    match position items index with
    | .error failure => .error failure
    | .ok slot =>
      let value := items.getD slot .null
      match project value with
      | some read => .ok read
      | none => .error (.wrongKind (.index index) expected (kindOf value))
  | some target => .error (.notContainer "array" (kindOf target))

/-! ### Operations of the module -/

namespace Documents

variable (serde : SerdeJson)

def parseDocument (documents : Documents) (text : String) : Outcome Handle × Documents :=
  match parse serde text with
  | .ok value => let stored := documents.store value; (.ok stored.1, stored.2)
  | .error reason => (.error (.parse reason), documents)

def stringifyDocument (documents : Documents) (handle : Handle) : Outcome String :=
  match documents.document handle with
  | none => .error .invalidHandle
  | some value => (stringify serde value).mapError .stringify

/-- A write into the values alone. -/
def write (documents : Documents) (edit : Table Value → Outcome Unit × Table Value) :
    Outcome Unit × Documents :=
  let edited := edit documents.values
  (edited.1, { documents with values := edited.2 })

/-- Moves a child into a parent, consuming the handle of the child when the write succeeds. -/
def moveChild (documents : Documents) (parent child : Handle)
    (edit : Value → Table Value → Outcome Unit × Table Value) : Outcome Unit × Documents :=
  if parent = child then (.error .selfMove, documents)
  else
    match documents.document child with
    | none => (.error .invalidHandle, documents)
    | some value =>
      match documents.write (edit value) with
      | (.error failure, written) => (.error failure, written)
      | (.ok (), written) => (.ok (), (written.release child).2)

def moveInto (documents : Documents) (parent : Handle) (key : String) (child : Handle) :
    Outcome Unit × Documents :=
  documents.moveChild parent child fun value values => setValue values parent key value

def moveIntoAt (documents : Documents) (parent : Handle) (index : Int64) (child : Handle) :
    Outcome Unit × Documents :=
  documents.moveChild parent child fun value values => setAt values parent index value

def appendMoved (documents : Documents) (parent child : Handle) : Outcome Unit × Documents :=
  documents.moveChild parent child fun value values => appendValue values parent value

/-- Duplicates a document. -/
def cloneDocument (documents : Documents) (handle : Handle) : Option Handle × Documents :=
  match documents.document handle with
  | some value => let stored := documents.store value; (some stored.1, stored.2)
  | none => (none, documents)

/-- Stores what a read found. -/
def storeRead (documents : Documents) : Outcome Value → Outcome Handle × Documents
  | .ok value => let stored := documents.store value; (.ok stored.1, stored.2)
  | .error failure => (.error failure, documents)

def getJson (documents : Documents) (handle : Handle) (key : String) : Outcome Handle × Documents :=
  documents.storeRead (getValue documents.values handle key "Json" some)

def getJsonAt (documents : Documents) (handle : Handle) (index : Int64) :
    Outcome Handle × Documents :=
  documents.storeRead (element documents.values handle index "Json" some)

def object (documents : Documents) : Handle × Documents := documents.store (.object [])

def array (documents : Documents) : Handle × Documents := documents.store (.array [])

end Documents

inductive Operation where
  | parse (text : String)
  | stringify (handle : Handle)
  | object
  | array
  /-- A variable of the type `Json` is declared: a null document. -/
  | allocate
  | clone (handle : Handle)
  | getJson (handle : Handle) (key : String)
  | getJsonAt (handle : Handle) (index : Int64)
  | setValue (handle : Handle) (key : String) (value : Value)
  | setAt (handle : Handle) (index : Int64) (value : Value)
  | appendValue (handle : Handle) (value : Value)
  | moveInto (parent : Handle) (key : String) (child : Handle)
  | moveIntoAt (parent : Handle) (index : Int64) (child : Handle)
  | appendMoved (parent child : Handle)
  | retain (handle : Handle)
  | release (handle : Handle)
  /-- Another copy of the process takes a handle from the counter. -/
  | elsewhere

inductive Answer where
  | handle (outcome : Outcome Handle)
  | copy (handle : Option Handle)
  | text (outcome : Outcome String)
  | done (outcome : Outcome Unit)
  | held (found : Bool)
  | none

def perform (serde : SerdeJson) (documents : Documents) : Operation → Answer × Documents
  | .parse text => (documents.parseDocument serde text).map .handle id
  | .stringify handle => (.text (documents.stringifyDocument serde handle), documents)
  | .object => documents.object.map (.handle ∘ .ok) id
  | .array => documents.array.map (.handle ∘ .ok) id
  | .allocate => (documents.store .null).map (.handle ∘ .ok) id
  | .clone handle => (documents.cloneDocument handle).map .copy id
  | .getJson handle key => (documents.getJson handle key).map .handle id
  | .getJsonAt handle index => (documents.getJsonAt handle index).map .handle id
  | .setValue handle key value =>
    (documents.write (Json.setValue · handle key value)).map .done id
  | .setAt handle index value => (documents.write (Json.setAt · handle index value)).map .done id
  | .appendValue handle value => (documents.write (Json.appendValue · handle value)).map .done id
  | .moveInto parent key child => (documents.moveInto parent key child).map .done id
  | .moveIntoAt parent index child => (documents.moveIntoAt parent index child).map .done id
  | .appendMoved parent child => (documents.appendMoved parent child).map .done id
  | .retain handle => (documents.retain handle).map .held id
  | .release handle => (documents.release handle).map .held id
  | .elsewhere => (.none, { documents with next := documents.next + 1 })

end BasicNext.Json
