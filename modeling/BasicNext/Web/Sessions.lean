import BasicNext.Compress.Hex
import BasicNext.Lib.Eviction
import BasicNext.Lib.Triple

/-!
# Server sessions

`SessionTable` and `RequestSession`: one table for all requests of a server, and the session that a request uses. Every
function looks at the table under its lock. The entropy source and the clock are a world that may answer differently
every time; instants are in nanoseconds. What a function changed before an error stays. Requests take their operations in
any order, each to its end before the next.
-/

namespace BasicNext.Web.Sessions

open Lib

abbrev Id := String

abbrev Values := AList fun _ : String => String

structure Entry where
  values : Values
  touched : Nat

abbrev Table := AList fun _ : Id => Entry

def keyMax : Nat := 128

def valueMax : Nat := 4096

def keysMax : Nat := 64

/-- The bounds of a `SessionTable`. -/
structure SessionTable where
  capacity : Nat
  /-- In nanoseconds. -/
  idle : Nat
  someCapacity : 1 ≤ capacity ∧ capacity ≤ 10000
  someIdle : 0 < idle ∧ idle ≤ 30 * 60 * 1000000000

def SessionTable.new (capacity idleMs : Int) : Except String SessionTable :=
  if bounded : 1 ≤ capacity ∧ capacity ≤ 10000 then
    if idle : 0 < idleMs ∧ idleMs ≤ 30 * 60 * 1000 then
      .ok { capacity := capacity.toNat, idle := idleMs.toNat * 1000000, someCapacity := by omega, someIdle := by omega }
    else .error "invalid session idle timeout"
  else .error "invalid session capacity"

inductive CookieChange where
  | keep | set | clear
deriving DecidableEq, Repr

structure SessionState where
  id : Option Id
  cookie : CookieChange
deriving DecidableEq, Repr

/-- What the entropy source, the clock and the order of the table answer. -/
structure World where
  entropy (draw : Nat) : Option (Vector UInt8 16)
  /-- The clock when a look at the table reads how long a session has been idle. -/
  clock (look : Nat) (id : Id) : Nat
  /-- The clock when a look touches a session. -/
  now (look : Nat) : Nat
  /-- The place of a session in the iteration over the table. -/
  place (look : Nat) (id : Id) : Nat

structure State where
  sessions : Table
  requests : Nat → SessionState
  /-- How often the table was looked at, and entropy drawn. -/
  looks : Nat
  draws : Nat

abbrev Act := StateExcept State String

/-- `new_session_id` -/
def newSessionId (bytes : Vector UInt8 16) : Id := "s" ++ Compress.Hex.encodeHex bytes.toList

/-- The table is locked. -/
def lock : Act Nat := do
  let state ← get
  set { state with looks := state.looks + 1 }
  return state.looks

def draw (world : World) : Act (Option (Vector UInt8 16)) := do
  let state ← get
  set { state with draws := state.draws + 1 }
  return world.entropy state.draws

def write (change : Table → Table) : Act Unit := modify fun state => { state with sessions := change state.sessions }

variable (world : World) (table : SessionTable)

/-- `entry.touched.elapsed() < self.idle` -/
def awake (look : Nat) (id : Id) (entry : Entry) : Bool := world.clock look id - entry.touched < table.idle

namespace SessionTable

def live (id : Id) : Act Bool := do
  let look ← lock
  match (← get).sessions.lookup id with
  | some entry =>
    if awake world table look id entry then
      write (·.insert id { entry with touched := world.now look })
      return true
    else
      write (·.erase id)
      return false
  | none => return false

def create (values : Values) : Act Id := do
  match ← draw world with
  | none => throw "session entropy provider unavailable"
  | some bytes =>
    let id := newSessionId bytes
    let look ← lock
    write (Eviction.retain (awake world table look))
    -- a full table forgets the session idle the longest, the first of them in the order of iteration
    write (Eviction.makeRoom table.capacity Entry.touched (world.place look))
    write (·.insert id { values, touched := world.now look })
    return id

def withEntry {β : Type} (id : Id) (operation : Values → Except String (β × Values)) : Act β := do
  let look ← lock
  match (← get).sessions.lookup id with
  | some entry =>
    if awake world table look id entry then
      match operation entry.values with
      | .ok (result, values) =>
        write (·.insert id { values, touched := world.now look })
        return result
      | .error message =>
        write (·.insert id { entry with touched := world.now look })
        throw message
    else throw "session not found"
  | none => throw "session not found"

def remove (id : Id) : Act (Option Values) := do
  let _ ← lock
  let entry := (← get).sessions.lookup id
  write (·.erase id)
  return entry.map (·.values)

def len : Act Nat := do
  let look ← lock
  write (Eviction.retain (awake world table look))
  return (← get).sessions.keys.length

end SessionTable

open SessionTable

namespace RequestSession

/-- `filter(|id| table.live(id))` -/
def filterLive : Option Id → Act (Option Id)
  | none => return none
  | some id => do
    if ← live world table id then return some id else return none

def become (request : Nat) (id : Option Id) (cookie : CookieChange) : Act Unit :=
  modify fun state => { state with requests := Function.update state.requests request { id, cookie } }

def begin (request : Nat) (cookie : Option Id) : Act Unit := do
  become request (← filterLive world table cookie) .keep

def id (request : Nat) : Act Id := do
  match ← filterLive world table ((← get).requests request).id with
  | some id => return id
  | none =>
    let id ← create world table ∅
    become request (some id) .set
    return id

def current (request : Nat) : Act (Option Id) := do filterLive world table ((← get).requests request).id

def get (request : Nat) (key : String) : Act (Option String) := do
  match ← current world table request with
  | none => return none
  | some id => withEntry world table id fun values => .ok (values.lookup key, values)

def set (request : Nat) (key value : String) : Act Unit := do
  if key = "" ∨ keyMax < key.utf8ByteSize ∨ valueMax < value.utf8ByteSize then throw "invalid session entry"
  let id ← id world table request
  withEntry world table id fun values =>
    if key ∉ values ∧ keysMax ≤ values.keys.length then .error "session key limit exceeded"
    else .ok ((), values.insert key value)

def remove (request : Nat) (key : String) : Act Bool := do
  match ← current world table request with
  | none => return false
  | some id => withEntry world table id fun values => .ok ((values.lookup key).isSome, values.erase key)

def rotate (request : Nat) : Act Id := do
  let old ← id world table request
  let values := (← SessionTable.remove old).getD ∅
  let id ← create world table values
  become request (some id) .set
  return id

def end' (request : Nat) : Act Unit := do
  match ((← MonadState.get).requests request).id with
  | some id =>
    let _ ← SessionTable.remove id
    become request none .clear
  | none => become request none .clear

end RequestSession

/-! ### Runs -/

inductive Operation where
  | begin (request : Nat) (cookie : Option Id)
  | id (request : Nat)
  | get (request : Nat) (key : String)
  | set (request : Nat) (key value : String)
  | remove (request : Nat) (key : String)
  | rotate (request : Nat)
  | end' (request : Nat)
  /-- The number of live sessions, which forgets those that have expired. -/
  | len
deriving DecidableEq, Repr

/-- What a program leaves, with or without an error. -/
def left {α : Type} (act : Act α) (state : State) : State := (act.run.run state).2

def next (state : State) : Operation → State
  | .begin request cookie => left (RequestSession.begin world table request cookie) state
  | .id request => left (RequestSession.id world table request) state
  | .get request key => left (RequestSession.get world table request key) state
  | .set request key value => left (RequestSession.set world table request key value) state
  | .remove request key => left (RequestSession.remove world table request key) state
  | .rotate request => left (RequestSession.rotate world table request) state
  | .end' request => left (RequestSession.end' request) state
  | .len => left (len world table) state

def initial : State := { sessions := ∅, requests := fun _ => { id := none, cookie := .keep }, looks := 0, draws := 0 }

def run (state : State) (operations : List Operation) : State := operations.foldl (next world table) state

end BasicNext.Web.Sessions
