import BasicNext.Lib.Triple
import BasicNext.Lib.UnixPath
import Mathlib.Data.UInt

/-!
# Extracting an archive

`extract_all_within` of `bn_core_compress`: every entry is written under a destination, through the file
access of the backend, and all entries together stay within a limit. The file access, the file system and
the entries that the `zip` crate shows are parameters, so any of them may fail at any time. A log records
what the extraction asks of the file access and what it writes.
-/

namespace BasicNext.Compress

open Lib Lib.UnixPath

structure IoError where
  notFound : Bool
  text : String
deriving DecidableEq, Repr

/-- A failure by its constructor; the texts of the message catalogue are left out. -/
inductive CompressError where
  | io (error : IoError)
  | archive (code : Nat) (cause : String)
  | notOpen
  | policyDenied (path : Path) (reason : String)
  | limitExceeded (limit : UInt64)
  | zipSlip (entry : String)
deriving DecidableEq, Repr

/-- What ends an extraction: an error, or a subtraction that underflows. -/
inductive Fault where
  | failed (error : CompressError)
  | underflow
deriving DecidableEq, Repr

/-- The bytes an entry really yields, after which it ends or fails. -/
structure Reader where
  length : Nat
  failure : Option IoError
deriving DecidableEq, Repr

structure Entry where
  name : String
  enclosedName : Option Path
  isDir : Bool
  /-- The size in the header, which the extraction never reads. -/
  declaredSize : UInt64
  reader : Reader
deriving DecidableEq, Repr

/-- The file access of a backend and the file system below it. -/
structure Host (σ : Type) where
  canonicalize : σ → Path → Option Path
  exists_ : σ → Path → Bool
  check : σ → Path → Bool → Except String Unit
  createDirAll : σ → Path → Except IoError Unit × σ
  create : σ → Path → Except IoError Unit × σ
  removeFile : σ → Path → Except IoError Unit × σ
  /-- How many bytes the open file takes before a write fails, where one does. -/
  room : σ → Path → Option (Nat × IoError)
  write : σ → Path → Nat → σ
  isRefusal : IoError → Bool

inductive Event where
  /-- The policy allowed writing. -/
  | authorized (path : Path)
  | directory (path : Path)
  /-- Created or truncated. -/
  | file (path : Path)
  | wrote (path : Path) (bytes : Nat)
  | removed (path : Path)
  /-- The removal failed. -/
  | kept (path : Path)
deriving DecidableEq, Repr

structure World (σ : Type) where
  state : σ
  log : List Event

abbrev Action (σ α : Type) := StateExcept (World σ) Fault α

variable {σ : Type} (host : Host σ)

def fail {α : Type} (error : CompressError) : Action σ α := throw (.failed error)

def record (event : Event) : Action σ Unit := modify fun world => { world with log := world.log ++ [event] }

/-- Applies the policy to a path to be written, turning a denial into `POLICY_DENIED`. -/
def authorize (path : Path) : Action σ Unit := do
  match host.check (← get).state path true with
  | .ok () => record (.authorized path)
  | .error reason => fail (.policyDenied path reason)

/-- An operation of the file access on a path; a refusal of the policy is `POLICY_DENIED`. -/
def performed (path : Path) (operation : σ → Path → Except IoError Unit × σ) : Action σ Unit := do
  let world ← get
  let result := operation world.state path
  set { world with state := result.2 }
  match result.1 with
  | .ok () => pure ()
  | .error error =>
    if host.isRefusal error then fail (.policyDenied path error.text) else fail (.io error)

def createDirectory (path : Path) : Action σ Unit := do
  record (.directory path)
  performed host path host.createDirAll

def createParent (path : Path) : Action σ Unit := do
  match parent path with
  | none => pure ()
  | some parent =>
    if parent ≠ [] ∧ !host.exists_ (← get).state parent then
      authorize host parent
      createDirectory host parent
    else pure ()

/-- Creates or truncates a path for writing, with its missing parents. -/
def createFile (path : Path) : Action σ Unit := do
  createParent host path
  authorize host path
  record (.file path)
  performed host path host.create

/-- The bytes that reach the file when a reader is copied up to a limit, and what stops the copy early:
the file is full, or the reader fails where it is read again. -/
def copied (reader : Reader) (limit : Nat) (room : Option (Nat × IoError)) : Nat × Option IoError :=
  let supplied := min reader.length limit
  let readFailure := if reader.length < limit then reader.failure else none
  match room with
  | some (room, error) => if room < supplied then (room, some error) else (supplied, readFailure)
  | none => (supplied, readFailure)

/-- `io::copy` of a reader cut at a limit. -/
def copy (path : Path) (reader : Reader) (limit : Nat) : Action σ Nat := do
  let world ← get
  let result := copied reader limit (host.room world.state path)
  set { world with state := host.write world.state path result.1 }
  record (.wrote path result.1)
  match result.2 with
  | none => pure result.1
  | some error => fail (.io error)

def saturatingSucc (budget : UInt64) : Nat := min (budget.toNat + 1) (2 ^ 64 - 1)

/-- Reads a reader to its end, refusing to hold more than a limit; the answer is how many bytes are held. -/
def readBounded (reader : Reader) (limit : UInt64) : Except IoError (Except CompressError Nat) :=
  let result := copied reader (saturatingSucc limit) none
  match result.2 with
  | some error => .error error
  | none => .ok (if result.1 > limit.toNat then .error (.limitExceeded limit) else .ok result.1)

def removeFile (path : Path) : Action σ Unit := do
  let world ← get
  let result := host.removeFile world.state path
  set { world with state := result.2 }
  match result.1 with
  | .ok () => record (.removed path)
  | .error _ => record (.kept path)

/-- `budget -= written` -/
def spend (budget : UInt64) (written : Nat) : Action σ UInt64 :=
  if budget.toNat < written then throw .underflow else pure (budget - .ofNat written)

/-- One entry of the archive, with the budget that is left. -/
def extractEntry (dest : Path) (limit : UInt64) (entry : Entry) (budget : UInt64) : Action σ UInt64 := do
  match entry.enclosedName with
  | none => fail (.zipSlip entry.name)
  | some enclosed =>
    let outpath := push dest enclosed
    if !startsWith outpath dest then fail (.zipSlip entry.name)
    else if entry.isDir then
      if !host.exists_ (← get).state outpath then
        authorize host outpath
        createDirectory host outpath
        pure budget
      else pure budget
    else
      createFile host outpath
      let written ← copy host outpath entry.reader (saturatingSucc budget)
      if written > budget.toNat then
        removeFile host outpath
        fail (.limitExceeded limit)
      else spend budget written

/-- The entries as the archive opens them, one after another. -/
def extractEntries (dest : Path) (limit : UInt64) : List (Except CompressError Entry) → UInt64 → Action σ Unit
  | [], _ => pure ()
  | .error error :: _, _ => fail error
  | .ok entry :: rest, budget => do
    let budget ← extractEntry host dest limit entry budget
    extractEntries dest limit rest budget

/-- The destination in the form the file system has for it, if it has one. -/
def destination (state : σ) (requested : Path) : Path := (host.canonicalize state requested).getD requested

def extractAllWithin (archive : Except CompressError (List (Except CompressError Entry)))
    (requested : Path) (limit : UInt64) : Action σ Unit := do
  let dest := destination host (← get).state requested
  match archive with
  | .error error => fail error
  | .ok entries => extractEntries host dest limit entries limit

end BasicNext.Compress
