import BasicNext.Lib.Transition
import Mathlib.Data.UInt

/-!
# The barrier

`Barrier::wait` of the dispatch library, as the steps that a wait takes under the lock of the barrier: it
arrives, and whenever it holds the lock again it looks whether its generation has ended. Between two such
steps it sleeps for as long as the scheduler likes.
-/

namespace BasicNext.Dispatch

open Lib

/-- The failures a barrier can give. -/
inductive DispatchFailure where
  | outOfRange (what : String) (value minimum maximum : Int)
  | timeout (ms : Int)
deriving DecidableEq, Repr

def timeoutMinMs : Int := 1
def timeoutMaxMs : Int := 60000
def workerCountMax : Nat := 64

/-- The bounds of a timeout; the instant itself is not modelled. -/
def deadline (timeoutMs : Int) : Except DispatchFailure Unit :=
  if timeoutMinMs ≤ timeoutMs ∧ timeoutMs ≤ timeoutMaxMs then .ok ()
  else .error (.outOfRange "timeout in milliseconds" timeoutMs timeoutMinMs timeoutMaxMs)

structure BarrierState where
  arrived : Nat
  generation : UInt64
  brokenGeneration : Option UInt64
deriving DecidableEq, Repr

structure Barrier where
  parties : Nat
  positive : 0 < parties
  bounded : parties ≤ workerCountMax

def Barrier.new (parties : Int) : Except DispatchFailure (Barrier × BarrierState) :=
  if valid : 0 < parties.toNat ∧ parties.toNat ≤ workerCountMax then
    .ok (⟨parties.toNat, valid.1, valid.2⟩, { arrived := 0, generation := 0, brokenGeneration := none })
  else .error (.outOfRange "number of barrier parties" parties 1 workerCountMax)

namespace BarrierState

/-- An arrival, and whether it is the last one of its generation. -/
def arrive (parties : Nat) (state : BarrierState) : Bool × BarrierState :=
  if state.arrived + 1 = parties then (true, { state with arrived := 0, generation := state.generation + 1 })
  else (false, { state with arrived := state.arrived + 1 })

/-- What a wait that holds the lock does next, given whether its deadline has passed: it returns, or it goes
(back) to sleep. -/
def check (generation : UInt64) (expired : Bool) (timeoutMs : Int) (state : BarrierState) :
    Option (Except DispatchFailure Bool) × BarrierState :=
  if generation = state.generation then
    if expired then
      (some (.error (.timeout timeoutMs)),
        { arrived := 0, generation := state.generation + 1, brokenGeneration := some generation })
    else (none, state)
  else if state.brokenGeneration = some generation then (some (.error (.timeout timeoutMs)), state)
  else (some (.ok false), state)

end BarrierState

/-! ### Runs -/

/-- A wait that has arrived, with the result it returned. `epoch` counts the generations that had ended when
it arrived (the counter of the barrier is that number in 64 bits), and `expired` says that its deadline
passed in its own generation. -/
structure Wait where
  timeoutMs : Int
  generation : UInt64
  epoch : Nat
  expired : Bool
  result : Option (Except DispatchFailure Bool)

def Wait.returnedTrue (wait : Wait) : Bool :=
  match wait.result with
  | some (.ok true) => true
  | _ => false

structure Waits where
  state : BarrierState
  ended : Nat
  waits : List Wait

inductive WaitStep where
  | arrive (timeoutMs : Int) (expired : Bool)
  | wake (index : Nat) (expired : Bool)
deriving DecidableEq, Repr

namespace Waits

/-- A wait that has not returned looks at the barrier. -/
def look (index : Nat) (expired : Bool) (config : Waits) : Option Waits :=
  match config.waits[index]? with
  | none => none
  | some wait =>
    if wait.result.isSome then none
    else
      let looked := config.state.check wait.generation expired wait.timeoutMs
      let breaks := expired && wait.generation == config.state.generation
      some
        { state := looked.2
          ended := if breaks then config.ended + 1 else config.ended
          waits := config.waits.set index { wait with expired := breaks, result := looked.1 } }

def arrive (parties : Nat) (timeoutMs : Int) (expired : Bool) (config : Waits) : Option Waits :=
  match deadline timeoutMs with
  | .error _ => some config
  | .ok () =>
    let wait : Wait :=
      { timeoutMs, generation := config.state.generation, epoch := config.ended, expired := false, result := none }
    match config.state.arrive parties with
    | (true, state) =>
      some
        { state
          ended := config.ended + 1
          waits := config.waits ++ [{ wait with result := some (.ok true) }] }
    | (false, state) =>
      look config.waits.length expired { state, ended := config.ended, waits := config.waits ++ [wait] }

def next (parties : Nat) (config : Waits) : WaitStep → Option Waits
  | .arrive timeoutMs expired => config.arrive parties timeoutMs expired
  | .wake index expired => config.look index expired

def start : Waits where
  state := { arrived := 0, generation := 0, brokenGeneration := none }
  ended := 0
  waits := []

def arrivals (config : Waits) (epoch : Nat) : Nat := config.waits.countP fun wait => wait.epoch == epoch

def trues (config : Waits) (epoch : Nat) : Nat := config.waits.countP fun wait => wait.epoch == epoch && wait.returnedTrue

/-- The deadline of one of its waits passed in this generation. -/
def Broken (config : Waits) (epoch : Nat) : Prop := ∃ wait ∈ config.waits, wait.epoch = epoch ∧ wait.expired = true

/-- A wait returns `Ok` only when all parties arrived in its generation, one of which returned `true`, and
all waits of a broken generation return the timeout. -/
structure Agreement (parties : Nat) (config : Waits) : Prop where
  all : ∀ wait ∈ config.waits, ∀ last, wait.result = some (.ok last) → config.arrivals wait.epoch = parties
  one : ∀ epoch, config.arrivals epoch = parties → config.trues epoch = 1
  timeout : ∀ wait ∈ config.waits, config.Broken wait.epoch → ∀ result, wait.result = some result →
    result = .error (.timeout wait.timeoutMs)

/-- A wait of a broken generation has not returned yet. -/
def Delayed (config : Waits) : Prop := ∃ wait ∈ config.waits, wait.result = none ∧ config.Broken wait.epoch

/-- A deadline passes in the current generation. -/
def Breaks (parties : Nat) (config : Waits) : WaitStep → Prop
  | .arrive timeoutMs expired =>
    deadline timeoutMs = .ok () ∧ config.state.arrived + 1 ≠ parties ∧ expired = true
  | .wake index expired =>
    expired = true ∧ ∃ wait, config.waits[index]? = some wait ∧ wait.result = none ∧ wait.epoch = config.ended

/-- The last party arrives. -/
def Completes (parties : Nat) (config : Waits) : WaitStep → Prop
  | .arrive timeoutMs _ => deadline timeoutMs = .ok () ∧ config.state.arrived + 1 = parties
  | .wake _ _ => False

/-- No wait sleeps through as many generations as the counter can tell apart. -/
def Room (config : Waits) : Prop := ∀ wait ∈ config.waits, wait.result = none → config.ended + 1 < wait.epoch + 2 ^ 64

structure Prompt (parties : Nat) (config : Waits) (step : WaitStep) : Prop where
  breaks : config.Breaks parties step → ¬ config.Delayed
  room : config.Breaks parties step ∨ config.Completes parties step → config.Room

end Waits

def Barrier.system (barrier : Barrier) : System Waits WaitStep := .ofPartial .start (Waits.next barrier.parties)

/-! ### A delayed wait -/

/-- Of three parties, the first arrives and sleeps; the second times out, and so does the first arrival of
the next generation; then the first one wakes. -/
def delayedWake : List WaitStep :=
  [.arrive 5000 false, .arrive 50 false, .wake 1 true, .arrive 50 false, .wake 2 true, .wake 0 false]

end BasicNext.Dispatch
