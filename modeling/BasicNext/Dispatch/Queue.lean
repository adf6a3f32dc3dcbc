import BasicNext.Lib.Threads
import Mathlib.Data.List.Basic

/-!
# Dispatch queues

Queues, tickets and workers of `bn_core_dispatch`, as threads that take atomic steps: taking or leaving
the queue's lock, one look at or change of a ticket under the ticket's own lock, one notification of the
queue's condition variable, one operation on the channel. A thread inside `Queue::join`,
`Queue::close`, `submit_with`, a ticket operation or the worker loop is at a program point of that
function; between two points any other thread may step.

Tickets are numbered in the order of their creation; the random key under which the queue's map holds a
ticket never collides, and is left out, as are the task and output texts of a ticket. A wait may end
at any moment (`elapse`), by its deadline or spuriously. What the job of a ticket does to tickets and
queues is done by user threads, which may call any operation at any time.
-/

namespace BasicNext.Dispatch

/-! ### Tickets -/

/-- `PENDING`, `RUNNING`, `COMPLETED`, `FAILED`, `CANCELLED` -/
inductive Status where
  | pending | running | completed | failed | cancelled
deriving DecidableEq, Repr

/-- `matches!(status, COMPLETED | FAILED | CANCELLED)` -/
def Status.isDone : Status → Bool
  | .completed | .failed | .cancelled => true
  | .pending | .running => false

structure TicketState where
  status : Status := .pending
  error : Option (Int × String) := none
  closed : Bool := false
deriving DecidableEq, Repr

namespace TicketState

def isTerminal (state : TicketState) : Bool := state.closed || state.status.isDone

/-- `Ok(true)` when the ticket was pending, and an error (`none`) when it is closed. -/
def cancel (state : TicketState) : Option (TicketState × Bool) :=
  if state.closed then none
  else if state.status = .pending then some ({ state with status := .cancelled }, true)
  else some (state, false)

def close (state : TicketState) : TicketState := { state with closed := true }

def markRunning (state : TicketState) : Option TicketState :=
  if state.closed ∨ state.status ≠ .pending then none else some { state with status := .running }

/-- The new state when the operation takes effect and notifies. -/
def markCompleted (state : TicketState) : Option TicketState :=
  if state.status = .running then some { state with status := .completed } else none

def markFailed (code : Int) (message : String) (state : TicketState) : Option TicketState :=
  if state.status = .running then some { state with status := .failed, error := some (code, message) }
  else none

def cancelPending (state : TicketState) : Option TicketState :=
  if state.status = .pending then some { state with status := .cancelled } else none

end TicketState

/-! ### Threads and their program points -/

inductive Thread where
  | user (number : Nat)
  | worker (number : Nat)
deriving DecidableEq, Repr

abbrev TicketId := Nat

/-- Where a thread is in `Queue::join`. -/
inductive JoinPoint where
  | lock
  /-- Holds the lock; these tickets are still to look at. -/
  | check (rest : List TicketId)
  /-- Holds the lock; a ticket was not terminal, and the wait or the timeout comes next. -/
  | decide
  | wait
deriving DecidableEq, Repr

/-- Where a thread is in `Queue::close`. -/
inductive ClosePoint where
  | lock
  /-- Holds the lock; these tickets are still to cancel. -/
  | cancel (rest : List TicketId)
  /-- Holds the lock and the lock of `ticket`, which it has cancelled. -/
  | cancelNotify (ticket : TicketId) (rest : List TicketId)
  | takeSender
  | notify
  | checkLock
  /-- Holds the lock; these tickets are still to look at. -/
  | check (rest : List TicketId)
  /-- A ticket was not terminal; the lock is not held. -/
  | decide
  /-- Holds the lock again, to wait. -/
  | waitLocked
  | wait
  | relock
  | joinWorkers
deriving DecidableEq, Repr

/-- Where a thread is in `submit_with`. -/
inductive SubmitPoint where
  | lock
  /-- Holds the lock; these tickets are still to retain or to drop. -/
  | retain (rest : List TicketId)
  /-- Holds the lock; the ticket is in the map, its job is not sent. -/
  | send (ticket : TicketId)
  /-- Holds the lock. -/
  | notify
deriving DecidableEq, Repr

/-- Where a worker is in its loop and in the closure of a job. -/
inductive WorkerPoint where
  | receive
  | start (ticket : TicketId)
  /-- Inside the submitted job. -/
  | job (ticket : TicketId)
  | returned (ticket : TicketId)
  | panicked (ticket : TicketId)
  /-- The job returned and the status was `RUNNING`. -/
  | complete (ticket : TicketId)
  /-- Holds the lock of `ticket`, whose status it has set. -/
  | notify (ticket : TicketId)
  | exited
deriving DecidableEq, Repr

inductive Point where
  | idle
  | join (point : JoinPoint)
  | close (point : ClosePoint)
  | submit (point : SubmitPoint)
  /-- A ticket operation that holds the lock of `ticket`, whose status it has set. -/
  | ticket (ticket : TicketId)
  | worker (point : WorkerPoint)
deriving DecidableEq, Repr

inductive Call where
  | join
  | close
  | submit
  | cancel (ticket : TicketId)
  | closeTicket (ticket : TicketId)
  | markCompleted (ticket : TicketId)
  | markFailed (ticket : TicketId) (code : Int) (message : String)
deriving DecidableEq, Repr

inductive Action where
  /-- A user thread calls a public operation. -/
  | call (call : Call)
  /-- The next atomic step. -/
  | proceed
  /-- The next atomic step of a loop over the map, with the ticket it comes to. -/
  | examine (ticket : TicketId)
  /-- A deadline has passed, a wait ends, a job panics, or no ticket key is free. -/
  | elapse
deriving DecidableEq, Repr

/-! ### The shared state -/

/-- A ticket with its lock, and what its history records. -/
structure Cell where
  state : TicketState := {}
  locked : Bool := false
  /-- How often the job was started. -/
  runs : Nat := 0
  /-- A `cancel` returned true. -/
  cancelled : Bool := false
  /-- The worker that marked the ticket running. -/
  runner : Option Thread := none
deriving DecidableEq, Repr

structure Shared where
  workers : Nat
  /-- `dispatch_limits().pending_tickets_max`, also the capacity of the channel. -/
  limit : Nat
  lock : Option Thread := none
  closed : Bool := false
  senderOpen : Bool := true
  /-- The tickets in the queue's map. -/
  tickets : List TicketId := []
  cell : TicketId → Cell := fun _ => {}
  created : Nat := 0
  channel : List TicketId := []
  exited : Nat := 0
  /-- The tickets whose job was sent, that is, the successful submissions. -/
  sent : List TicketId := []
  /-- The jobs submitted before the last call of `join` by a thread. -/
  before : Thread → List TicketId := fun _ => []

namespace Shared

def terminal (shared : Shared) (ticket : TicketId) : Bool := (shared.cell ticket).state.isTerminal

def setCell (shared : Shared) (ticket : TicketId) (cell : Cell) : Shared :=
  { shared with cell := Function.update shared.cell ticket cell }

/-- The first half of a ticket operation that takes effect: the status is set, the lock is held. -/
def setState (shared : Shared) (ticket : TicketId) (state : TicketState) : Shared :=
  shared.setCell ticket { shared.cell ticket with state, locked := true }

/-- The second half: the lock is given back. -/
def unlockTicket (shared : Shared) (ticket : TicketId) : Shared :=
  shared.setCell ticket { shared.cell ticket with locked := false }

end Shared

/-! ### The steps -/

def joinStep (thread : Thread) (shared : Shared) : JoinPoint → Action → Option (Shared × Point)
  | .lock, .proceed =>
    if shared.lock = none then
      some ({ shared with lock := some thread }, .join (.check shared.tickets))
    else none
  | .check rest, .examine ticket =>
    if ticket ∈ rest ∧ (shared.cell ticket).locked = false then
      if shared.terminal ticket then some (shared, .join (.check (rest.erase ticket)))
      else some (shared, .join .decide)
    else none
  -- `return Ok(())`
  | .check [], .proceed => some ({ shared with lock := none }, .idle)
  -- `Timeout`
  | .decide, .elapse => some ({ shared with lock := none }, .idle)
  | .decide, .proceed => some ({ shared with lock := none }, .join .wait)
  | .wait, .elapse => some (shared, .join .lock)
  | _, _ => none

def closeStep (thread : Thread) (shared : Shared) : ClosePoint → Action → Option (Shared × Point)
  | .lock, .proceed =>
    if shared.lock = none then
      some ({ shared with lock := some thread, closed := true }, .close (.cancel shared.tickets))
    else none
  | .cancel rest, .examine ticket =>
    if ticket ∈ rest ∧ (shared.cell ticket).locked = false then
      match (shared.cell ticket).state.cancelPending with
      | some state => some (shared.setState ticket state, .close (.cancelNotify ticket (rest.erase ticket)))
      | none => some (shared, .close (.cancel (rest.erase ticket)))
    else none
  | .cancelNotify ticket rest, .proceed => some (shared.unlockTicket ticket, .close (.cancel rest))
  | .cancel [], .proceed => some ({ shared with lock := none }, .close .takeSender)
  | .takeSender, .proceed => some ({ shared with senderOpen := false }, .close .notify)
  | .notify, .proceed => some (shared, .close .checkLock)
  | .checkLock, .proceed =>
    if shared.lock = none then
      some ({ shared with lock := some thread }, .close (.check shared.tickets))
    else none
  | .check rest, .examine ticket =>
    if ticket ∈ rest ∧ (shared.cell ticket).locked = false then
      if shared.terminal ticket then some (shared, .close (.check (rest.erase ticket)))
      else some ({ shared with lock := none }, .close .decide)
    else none
  | .check [], .proceed => some ({ shared with lock := none }, .close .joinWorkers)
  | .decide, .elapse => some (shared, .idle)
  | .decide, .proceed =>
    if shared.lock = none then some ({ shared with lock := some thread }, .close .waitLocked) else none
  | .waitLocked, .proceed => some ({ shared with lock := none }, .close .wait)
  | .wait, .elapse => some (shared, .close .relock)
  -- the guard of the wait is dropped at the end of the loop's body
  | .relock, .proceed => if shared.lock = none then some (shared, .close .checkLock) else none
  | .joinWorkers, .proceed => if shared.exited = shared.workers then some (shared, .idle) else none
  | .joinWorkers, .elapse => some (shared, .idle)
  | _, _ => none

def submitStep (thread : Thread) (shared : Shared) : SubmitPoint → Action → Option (Shared × Point)
  | .lock, .proceed =>
    if shared.lock = none then
      if shared.closed then some (shared, .idle)
      else some ({ shared with lock := some thread }, .submit (.retain shared.tickets))
    else none
  | .retain rest, .examine ticket =>
    if ticket ∈ rest ∧ (shared.cell ticket).locked = false then
      if shared.terminal ticket then
        some ({ shared with tickets := shared.tickets.erase ticket }, .submit (.retain (rest.erase ticket)))
      else some (shared, .submit (.retain (rest.erase ticket)))
    else none
  | .retain [], .proceed =>
    if shared.limit ≤ shared.tickets.length then some ({ shared with lock := none }, .idle)
    else
      some ({ (shared.setCell shared.created {}) with
          tickets := shared.tickets ++ [shared.created], created := shared.created + 1 },
        .submit (.send shared.created))
  -- no entropy, or eight keys in use
  | .retain [], .elapse => some ({ shared with lock := none }, .idle)
  | .send ticket, .proceed =>
    if shared.senderOpen = false then some ({ shared with lock := none }, .idle)
    else if shared.channel.length < shared.limit then
      some ({ shared with channel := shared.channel ++ [ticket], sent := shared.sent ++ [ticket] }, .submit .notify)
    else some ({ shared with tickets := shared.tickets.erase ticket, lock := none }, .idle)
  | .notify, .proceed => some ({ shared with lock := none }, .idle)
  | _, _ => none

/-- A call by a user thread, which has a ticket only from a submission that succeeded. A ticket
operation that changes no status returns at once. -/
def callStep (thread : Thread) (shared : Shared) : Call → Option (Shared × Point)
  | .join =>
    some ({ shared with before := Function.update shared.before thread shared.sent }, .join .lock)
  | .close => some (shared, .close .lock)
  | .submit => some (shared, .submit .lock)
  | .cancel ticket =>
    if ticket ∈ shared.sent ∧ (shared.cell ticket).locked = false then
      match (shared.cell ticket).state.cancel with
      | some (state, true) =>
        some (shared.setCell ticket { shared.cell ticket with state, locked := true, cancelled := true }, .ticket ticket)
      | _ => some (shared, .idle)
    else none
  | .closeTicket ticket =>
    if ticket ∈ shared.sent ∧ (shared.cell ticket).locked = false then
      some (shared.setCell ticket
        { shared.cell ticket with state := (shared.cell ticket).state.close }, .idle)
    else none
  | .markCompleted ticket =>
    if ticket ∈ shared.sent ∧ (shared.cell ticket).locked = false then
      match (shared.cell ticket).state.markCompleted with
      | some state => some (shared.setState ticket state, .ticket ticket)
      | none => some (shared, .idle)
    else none
  | .markFailed ticket code message =>
    if ticket ∈ shared.sent ∧ (shared.cell ticket).locked = false then
      match (shared.cell ticket).state.markFailed code message with
      | some state => some (shared.setState ticket state, .ticket ticket)
      | none => some (shared, .idle)
    else none

def workerStep (thread : Thread) (shared : Shared) : WorkerPoint → Action → Option (Shared × Point)
  | .receive, .proceed =>
    match shared.channel with
    | ticket :: channel => some ({ shared with channel }, .worker (.start ticket))
    | [] =>
      if shared.senderOpen then none
      else some ({ shared with exited := shared.exited + 1 }, .worker .exited)
  | .start ticket, .proceed =>
    if (shared.cell ticket).locked then none
    else
      match (shared.cell ticket).state.markRunning with
      | some state =>
        some (shared.setCell ticket { shared.cell ticket with
            state, runs := (shared.cell ticket).runs + 1, runner := some thread },
          .worker (.job ticket))
      | none => some (shared, .worker .receive)
  | .job ticket, .proceed => some (shared, .worker (.returned ticket))
  | .job ticket, .elapse => some (shared, .worker (.panicked ticket))
  | .returned ticket, .proceed =>
    if (shared.cell ticket).locked then none
    else if (shared.cell ticket).state.status = .running then some (shared, .worker (.complete ticket))
    else some (shared, .worker .receive)
  | .complete ticket, .proceed =>
    if (shared.cell ticket).locked then none
    else
      match (shared.cell ticket).state.markCompleted with
      | some state => some (shared.setState ticket state, .worker (.notify ticket))
      | none => some (shared, .worker .receive)
  | .panicked ticket, .proceed =>
    if (shared.cell ticket).locked then none
    else
      match (shared.cell ticket).state.markFailed 1 "dispatch task panicked" with
      | some state => some (shared.setState ticket state, .worker (.notify ticket))
      | none => some (shared, .worker .receive)
  | .notify ticket, .proceed => some (shared.unlockTicket ticket, .worker .receive)
  | _, _ => none

def act (thread : Thread) (shared : Shared) : Point → Action → Option (Shared × Point)
  | .idle, .call call =>
    match thread with
    | .user _ => callStep thread shared call
    | .worker _ => none
  | .join point, action => joinStep thread shared point action
  | .close point, action => closeStep thread shared point action
  | .submit point, action => submitStep thread shared point action
  | .ticket ticket, .proceed => some (shared.unlockTicket ticket, .idle)
  | .worker point, action => workerStep thread shared point action
  | _, _ => none

/-- `queue.wake.notify_all()`, directly or through `notify_queue`. -/
def signals : Point → Action → Bool
  | .close (.cancelNotify _ _), .proceed | .close .notify, .proceed | .submit .notify, .proceed
  | .ticket _, .proceed | .worker (.notify _), .proceed => true
  | _, _ => false

/-- A notified wait goes on to take the lock again. -/
def wake : Point → Point
  | .join .wait => .join .lock
  | .close .wait => .close .relock
  | point => point

def program : Lib.Program Thread Shared Point Action := { act, signals, wake }

/-- A new queue: its workers wait for jobs, and nobody else has called it. -/
def newQueue (workers limit : Nat) : Lib.Config Thread Shared Point where
  shared := { workers, limit }
  locals
    | .user _ => .idle
    | .worker number => if number < workers then .worker .receive else .idle

theorem newQueue_locals (workers limit : Nat) (thread : Thread) : (newQueue workers limit).locals thread = .idle
      ∨ (newQueue workers limit).locals thread = .worker .receive := by
  cases thread with
  | user number => exact .inl rfl
  | worker number =>
    by_cases hired : number < workers
    · exact .inr (if_pos hired)
    · exact .inl (if_neg hired)

/-- All interleavings of a queue. -/
def queue (workers limit : Nat) : Lib.System (Lib.Config Thread Shared Point) (Thread × Action) :=
  program.system (newQueue workers limit)

end BasicNext.Dispatch
