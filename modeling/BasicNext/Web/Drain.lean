import BasicNext.Lib.Transition
import BasicNext.Web.ServerState

/-!
# Draining a server

`drain_server` among the threads of a server: the thread that starts it, the listener, the workers with the connections
they serve, the handler tasks, and any number of drains. A step is one section under the lock of the state, one look at
the clock or at the listener's thread, or one change of a counter; between two steps any other thread may go on.

Counted are the threads and tasks that have not ended; `ended` and `lateAccept` record what the statements speak of.
Whether a handler may start at once (the queue, the turn) only takes steps away. Locks are not poisoned, and the
listener's loop does not panic.
-/

namespace BasicNext.Web

namespace ServerState

/-- `start_with_options`, for options that are valid. -/
def startWithOptions (state : ServerState) (options : ServerOptions) (limiter : RateLimiter) : Except String ServerState :=
  if state.closed || state.stopping then .error "server is stopping or closed"
  else if state.started then .error "server is already started"
  else .ok { state with options, rateLimiter := limiter, started := true }

def beginStop (state : ServerState) (timeoutMs : Int) : Except String ServerState :=
  if ¬(1 ≤ timeoutMs ∧ timeoutMs ≤ 60000) then .error "stop timeout is outside 1..60000 ms"
  else if state.closed then .ok state
  else .ok { state with stopping := true, pending := 0, started := false }

def activeHandlers : String := "server drain timed out with active handlers"

def connectionsLeft : String := "server drain timed out with active connections"

def finishStop (state : ServerState) (activeHandlerTasks : Nat) : Except String Unit :=
  if state.closed then .ok ()
  else if activeHandlerTasks ≠ 0 then .error activeHandlers
  else if state.activeConnections ≠ 0 then .error connectionsLeft
  else .ok ()

def markClosed (state : ServerState) : ServerState := { state with closed := true }

end ServerState

/-! ### The threads -/

/-- How far `Server.Start` is. -/
inductive StartPhase where
  | idle | started | pooled | spawned | installed
  /-- The worker pool cannot be created. -/
  | failed
deriving DecidableEq, Repr

inductive ListenerPhase where
  | absent
  /-- Before the look at the state. -/
  | looping
  | accepting
  | accepted
  /-- It holds a connection that was admitted. -/
  | admitted
  | ready
  | refusing
  | finished
deriving DecidableEq, Repr

inductive Outcome where
  | ok
  | invalid
  /-- When the error was returned, and whether everything had ended before the deadline. -/
  | failed (message : String) (deadline instant : Nat) (endedBefore : Bool)
deriving DecidableEq, Repr

inductive Drain where
  | idle
  | called (deadline : Nat) (timeoutMs : Int) (close : Bool)
  | joining (deadline : Nat) (close : Bool)
  | joinClock (deadline : Nat) (close : Bool)
  | finishing (deadline : Nat) (close : Bool)
  | connectionClock (deadline : Nat) (close : Bool)
  | workersLook (deadline : Nat) (close : Bool)
  | workersClock (deadline : Nat) (close : Bool)
  | closing (deadline : Nat)
  | returned (outcome : Outcome)
deriving DecidableEq, Repr

structure Site where
  /-- The instant, in nanoseconds. -/
  now : Nat := 0
  server : ServerState
  /-- The work sender and the runtime are in the state. -/
  pool : Bool := false
  /-- The listener's handle is in the state. -/
  slot : Bool := false
  start : StartPhase := .idle
  listener : ListenerPhase := .absent
  /-- Connections that no worker has taken. -/
  queued : Nat := 0
  serving : Nat := 0
  workers : Nat := 0
  activeHandlerTasks : Nat := 0
  drains : Nat → Drain := fun _ => .idle
  /-- The last instant at which the listener, a connection or a handler ended. -/
  ended : Nat := 0
  /-- A connection or a request was accepted after a stop. -/
  lateAccept : Bool := false

inductive Accept where
  | stream | timeout | error
deriving DecidableEq, Repr

inductive Step where
  | tick (nanoseconds : Nat)
  | startWithOptions (options : ServerOptions) (limiter : RateLimiter)
  /-- `none` where the runtime or a worker cannot be created. -/
  | installWorkerPool (workers : Option Nat)
  | spawnListener
  | installListener
  | look
  | accept (outcome : Accept)
  | admission (tracked : Bool)
  | httpRuntime
  | submit
  | refuse
  | take
  | beginRequest
  | finishRequest
  | beginHandlerTask
  | finishHandlerTask
  | release
  | endWorker
  | call (id : Nat) (timeoutMs : Int) (close : Bool)
  | drain (id : Nat)
deriving DecidableEq, Repr

namespace Site

variable (site : Site)

/-! ### What has ended -/

/-- The listener has finished, or none will ever run. -/
def settled : Bool := site.listener == .finished || site.start == .idle || site.start == .failed

/-- No listener, connection or handler is left. -/
def still : Bool := site.settled && site.server.activeConnections == 0 && site.activeHandlerTasks == 0

def endedBefore (deadline : Nat) : Bool := site.still && decide (site.ended < deadline)

/-! ### Drains -/

def setDrain (id : Nat) (drain : Drain) : Site := { site with drains := Function.update site.drains id drain }

def fail (id : Nat) (message : String) (deadline : Nat) : Site :=
  site.setDrain id (.returned (.failed message deadline site.now (site.endedBefore deadline)))

def drainNext (id : Nat) : Option Site :=
  match site.drains id with
  | .idle | .returned _ => none
  | .called deadline timeoutMs close =>
    some <| match site.server.beginStop timeoutMs with
      | .error _ => site.setDrain id (.returned .invalid)
      | .ok server =>
        { site with server, pool := site.pool && site.server.closed, slot := false }.setDrain id
          (if site.slot then .joining deadline close else .finishing deadline close)
  | .joining deadline close =>
    some <| site.setDrain id (if site.listener = .finished then .finishing deadline close else .joinClock deadline close)
  | .joinClock deadline close =>
    some <|
      if deadline ≤ site.now then
        if site.slot then site.fail id "server listener is already installed" deadline
        else { site with slot := true }.fail id "server listener join timed out" deadline
      else site.setDrain id (.joining deadline close)
  | .finishing deadline close =>
    some <| match site.server.finishStop site.activeHandlerTasks with
      | .ok () => site.setDrain id (.workersLook deadline close)
      | .error message =>
        if message = ServerState.connectionsLeft then site.setDrain id (.connectionClock deadline close)
        else site.fail id message deadline
  | .connectionClock deadline close =>
    some <|
      if deadline ≤ site.now then site.fail id ServerState.connectionsLeft deadline
      else site.setDrain id (.finishing deadline close)
  | .workersLook deadline close =>
    some <| site.setDrain id
      (if site.workers = 0 then if close then .closing deadline else .returned .ok else .workersClock deadline close)
  | .workersClock deadline close =>
    some <|
      if deadline ≤ site.now then site.fail id "server worker drain timed out" deadline
      else site.setDrain id (.finishing deadline close)
  | .closing _ => some <| { site with server := site.server.markClosed }.setDrain id (.returned .ok)

/-! ### Steps -/

/-- One step of any thread. -/
def next : Step → Option Site
  | .tick nanoseconds => some { site with now := site.now + nanoseconds }
  | .startWithOptions options limiter =>
    some <| match site.server.startWithOptions options limiter with
      | .error _ => site
      | .ok server => { site with server, start := .started }
  | .installWorkerPool workers =>
    if site.start = .started then
      match workers with
      | none => some { site with start := .failed }
      | some workers => some { site with pool := true, workers, start := .pooled }
    else none
  | .spawnListener => if site.start = .pooled then some { site with start := .spawned, listener := .looping } else none
  | .installListener => if site.start = .spawned then some { site with start := .installed, slot := true } else none
  | .look =>
    if site.listener = .looping then
      if site.server.stopping || site.server.closed then some { site with listener := .finished, ended := site.now }
      else some { site with listener := .accepting }
    else none
  | .accept outcome =>
    if site.listener = .accepting then
      match outcome with
      | .stream => some { site with listener := .accepted }
      | .timeout => some { site with listener := .looping }
      | .error => some { site with listener := .finished, ended := site.now }
    else none
  | .admission tracked =>
    if site.listener = .accepted then
      match site.server.admitConnection with
      | .error _ => some { site with listener := .looping }
      | .ok server =>
        if tracked then
          some { site with server, listener := .admitted, lateAccept := site.lateAccept || site.server.stopping }
        else some { site with server := server.releaseConnection, listener := .looping }
    else none
  | .httpRuntime =>
    if site.listener = .admitted then some { site with listener := if site.pool then .ready else .refusing } else none
  | .submit =>
    if site.listener = .ready then
      if site.pool ∧ site.queued < site.server.options.pendingWork then
        some { site with listener := .looping, queued := site.queued + 1 }
      else some { site with listener := .refusing }
    else none
  | .refuse =>
    if site.listener = .refusing then
      some { site with server := site.server.releaseConnection, listener := .looping, ended := site.now }
    else none
  | .take =>
    if 0 < site.queued ∧ site.serving < site.workers then
      some { site with queued := site.queued - 1, serving := site.serving + 1 }
    else none
  | .beginRequest =>
    if 0 < site.serving then
      let (outcome, server) := site.server.beginRequest
      match outcome with
      | .ok () => some { site with server, lateAccept := site.lateAccept || site.server.stopping }
      | .error _ => some { site with server }
    else none
  | .finishRequest => if 0 < site.serving then some { site with server := site.server.finishRequest } else none
  | .beginHandlerTask =>
    if 0 < site.serving then some { site with activeHandlerTasks := site.activeHandlerTasks + 1 } else none
  | .finishHandlerTask =>
    if 0 < site.activeHandlerTasks then
      some { site with activeHandlerTasks := site.activeHandlerTasks - 1, ended := site.now }
    else none
  | .release =>
    if 0 < site.serving then
      some { site with server := site.server.releaseConnection, serving := site.serving - 1, ended := site.now }
    else none
  | .endWorker =>
    if site.pool = false ∧ site.queued = 0 ∧ site.serving < site.workers then
      some { site with workers := site.workers - 1 }
    else none
  | .call id timeoutMs close =>
    if site.drains id = .idle then
      some <| site.setDrain id
        (if timeoutMs < 0 then .returned .invalid
        else .called (site.now + timeoutMs.toNat * 1000000) timeoutMs close)
    else none
  | .drain id => site.drainNext id

end Site

def newSite (options : ServerOptions) (limiter : RateLimiter) : Site where
  server := { routes := [], options := options, rateLimiter := limiter }

end BasicNext.Web
