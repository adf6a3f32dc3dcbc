import Mathlib.Algebra.Group.Nat.Defs
import BasicNext.Lib.Transition

/-!
# Debug sessions

`run_session` of `bn_dap`: a request loop that reads requests and writes responses, an event thread that
writes the queued events, and the thread that executes the program and asks the debug hook before every
instruction. The threads share the session's state, the sequence counter and the output, each under
its own lock; every step below is one critical section, one `fetch_add` or one write, and between two
steps any other thread may go on.

The history and the lost numbers are kept for the statements only. The history records what the outside
can tell: events queued and written, accepted requests to resume or to terminate, statements that run,
and the return of `run_session`. Bodies of responses and the
values shown for a frame are left out. The counter is a natural number; a number is taken mod `2 ^ 64`
where it is written.
-/

namespace BasicNext.Dap

/-! ### The shared state -/

inductive StepMode where
  | next (depth : Nat)
  | stepIn
  | out (depth : Nat)
deriving DecidableEq, Repr

structure DebugFrame where
  function : String
  depth : Nat
  line : Nat
deriving DecidableEq, Repr

inductive StopReason where
  | breakpoint | pause | entry | step
deriving DecidableEq, Repr

inductive Event where
  | stopped (reason : StopReason)
  | continued
  | exited (exitCode : Nat)
  | terminated
deriving DecidableEq, Repr

structure SessionState where
  paused : Bool := false
  pauseRequested : Bool := false
  step : Option StepMode := none
  terminate : Bool := false
  started : Bool := false
  stopOnEntry : Bool := false
  frame : Option DebugFrame := none
  events : List Event := []
deriving DecidableEq, Repr

inductive DebugDecision where
  | continue
  | terminate
deriving DecidableEq, Repr

namespace SessionState

/-- `step_pause` -/
def stepPause (state : SessionState) (frame : DebugFrame) : Bool :=
  let prevLine := (state.frame.map DebugFrame.line).getD 0
  let prevDepth := (state.frame.map DebugFrame.depth).getD 0
  let prevFunc := (state.frame.map DebugFrame.function).getD ""
  let lineChanged := frame.line != prevLine || frame.depth != prevDepth || frame.function != prevFunc
  match state.step with
  | some (.next target) =>
    decide (frame.depth < target) || (decide (frame.depth ≤ target) && lineChanged)
  | some .stepIn => lineChanged || decide (prevDepth < frame.depth)
  | some (.out target) =>
    decide (frame.depth ≤ target) && (decide (frame.depth < prevDepth) || lineChanged)
  | none => false

/-- The reason to stop before the instruction at `frame`. -/
def stopReason (state : SessionState) (atBreakpoint : Bool) (frame : DebugFrame) : Option StopReason :=
  let shouldStopEntry := state.stopOnEntry && !state.started
  if shouldStopEntry || state.stepPause frame || atBreakpoint || state.pauseRequested then
    some (if atBreakpoint then .breakpoint
      else if state.pauseRequested then .pause
      else if shouldStopEntry then .entry
      else .step)
  else none

/-- The debug hook up to its wait. -/
def control (state : SessionState) (atBreakpoint : Bool) (frame : DebugFrame) : SessionState :=
  match state.stopReason atBreakpoint frame with
  | some reason =>
    { state with
      frame := some frame
      started := true
      step := none
      pauseRequested := false
      paused := true
      events := state.events ++ [.stopped reason] }
  | none => { state with frame := some frame, started := true }

/-- What the hook returns, unless it has to wait. -/
def decision (state : SessionState) : Option DebugDecision :=
  if state.paused && !state.terminate then none
  else if state.terminate then some .terminate
  else some .continue

def resume (state : SessionState) (step : Option StepMode) : SessionState :=
  { state with step, paused := false, events := state.events ++ [.continued] }

def currentDepth (state : SessionState) : Nat := (state.frame.map DebugFrame.depth).getD 0

def requestPause (state : SessionState) : SessionState := { state with pauseRequested := true }

def terminateSession (state : SessionState) : SessionState := { state with terminate := true, paused := false }

/-- The program has ended: `exited` and `terminated` are queued. -/
def finish (state : SessionState) (result : Except String Nat) : SessionState :=
  { state with events := state.events ++ [.exited (result.toOption.getD 1), .terminated] }

end SessionState

/-! ### Requests -/

/-- The outcome of `validate_launch`, which prepares the program, beside the arguments. -/
structure Launch where
  valid : Except String Unit
  program : String
  stopOnEntry : Bool

inductive Command where
  | initializeRequest
  | launch (arguments : Launch)
  | configurationDone
  | continue
  | pause
  | next
  | stepIn
  | stepOut
  | threads
  | stackTrace
  | scopes
  | variables
  | evaluate
  | disconnect
  | terminate
  /-- The requested lines, and the executable ones when the source can be read. -/
  | setBreakpoints (source : String) (requested : List Nat) (executable : Option (List Nat))
  | setExceptionBreakpoints
  | other (name : String)

def Command.name : Command → String
  | .initializeRequest => "initialize"
  | .launch _ => "launch"
  | .configurationDone => "configurationDone"
  | .continue => "continue"
  | .pause => "pause"
  | .next => "next"
  | .stepIn => "stepIn"
  | .stepOut => "stepOut"
  | .threads => "threads"
  | .stackTrace => "stackTrace"
  | .scopes => "scopes"
  | .variables => "variables"
  | .evaluate => "evaluate"
  | .disconnect => "disconnect"
  | .terminate => "terminate"
  | .setBreakpoints _ _ _ => "setBreakpoints"
  | .setExceptionBreakpoints => "setExceptionBreakpoints"
  | .other name => name

structure Request where
  seq : Nat
  command : Command

structure Response where
  requestSeq : Nat
  success : Bool
  command : String
  message : Option String
deriving DecidableEq, Repr

/-- `disconnect` and `terminate` end the loop once their response is written. -/
def Response.isLast (response : Response) : Bool := response.command == "disconnect" || response.command == "terminate"

/-- A message on the output. -/
structure Message where
  seq : Nat
  content : Response ⊕ Event
deriving DecidableEq, Repr

/-! ### The threads -/

inductive RequestLoop where
  | reading
  /-- `next` and `stepOut` have read the depth, and are about to resume. -/
  | resuming (response : Response) (step : StepMode)
  | responding (response : Response)
  /-- The number is drawn, the output not yet locked. -/
  | numbered (seq : Nat) (response : Response)
  | writing (seq : Nat) (response : Response)
  | ending
  | joining
  | returned (result : Except String Unit)

inductive EventThread where
  | sleeping
  | taken (events : List Event)
  /-- The thread holds the output, here and in the next state. -/
  | writing (events : List Event)
  | numbered (seq : Nat) (event : Event) (rest : List Event)
  | ended

inductive Debuggee where
  | absent
  /-- Between two instructions. -/
  | running
  | waiting
  /-- The hook let the next instruction run. -/
  | granted
  /-- The hook ended the execution; a field release on the way out still asks it. -/
  | unwinding
  | finished

inductive Writer where
  | requestLoop
  | eventThread
deriving DecidableEq, Repr

inductive Happening where
  | queued (event : Event)
  | resumed
  | terminateRequested
  | statement
  | written (event : Event)
  | returned
deriving DecidableEq, Repr

structure State where
  session : SessionState := {}
  breakpoints : List (String × List Nat) := []
  launched : Bool := false
  configured : Bool := false
  terminated : Bool := false
  program : String := ""
  sequence : Nat := 1
  outputLock : Option Writer := none
  output : List Message := []
  /-- Drawn numbers whose message could not be written. -/
  lost : List Nat := []
  requestLoop : RequestLoop := .reading
  eventThread : EventThread := .sleeping
  debuggee : Debuggee := .absent
  /-- What has happened, the latest first. -/
  history : List Happening := []

namespace State

/-- `fetch_add` -/
def draw (state : State) : State := { state with sequence := state.sequence + 1 }

def record (state : State) (happenings : List Happening) : State := { state with history := happenings ++ state.history }

/-- The events a critical section has queued. -/
def queue (state : State) (session : SessionState) (events : List Event) : State :=
  { state with session, history := (events.map Happening.queued).reverse ++ state.history }

def write (state : State) (seq : Nat) (content : Response ⊕ Event) : State :=
  { state with output := state.output ++ [⟨seq % 2 ^ 64, content⟩] }

/-- `resume_session` -/
def resumeSession (state : State) (step : Option StepMode) : State :=
  (state.record [.resumed]).queue (state.session.resume step) [.continued]

/-- `terminate_session` -/
def terminateSession (state : State) : State :=
  { state.record [.terminateRequested] with session := state.session.terminateSession }

/-! ### The request loop -/

def respond (state : State) (request : Request) (success : Bool) (message : Option String) : State :=
  { state with requestLoop := .responding ⟨request.seq, success, request.command.name, message⟩ }

/-- `breakpoint_response`: the accepted lines replace those of the source. -/
def setBreakpoints (state : State) (source : String) (requested : List Nat) (executable : Option (List Nat)) : State :=
  let requested := ((requested.filter (0 < ·)).take 1024).eraseDups
  let accepted := requested.filter fun line => executable.all (·.contains line)
  { state with breakpoints := (source, accepted) :: state.breakpoints }

/-- `match command` up to the response; `next` and `stepOut` have read the depth. -/
def handle (state : State) (request : Request) : State :=
  match request.command with
  | .launch arguments =>
    match arguments.valid with
    | .ok () =>
      if !state.launched && !state.terminated then
        { state with
          launched := true
          session := { state.session with stopOnEntry := arguments.stopOnEntry }
          program := arguments.program
          debuggee := .running }.respond request true none
      else state.respond request false (some "launch is not valid in the current state")
    | .error error => state.respond request false (some error)
  | .configurationDone =>
    if state.launched && !state.terminated && !state.configured then
      { state with configured := true }.respond request true none
    else state.respond request false (some "configurationDone requires launch")
  | .continue => (state.resumeSession none).respond request true none
  | .pause => { state with session := state.session.requestPause }.respond request true none
  | .next =>
    let response := ⟨request.seq, true, request.command.name, none⟩
    { state with requestLoop := .resuming response (.next state.session.currentDepth) }
  | .stepIn => (state.resumeSession (some .stepIn)).respond request true none
  | .stepOut =>
    let response := ⟨request.seq, true, request.command.name, none⟩
    { state with requestLoop := .resuming response (.out (state.session.currentDepth - 1)) }
  | .disconnect | .terminate =>
    { state.terminateSession with terminated := true }.respond request true none
  | .setBreakpoints source requested executable =>
    (state.setBreakpoints source requested executable).respond request true none
  | .initializeRequest | .threads | .stackTrace | .scopes | .variables | .evaluate
  | .setExceptionBreakpoints => state.respond request true none
  | .other _ => state.respond request false (some "request is not implemented")

def returnWith (state : State) (result : Except String Unit) : State :=
  { state.record [.returned] with requestLoop := .returned result }

/-- `read_message`: a request, the end of the input, or an error. -/
def receive (state : State) (input : Except String (Option Request)) : Option State :=
  match state.requestLoop with
  | .reading =>
    match input with
    | .ok (some request) => some (state.handle request)
    | .ok none => some { state with requestLoop := .ending }
    | .error error => some (state.returnWith (.error error))
  | _ => none

def resume (state : State) : Option State :=
  match state.requestLoop with
  | .resuming response step =>
    some { state.resumeSession (some step) with requestLoop := .responding response }
  | _ => none

def numberResponse (state : State) : Option State :=
  match state.requestLoop with
  | .responding response =>
    some { state.draw with requestLoop := .numbered state.sequence response }
  | _ => none

def lockResponse (state : State) : Option State :=
  match state.requestLoop, state.outputLock with
  | .numbered seq response, none =>
    some { state with requestLoop := .writing seq response, outputLock := some .requestLoop }
  | _, _ => none

def writeResponse (state : State) (result : Except String Unit) : Option State :=
  match state.requestLoop with
  | .writing seq response =>
    match result with
    | .ok () =>
      some { state.write seq (.inl response) with
        requestLoop := if response.isLast then .ending else .reading
        outputLock := none }
    | .error error =>
      some ({ state with lost := seq :: state.lost, outputLock := none }.returnWith (.error error))
  | _ => none

/-- The end of the loop terminates the session, again or for a client that has gone. -/
def leave (state : State) : Option State :=
  match state.requestLoop with
  | .ending => some { state.terminateSession with requestLoop := .joining }
  | _ => none

def join (state : State) : Option State :=
  match state.requestLoop, state.debuggee with
  | .joining, .absent | .joining, .finished => some (state.returnWith (.ok ()))
  | _, _ => none

/-! ### The event thread -/

def takeEvents (state : State) : Option State :=
  match state.eventThread with
  | .sleeping =>
    some { state with
      session := { state.session with events := [] }
      eventThread := .taken state.session.events }
  | _ => none

def lockEvents (state : State) : Option State :=
  match state.eventThread, state.outputLock with
  | .taken events, none =>
    some { state with eventThread := .writing events, outputLock := some .eventThread }
  | _, _ => none

def numberEvent (state : State) : Option State :=
  match state.eventThread with
  | .writing (event :: rest) =>
    some { state.draw with eventThread := .numbered state.sequence event rest }
  | _ => none

def writeEvent (state : State) (result : Except String Unit) : Option State :=
  match state.eventThread with
  | .numbered seq event rest =>
    match result with
    | .ok () =>
      some { (state.write seq (.inr event)).record [.written event] with
        eventThread := .writing rest }
    | .error _ =>
      some { state with lost := seq :: state.lost, eventThread := .ended, outputLock := none }
  | _ => none

def unlockEvents (state : State) : Option State :=
  match state.eventThread with
  | .writing [] => some { state with eventThread := .sleeping, outputLock := none }
  | _ => none

/-! ### The debuggee -/

def atBreakpoint (state : State) (frame : DebugFrame) : Bool :=
  ((state.breakpoints.lookup state.program).getD []).contains frame.line

def settle (state : State) : State :=
  { state with
    debuggee :=
      match state.session.decision with
      | none => .waiting
      | some .continue => .granted
      | some .terminate => .unwinding }

/-- The hook before an instruction. -/
def control (state : State) (frame : DebugFrame) : Option State :=
  match state.debuggee with
  | .running | .unwinding =>
    let reason := state.session.stopReason (state.atBreakpoint frame) frame
    some (state.queue (state.session.control (state.atBreakpoint frame) frame)
      (reason.toList.map Event.stopped)).settle
  | _ => none

/-- The hook's wait ends, by a notification or spuriously. -/
def wake (state : State) : Option State :=
  match state.debuggee with
  | .waiting => some state.settle
  | _ => none

/-- The instruction the hook let pass; the hooks of a call in it follow. -/
def execute (state : State) : Option State :=
  match state.debuggee with
  | .granted => some { state.record [.statement] with debuggee := .running }
  | _ => none

/-- A terminator, for which the hook is not asked. -/
def transfer (state : State) : Option State :=
  match state.debuggee with
  | .running => some (state.record [.statement])
  | _ => none

def finish (state : State) (result : Except String Nat) : Option State :=
  match state.debuggee, result with
  | .running, _ | .unwinding, .error _ =>
    some { state.queue (state.session.finish result)
        [.exited (result.toOption.getD 1), .terminated] with debuggee := .finished }
  | _, _ => none

/-- A statement of a callback that `run_isolated` executes on another thread, without the hook. -/
def isolated (state : State) : Option State :=
  match state.debuggee with
  | .absent => none
  | _ => some (state.record [.statement])

end State

/-! ### The session -/

inductive Label where
  | receive (input : Except String (Option Request))
  | resume
  | numberResponse
  | lockResponse
  | writeResponse (result : Except String Unit)
  | leave
  | join
  | takeEvents
  | lockEvents
  | numberEvent
  | writeEvent (result : Except String Unit)
  | unlockEvents
  | control (frame : DebugFrame)
  | wake
  | execute
  | transfer
  | finish (result : Except String Nat)
  | isolated

def State.next (state : State) : Label → Option State
  | .receive input => state.receive input
  | .resume => state.resume
  | .numberResponse => state.numberResponse
  | .lockResponse => state.lockResponse
  | .writeResponse result => state.writeResponse result
  | .leave => state.leave
  | .join => state.join
  | .takeEvents => state.takeEvents
  | .lockEvents => state.lockEvents
  | .numberEvent => state.numberEvent
  | .writeEvent result => state.writeEvent result
  | .unlockEvents => state.unlockEvents
  | .control frame => state.control frame
  | .wake => state.wake
  | .execute => state.execute
  | .transfer => state.transfer
  | .finish result => state.finish result
  | .isolated => state.isolated

end BasicNext.Dap
