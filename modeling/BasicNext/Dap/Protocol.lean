import BasicNext.Dap.Session

/-!
# Stopping and resuming

The history of a session is safe when no statement runs while the program is stopped, `stopped` and
`continued` alternate, and every event queued before `run_session` returns has been written by then. A
run is safe throughout when its steps are orderly: a request resumes only while the session's flag `paused`
is set, the hook finds no reason to stop once `terminate` is set, no callback runs on another thread while
`paused` is set, and `run_session` returns only while the event thread sleeps over an empty queue.
-/

namespace BasicNext.Dap

open Lib (System)

variable {state state' : State} {label : Label} {past : List Happening}

/-! ### Safe histories -/

/-- A stop has been queued, and no request to resume or terminate was accepted since. -/
def halted : List Happening → Bool
  | .queued (.stopped _) :: _ => true
  | .resumed :: _ | .terminateRequested :: _ => false
  | _ :: past => halted past
  | [] => false

inductive Turn where
  | stopped
  | continued
deriving DecidableEq, Repr

def Event.turn : Event → Option Turn
  | .stopped _ => some .stopped
  | .continued => some .continued
  | _ => none

/-- The latest of the `stopped` and `continued` events. -/
def latest : List Happening → Option Turn
  | .queued event :: past => event.turn.or (latest past)
  | _ :: past => latest past
  | [] => none

def queuedEvents : List Happening → List Event
  | .queued event :: past => queuedEvents past ++ [event]
  | _ :: past => queuedEvents past
  | [] => []

def writtenEvents : List Happening → List Event
  | .written event :: past => writtenEvents past ++ [event]
  | _ :: past => writtenEvents past
  | [] => []

/-- What must hold when something happens, after what has happened. -/
def Fits (past : List Happening) : Happening → Prop
  | .statement => halted past = false
  | .queued event => ∀ turn ∈ event.turn, latest past ≠ some turn
  | .returned => writtenEvents past = queuedEvents past
  | _ => True

def Safe : List Happening → Prop
  | happening :: past => Fits past happening ∧ Safe past
  | [] => True

/-! ### Orderly steps -/

namespace Label

/-- The step calls `resume_session`. -/
def resumes : Label → Bool
  | .receive (.ok (some request)) =>
    match request.command with
    | .continue | .stepIn => true
    | _ => false
  | .resume => true
  | _ => false

/-- `run_session` returns in the step. -/
def returns : Label → Bool
  | .receive (.error _) | .writeResponse (.error _) | .join => true
  | _ => false

end Label

def EventThread.events : EventThread → List Event
  | .taken events | .writing events => events
  | .numbered _ event rest => event :: rest
  | .sleeping | .ended => []

namespace State

/-- The events that are queued and not written. -/
def pending (state : State) : List Event := state.eventThread.events ++ state.session.events

/-- A write has failed, and the event thread is gone. -/
def deaf (state : State) : Bool :=
  match state.eventThread with
  | .ended => true
  | _ => false

/-- The event thread sleeps, and no event waits for it. -/
def idle (state : State) : Bool :=
  match state.eventThread with
  | .sleeping => state.session.events.isEmpty
  | _ => false

/-- What a step asks of the session's flags and queue before it. -/
structure Orderly (state : State) (label : Label) : Prop where
  resumed : label.resumes = true → state.session.paused = true
  stops : ∀ frame, label = .control frame → state.session.terminate = true →
    state.session.stopReason (state.atBreakpoint frame) frame = none
  isolated : label = .isolated → state.session.paused = false
  returned : label.returns = true → state.idle = true

/-! ### What a step does -/

/-- The hook has let the debuggee on, or was not asked yet. -/
def unheld (state : State) : Bool :=
  match state.debuggee with
  | .absent | .running | .granted => true
  | _ => false

def unwinding (state : State) : Bool :=
  match state.debuggee with
  | .unwinding => true
  | _ => false

/-- The request loop accepts no request any more. -/
def closing (state : State) : Bool :=
  match state.requestLoop with
  | .reading | .resuming _ _ => false
  | .responding response | .numbered _ response | .writing _ response => response.isLast
  | .ending | .joining | .returned _ => true

/-- The kinds of steps. -/
inductive Effect where
  | silent
  | resume
  | terminate
  | stop (reason : StopReason)
  | statement
  | isolated
  | write (event : Event)
  /-- The events the event thread loses when a write fails. -/
  | lose (events : List Event)
  | finish (exitCode : Nat)
  | leave

namespace Effect

/-- What happens, the latest first. -/
def happenings : Effect → List Happening
  | .silent | .lose _ => []
  | .resume => [.queued .continued, .resumed]
  | .terminate => [.terminateRequested]
  | .stop reason => [.queued (.stopped reason)]
  | .statement | .isolated => [.statement]
  | .write event => [.written event]
  | .finish exitCode => [.queued .terminated, .queued (.exited exitCode)]
  | .leave => [.returned]

def queues : Effect → List Event
  | .resume => [.continued]
  | .stop reason => [.stopped reason]
  | .finish exitCode => [.exited exitCode, .terminated]
  | _ => []

/-- The events that are no longer pending. -/
def consumes : Effect → List Event
  | .write event => [event]
  | .lose events => events
  | _ => []

def paused (before : Bool) : Effect → Bool
  | .resume | .terminate => false
  | .stop _ => true
  | _ => before

def terminated (before : Bool) : Effect → Bool
  | .terminate => true
  | _ => before

def deaf (before : Bool) : Effect → Bool
  | .lose _ => true
  | _ => before

/-- When a step of this kind can be taken. -/
def Guard (state : State) : Effect → Prop
  | .resume => state.closing = false
  | .stop _ => state.unheld = true ∨ state.unwinding = true
  | .statement => state.unheld = true
  | .write _ => state.deaf = false
  | .lose events => events ≠ [] ∧ state.deaf = false
  | _ => True

def Orderly (state : State) : Effect → Prop
  | .resume => state.session.paused = true
  | .stop _ => state.session.terminate = false
  | .isolated => state.session.paused = false
  | .leave => state.idle = true
  | _ => True

end Effect

structure Moves (state state' : State) (label : Label) (effect : Effect) : Prop where
  guard : effect.Guard state
  orderly : state.Orderly label → effect.Orderly state
  history : state'.history = effect.happenings ++ state.history
  pending : state.pending ++ effect.queues = effect.consumes ++ state'.pending
  paused : state'.session.paused = effect.paused state.session.paused
  terminated : state'.session.terminate = effect.terminated state.session.terminate
  deaf : state'.deaf = effect.deaf state.deaf
  unheld : state'.unheld = true → state.unheld = true ∨ state'.session.paused = false
  held : ∀ reason, effect = .stop reason → state'.unheld = false
  unwinding : state'.unwinding = true → state.unwinding = true ∨ state'.session.terminate = true
  closing : state.closing = true → state'.closing = true
  closes : effect = .terminate → state'.closing = true

/-! ### Safety of one step -/

/-- The session's state agrees with its history. -/
structure Sound (state : State) : Prop where
  paused : state.session.paused = halted state.history
  unheld : state.unheld = true → state.session.paused = false
  unwinding : state.unwinding = true → state.session.terminate = true
  closing : state.session.terminate = true → state.closing = true
  latest : state.session.terminate = false → (latest state.history = some .stopped ↔ state.session.paused = true)
  events : ∃ lost, queuedEvents state.history = writtenEvents state.history ++ lost ++ state.pending
    ∧ (state.deaf = true ↔ lost ≠ [])

variable {effect : Effect}

theorem Sound.alive (sound : state.Sound) (alive : state.deaf = false) :
    queuedEvents state.history = writtenEvents state.history ++ state.pending := by
  obtain ⟨lost, queued, deaf⟩ := sound.events
  have : lost = [] := Classical.not_not.1 fun some => by rw [deaf.2 some] at alive; cases alive
  rw [queued, this, List.append_nil]

theorem idle_iff : state.idle = true ↔ state.eventThread = .sleeping ∧ state.session.events = [] := by
  unfold idle
  cases state.eventThread <;> simp

theorem Moves.safe (moves : Moves state state' label effect) (sound : state.Sound) (safe : Safe state.history)
    (orderly : state.Orderly label) : Safe state'.history := by
  have here := moves.orderly orderly
  have guard := moves.guard
  rw [moves.history]
  cases effect with
  | silent => exact safe
  | lose events => exact safe
  | terminate => exact ⟨trivial, safe⟩
  | write event => exact ⟨trivial, safe⟩
  | finish exitCode =>
    refine ⟨fun turn member => ?_, fun turn member => ?_, safe⟩ <;> simp [Event.turn] at member
  | statement => exact ⟨sound.paused.symm.trans (sound.unheld guard), safe⟩
  | isolated => exact ⟨sound.paused.symm.trans here, safe⟩
  | resume =>
    have running : state.session.terminate = false := Bool.eq_false_iff.2 fun closed =>
      Bool.false_ne_true (guard.symm.trans (sound.closing closed))
    have stopped := (sound.latest running).2 here
    refine ⟨fun turn member => ?_, trivial, safe⟩
    obtain rfl : Turn.continued = turn := by simpa [Event.turn] using member
    change BasicNext.Dap.latest state.history ≠ some .continued
    rw [stopped]
    simp
  | stop reason =>
    have free : state.session.paused = false := by
      rcases guard with unheld | unwinding
      · exact sound.unheld unheld
      · have terminated := sound.unwinding unwinding
        rw [here] at terminated
        cases terminated
    refine ⟨fun turn member => ?_, safe⟩
    obtain rfl : Turn.stopped = turn := by simpa [Event.turn] using member
    change ¬BasicNext.Dap.latest state.history = some .stopped
    rw [sound.latest here, free]
    exact Bool.false_ne_true
  | leave =>
    obtain ⟨sleeping, none⟩ := idle_iff.1 here
    have queued := sound.alive (by rw [State.deaf, sleeping])
    rw [State.pending, sleeping, none, EventThread.events, List.append_nil, List.append_nil] at queued
    exact ⟨queued.symm, safe⟩

theorem Moves.events (moves : Moves state state' label effect) (sound : state.Sound) :
    ∃ lost, queuedEvents state'.history = writtenEvents state'.history ++ lost ++ state'.pending
      ∧ (state'.deaf = true ↔ lost ≠ []) := by
  obtain ⟨lost, queued, deaf⟩ := sound.events
  have history := moves.history
  have pending := moves.pending
  have guard := moves.guard
  rw [moves.deaf, history]
  cases effect with
  | write event =>
    have alive : state.deaf = false := guard
    refine ⟨[], ?_, iff_of_false (by simp [Effect.deaf, alive]) (fun h => h rfl)⟩
    change queuedEvents state.history = writtenEvents state.history ++ [event] ++ [] ++ _
    rw [sound.alive guard, ← List.append_nil state.pending]
    simp only [Effect.queues, Effect.consumes] at pending
    rw [pending, List.append_nil, List.append_assoc]
  | lose events =>
    refine ⟨events, ?_, iff_of_true rfl guard.1⟩
    change queuedEvents state.history = writtenEvents state.history ++ events ++ _
    simp only [Effect.queues, Effect.consumes, List.append_nil] at pending
    rw [sound.alive guard.2, pending, List.append_assoc]
  | resume =>
    refine ⟨lost, ?_, deaf⟩
    change queuedEvents state.history ++ [.continued] = writtenEvents state.history ++ lost ++ _
    simp only [Effect.queues, Effect.consumes, List.nil_append] at pending
    rw [← pending, queued, List.append_assoc _ state.pending]
  | stop reason =>
    refine ⟨lost, ?_, deaf⟩
    change queuedEvents state.history ++ [.stopped reason] = writtenEvents state.history ++ lost ++ _
    simp only [Effect.queues, Effect.consumes, List.nil_append] at pending
    rw [← pending, queued, List.append_assoc _ state.pending]
  | finish exitCode =>
    refine ⟨lost, ?_, deaf⟩
    change queuedEvents state.history ++ [.exited exitCode] ++ [.terminated]
      = writtenEvents state.history ++ lost ++ _
    simp only [Effect.queues, Effect.consumes, List.nil_append] at pending
    rw [← pending, queued, List.append_assoc _ state.pending, List.append_assoc _ _ [_]]
    simp
  | _ =>
    simp only [Effect.queues, Effect.consumes, List.nil_append, List.append_nil] at pending
    rw [← pending]
    exact ⟨lost, queued, deaf⟩

theorem Moves.sound (moves : Moves state state' label effect) (sound : state.Sound) :
    state'.Sound where
  paused := by
    rw [moves.paused, moves.history]
    cases effect <;> first | rfl | exact sound.paused
  unheld unheld := by
    have held := moves.held
    rcases moves.unheld unheld with before | free
    · have free := sound.unheld before
      rw [moves.paused]
      cases effect with
      | stop reason => rw [held reason rfl] at unheld; cases unheld
      | resume => rfl
      | terminate => rfl
      | _ => exact free
    · exact free
  unwinding unwinding := by
    rcases moves.unwinding unwinding with before | terminated
    · rw [moves.terminated, sound.unwinding before]
      cases effect <;> rfl
    · exact terminated
  closing terminated := by
    have closes := moves.closes
    rw [moves.terminated] at terminated
    cases effect with
    | terminate => exact closes rfl
    | _ => exact moves.closing (sound.closing terminated)
  latest terminated := by
    rw [moves.terminated] at terminated
    rw [moves.paused, moves.history]
    cases effect with
    | terminate => cases terminated
    | stop reason => exact iff_of_true rfl rfl
    | resume => exact iff_of_false (fun h => by cases h) Bool.false_ne_true
    | _ => exact sound.latest terminated
  events := moves.events sound

/-! ### The steps of the request loop -/

theorem Moves.silent (paused : state'.session.paused = state.session.paused)
    (terminate : state'.session.terminate = state.session.terminate)
    (pending : state'.pending = state.pending) (deaf : state'.deaf = state.deaf)
    (unheld : state'.unheld = true → state.unheld = true) (unwinding : state'.unwinding = state.unwinding)
    (history : state'.history = state.history)
    (closing : state.closing = true → state'.closing = true) :
    state.Moves state' label .silent where
  guard := trivial
  orderly _ := trivial
  history := history
  pending := by simp [Effect.queues, Effect.consumes, pending]
  paused := paused
  terminated := terminate
  deaf := deaf
  unheld h := .inl (unheld h)
  held _ h := by cases h
  unwinding h := .inl (unwinding ▸ h)
  closing := closing
  closes h := by cases h

theorem Moves.resumes (resumes : label.resumes = true) (reading : state.closing = false) (step : Option StepMode) {loop : RequestLoop} :
    state.Moves { state.resumeSession step with requestLoop := loop } label .resume where
  guard := reading
  orderly orderly := orderly.resumed resumes
  history := rfl
  pending := (List.append_assoc _ _ _).trans rfl
  paused := rfl
  terminated := rfl
  deaf := rfl
  unheld := .inl
  held _ h := by cases h
  unwinding := .inl
  closing h := by rw [reading] at h; cases h
  closes h := by cases h

theorem Moves.terminates {loop : RequestLoop} {terminated : Bool}
    (closing : State.closing { state with requestLoop := loop } = true) :
    state.Moves { state.terminateSession with requestLoop := loop, terminated } label .terminate where
  guard := trivial
  orderly _ := trivial
  history := rfl
  pending := List.append_nil _
  paused := rfl
  terminated := rfl
  deaf := rfl
  unheld := .inl
  held _ h := by cases h
  unwinding := .inl
  closing _ := closing
  closes _ := closing

theorem Moves.returns (returns : label.returns = true) {result : Except String Unit} {lost : List Nat} {lock : Option Writer} :
    state.Moves ({ state with lost, outputLock := lock }.returnWith result) label .leave where
  guard := trivial
  orderly orderly := orderly.returned returns
  history := rfl
  pending := List.append_nil _
  paused := rfl
  terminated := rfl
  deaf := rfl
  unheld := .inl
  held _ h := by cases h
  unwinding := .inl
  closing _ := rfl
  closes h := by cases h

theorem handle_moves (request : Request) (reading : state.requestLoop = .reading)
    (unlaunched : state.launched = false → state.debuggee = .absent) :
    ∃ effect, state.Moves (state.handle request) (.receive (.ok (some request))) effect := by
  have accepting : state.closing = false := by rw [State.closing, reading]
  have silent : ∀ {state'}, state'.session.paused = state.session.paused →
      state'.session.terminate = state.session.terminate → state'.pending = state.pending →
      state'.deaf = state.deaf → (state'.unheld = true → state.unheld = true) →
      state'.unwinding = state.unwinding → state'.history = state.history →
      ∃ effect, state.Moves state' (.receive (.ok (some request))) effect := by
    intro state' paused terminate pending deaf unheld unwinding history
    exact ⟨.silent, .silent paused terminate pending deaf unheld unwinding history
      (by rw [accepting]; exact fun h => by cases h)⟩
  obtain ⟨seq, command⟩ := request
  cases command with
  | launch arguments =>
    simp only [handle]
    split
    · split
      · next fresh =>
        have absent : state.debuggee = .absent := unlaunched (by simp_all)
        refine silent rfl rfl rfl rfl (fun _ => ?_) ?_ rfl
        · rw [State.unheld, absent]
        · simp [State.unwinding, absent, respond]
      · exact silent rfl rfl rfl rfl id rfl rfl
    · exact silent rfl rfl rfl rfl id rfl rfl
  | configurationDone =>
    simp only [handle]
    split <;> exact silent rfl rfl rfl rfl id rfl rfl
  | «continue» => exact ⟨_, .resumes rfl accepting none⟩
  | stepIn => exact ⟨_, .resumes rfl accepting _⟩
  | disconnect => exact ⟨_, .terminates rfl⟩
  | terminate => exact ⟨_, .terminates rfl⟩
  | _ => exact silent rfl rfl rfl rfl id rfl rfl

theorem receive_moves {input : Except String (Option Request)}
    (unlaunched : state.launched = false → state.debuggee = .absent)
    (h : state.receive input = some state') : ∃ effect, state.Moves state' (.receive input) effect := by
  unfold receive at h
  split at h
  · next reading =>
    split at h <;> cases h
    · next request => exact handle_moves request reading unlaunched
    · exact ⟨_, .silent rfl rfl rfl rfl id rfl rfl (fun _ => rfl)⟩
    · exact ⟨_, .returns rfl⟩
  · cases h

theorem writeResponse_moves {result : Except String Unit} (h : state.writeResponse result = some state') :
    ∃ effect, state.Moves state' (.writeResponse result) effect := by
  unfold writeResponse at h
  split at h
  · next seq response writing =>
    split at h <;> cases h
    · refine ⟨_, .silent rfl rfl rfl rfl id rfl rfl (fun closing => ?_)⟩
      have last : response.isLast = true := by rwa [State.closing, writing] at closing
      simp only [State.closing, last, if_true]
    · exact ⟨_, .returns rfl⟩
  · cases h

theorem requestLoop_moves (own : label ∈ [.resume, .numberResponse, .lockResponse, .leave, .join])
    (h : state.next label = some state') : ∃ effect, state.Moves state' label effect := by
  simp only [List.mem_cons, List.not_mem_nil, or_false] at own
  rcases own with rfl | rfl | rfl | rfl | rfl
  · simp only [next, resume] at h
    split at h <;> cases h
    next response step resuming =>
      exact ⟨_, .resumes rfl (by rw [State.closing, resuming]) _⟩
  · simp only [next, numberResponse] at h
    split at h <;> cases h
    next response responding =>
      exact ⟨_, .silent rfl rfl rfl rfl id rfl rfl (fun closing => by rwa [State.closing, responding] at closing)⟩
  · simp only [next, lockResponse] at h
    split at h <;> cases h
    next seq response numbered _ =>
      exact ⟨_, .silent rfl rfl rfl rfl id rfl rfl (fun closing => by rwa [State.closing, numbered] at closing)⟩
  · simp only [next, leave] at h
    split at h <;> cases h
    exact ⟨_, .terminates rfl⟩
  · simp only [next, join] at h
    split at h <;> cases h <;>
      exact ⟨_, .returns rfl⟩

/-! ### The steps of the event thread -/

theorem writeEvent_moves {result : Except String Unit} (h : state.writeEvent result = some state') :
    ∃ effect, state.Moves state' (.writeEvent result) effect := by
  unfold writeEvent at h
  split at h
  · next seq event rest numbered =>
    have alive : state.deaf = false := by rw [State.deaf, numbered]
    split at h <;> cases h
    · refine ⟨.write event, ?_⟩
      exact {
        guard := alive
        orderly _ := trivial
        history := rfl
        pending := by simp [State.pending, numbered, EventThread.events, Effect.queues, Effect.consumes, write, record]
        paused := rfl
        terminated := rfl
        deaf := alive.symm
        unheld := .inl
        held := fun _ h => by cases h
        unwinding := .inl
        closing := id
        closes := fun h => by cases h }
    · refine ⟨.lose (event :: rest), ?_⟩
      exact {
        guard := ⟨List.cons_ne_nil _ _, alive⟩
        orderly _ := trivial
        history := rfl
        pending := by simp [State.pending, numbered, EventThread.events, Effect.queues, Effect.consumes]
        paused := rfl
        terminated := rfl
        deaf := rfl
        unheld := .inl
        held := fun _ h => by cases h
        unwinding := .inl
        closing := id
        closes := fun h => by cases h }
  · cases h

theorem eventThread_moves (own : label ∈ [.takeEvents, .lockEvents, .numberEvent, .unlockEvents])
    (h : state.next label = some state') : ∃ effect, state.Moves state' label effect := by
  simp only [List.mem_cons, List.not_mem_nil, or_false] at own
  have silent : ∀ {label state'}, state'.session.paused = state.session.paused →
      state'.session.terminate = state.session.terminate → state'.pending = state.pending →
      state'.deaf = state.deaf → state'.debuggee = state.debuggee →
      state'.requestLoop = state.requestLoop → state'.history = state.history →
      ∃ effect, state.Moves state' label effect := by
    intro label state' paused terminate pending deaf debuggee loop history
    refine ⟨.silent, .silent paused terminate pending deaf ?_ ?_ history ?_⟩
    · rw [State.unheld, State.unheld, debuggee]
      exact id
    · rw [State.unwinding, State.unwinding, debuggee]
    · rw [State.closing, State.closing, loop]
      exact id
  rcases own with rfl | rfl | rfl | rfl
  · simp only [next, takeEvents] at h
    split at h <;> cases h
    next sleeping =>
      refine silent rfl rfl ?_ ?_ rfl rfl rfl
      · simp [State.pending, sleeping, EventThread.events]
      · simp [State.deaf, sleeping]
  · simp only [next, lockEvents] at h
    split at h <;> cases h
    next events taken _ =>
      refine silent rfl rfl ?_ ?_ rfl rfl rfl
      · simp [State.pending, taken, EventThread.events]
      · simp [State.deaf, taken]
  · simp only [next, numberEvent] at h
    split at h <;> cases h
    next event rest writing =>
      refine silent rfl rfl ?_ ?_ rfl rfl rfl
      · simp [State.pending, writing, EventThread.events, draw]
      · simp [State.deaf, writing]
  · simp only [next, unlockEvents] at h
    split at h <;> cases h
    next writing =>
      refine silent rfl rfl ?_ ?_ rfl rfl rfl
      · simp [State.pending, writing, EventThread.events]
      · simp [State.deaf, writing]

/-! ### The steps of the debuggee -/

theorem settle_unheld (h : state.settle.unheld = true) : state.session.paused = false := by
  simp only [settle, State.unheld, SessionState.decision] at h
  cases paused : state.session.paused with
  | false => rfl
  | true => cases terminate : state.session.terminate <;> simp [paused, terminate] at h

theorem settle_unwinding (h : state.settle.unwinding = true) : state.session.terminate = true := by
  simp only [settle, State.unwinding, SessionState.decision] at h
  cases terminate : state.session.terminate with
  | true => rfl
  | false => cases paused : state.session.paused <;> simp [paused, terminate] at h

theorem wake_moves (h : state.wake = some state') : ∃ effect, state.Moves state' .wake effect := by
  unfold wake at h
  split at h <;> cases h
  refine ⟨.silent, ?_⟩
  exact {
    guard := trivial
    orderly := fun _ => trivial
    history := rfl
    pending := List.append_nil _
    paused := rfl
    terminated := rfl
    deaf := rfl
    unheld := fun h => .inr (settle_unheld h)
    held := fun _ h => by cases h
    unwinding := fun h => .inr (settle_unwinding h)
    closing := id
    closes := fun h => by cases h }

theorem control_passes {frame : DebugFrame} (reason : state.session.stopReason (state.atBreakpoint frame) frame = none) :
    state.session.control (state.atBreakpoint frame) frame
      = { state.session with frame := some frame, started := true } := by
  rw [SessionState.control, reason]

theorem control_stops {frame : DebugFrame} {reason : StopReason}
    (found : state.session.stopReason (state.atBreakpoint frame) frame = some reason) :
    state.session.control (state.atBreakpoint frame) frame
      = { state.session with
          frame := some frame, started := true, step := none, pauseRequested := false, paused := true
          events := state.session.events ++ [.stopped reason] } := by
  rw [SessionState.control, found]

theorem control_moves {frame : DebugFrame} (h : state.control frame = some state') :
    ∃ effect, state.Moves state' (.control frame) effect := by
  have asked : state.unheld = true ∨ state.unwinding = true := by
    rw [State.unheld, State.unwinding]
    unfold State.control at h
    split at h <;> simp_all
  have settled : state' = ((state.queue (state.session.control (state.atBreakpoint frame) frame)
      ((state.session.stopReason (state.atBreakpoint frame) frame).toList.map Event.stopped)).settle) := by
    unfold State.control at h
    split at h <;> cases h <;> rfl
  subst settled
  cases reason : state.session.stopReason (state.atBreakpoint frame) frame with
  | none =>
    rw [control_passes reason]
    refine ⟨.silent, ?_⟩
    exact {
      guard := trivial
      orderly := fun _ => trivial
      history := rfl
      pending := List.append_nil _
      paused := rfl
      terminated := rfl
      deaf := rfl
      unheld := fun h => .inr (settle_unheld h)
      held := fun _ h => by cases h
      unwinding := fun h => .inr (settle_unwinding h)
      closing := id
      closes := fun h => by cases h }
  | some reason' =>
    rw [control_stops reason]
    refine ⟨.stop reason', ?_⟩
    exact {
      guard := asked
      orderly := fun orderly => Bool.eq_false_iff.2 fun terminated =>
        Option.some_ne_none _ (reason.symm.trans (orderly.stops frame rfl terminated))
      history := rfl
      pending := List.append_assoc _ _ _
      paused := rfl
      terminated := rfl
      deaf := rfl
      unheld := fun h => .inr (settle_unheld h)
      held := fun _ _ => Bool.eq_false_iff.2 fun h => Bool.noConfusion (settle_unheld h)
      unwinding := fun h => .inr (settle_unwinding h)
      closing := id
      closes := fun h => by cases h }

theorem statement_moves (own : label ∈ [.execute, .transfer]) (h : state.next label = some state') :
    ∃ effect, state.Moves state' label effect := by
  have statement : ∀ {label state'}, state.unheld = true →
      state'.session = state.session → state'.eventThread = state.eventThread →
      state'.unwinding = false → state'.requestLoop = state.requestLoop →
      state'.history = .statement :: state.history →
      ∃ effect, state.Moves state' label effect := by
    intro label state' unheld session thread unwinding loop history
    refine ⟨.statement, ?_⟩
    exact {
      guard := unheld
      orderly _ := trivial
      history := history
      pending := by simp [State.pending, session, thread, Effect.queues, Effect.consumes]
      paused := by rw [session]; rfl
      terminated := by rw [session]; rfl
      deaf := by rw [State.deaf, thread]; rfl
      unheld := fun _ => .inl unheld
      held := fun _ h => by cases h
      unwinding := fun h => by rw [unwinding] at h; cases h
      closing := by rw [State.closing, State.closing, loop]; exact id
      closes := fun h => by cases h }
  simp only [List.mem_cons, List.not_mem_nil, or_false] at own
  rcases own with rfl | rfl
  · simp only [next, execute] at h
    split at h <;> cases h
    next granted =>
      exact statement (by rw [State.unheld, granted]) rfl rfl rfl rfl rfl
  · simp only [next, transfer] at h
    split at h <;> cases h
    next running =>
      exact statement (by rw [State.unheld, running]) rfl rfl (by simp [State.unwinding, record, running]) rfl rfl

theorem finish_moves {result : Except String Nat} (h : state.finish result = some state') :
    ∃ effect, state.Moves state' (.finish result) effect := by
  have finished : state' = { state.queue (state.session.finish result)
      [.exited (result.toOption.getD 1), .terminated] with debuggee := .finished } := by
    unfold State.finish at h
    split at h <;> cases h <;> rfl
  subst finished
  refine ⟨.finish (result.toOption.getD 1), ?_⟩
  exact {
    guard := trivial
    orderly := fun _ => trivial
    history := rfl
    pending := List.append_assoc _ _ _
    paused := rfl
    terminated := rfl
    deaf := rfl
    unheld := fun h => by cases h
    held := fun _ h => by cases h
    unwinding := fun h => by cases h
    closing := id
    closes := fun h => by cases h }

theorem isolated_moves (h : state.isolated = some state') :
    ∃ effect, state.Moves state' .isolated effect := by
  unfold State.isolated at h
  split at h <;> cases h
  refine ⟨.isolated, ?_⟩
  exact {
    guard := trivial
    orderly := fun orderly => orderly.isolated rfl
    history := rfl
    pending := List.append_nil _
    paused := rfl
    terminated := rfl
    deaf := rfl
    unheld := .inl
    held := fun _ h => by cases h
    unwinding := .inl
    closing := id
    closes := fun h => by cases h }

theorem next_moves (unlaunched : state.launched = false → state.debuggee = .absent)
    (h : state.next label = some state') : ∃ effect, state.Moves state' label effect := by
  cases label with
  | receive input => exact receive_moves unlaunched h
  | writeResponse result => exact writeResponse_moves h
  | writeEvent result => exact writeEvent_moves h
  | control frame => exact control_moves h
  | wake => exact wake_moves h
  | execute => exact statement_moves (by simp) h
  | transfer => exact statement_moves (by simp) h
  | finish result => exact finish_moves h
  | isolated => exact isolated_moves h
  | takeEvents => exact eventThread_moves (by simp) h
  | lockEvents => exact eventThread_moves (by simp) h
  | numberEvent => exact eventThread_moves (by simp) h
  | unlockEvents => exact eventThread_moves (by simp) h
  | _ => exact requestLoop_moves (by simp) h

/-! ### Before the launch -/

theorem handle_unlaunched {request : Request} (before : state.launched = false → state.debuggee = .absent)
    (h : (state.handle request).launched = false) : (state.handle request).debuggee = .absent := by
  obtain ⟨seq, command⟩ := request
  cases command with
  | launch arguments =>
    simp only [handle] at h ⊢
    split at h
    · split at h
      · cases h
      · simp_all [respond]
    · simp_all [respond]
  | configurationDone =>
    simp only [handle] at h ⊢
    split at h <;> simp_all [respond]
  | _ => exact before h

theorem next_unlaunched (h : state.next label = some state') (before : state.launched = false → state.debuggee = .absent) :
    state'.launched = false → state'.debuggee = .absent := by
  have running : ∀ {debuggee}, state.debuggee = debuggee → debuggee ≠ .absent →
      state.launched ≠ false := fun is differs fresh => differs (is ▸ before fresh)
  cases label with
  | receive input =>
    simp only [next, receive] at h
    split at h
    · split at h <;> cases h
      · exact handle_unlaunched before
      · exact before
      · exact before
    · cases h
  | writeResponse result =>
    simp only [next, writeResponse] at h
    split at h
    · split at h <;> cases h <;> exact before
    · cases h
  | writeEvent result =>
    simp only [next, writeEvent] at h
    split at h
    · split at h <;> cases h <;> exact before
    · cases h
  | control frame =>
    simp only [next, control] at h
    split at h <;> cases h <;> next is => exact fun fresh => absurd fresh (running is (by simp))
  | wake =>
    simp only [next, wake] at h
    split at h <;> cases h
    next is => exact fun fresh => absurd fresh (running is (by simp))
  | execute =>
    simp only [next, execute] at h
    split at h <;> cases h
    next is => exact fun fresh => absurd fresh (running is (by simp))
  | finish result =>
    simp only [next, finish] at h
    split at h <;> cases h <;> next is => exact fun fresh => absurd fresh (running is (by simp))
  | resume | numberResponse | lockResponse | leave | join | takeEvents | lockEvents | numberEvent
  | unlockEvents | transfer | isolated =>
    simp only [next, resume, numberResponse, lockResponse, leave, join, takeEvents, lockEvents,
      numberEvent, unlockEvents, transfer, isolated] at h
    split at h <;> cases h <;> exact before

/-! ### Runs -/

theorem sound_initial : ({} : State).Sound where
  paused := rfl
  unheld _ := rfl
  unwinding h := by cases h
  closing h := by cases h
  latest _ := iff_of_false (fun h => by cases h) Bool.false_ne_true
  events := ⟨[], rfl, iff_of_false Bool.false_ne_true (fun h => h rfl)⟩

end State

/-- In every run whose steps are orderly the history is safe in every state reached. -/
theorem protocol_safe {state : State} (reached : ((System.ofPartial {} State.next).restrict State.Orderly).Reachable state) :
    Safe state.history := by
  have inv : (state.Sound ∧ (state.launched = false → state.debuggee = .absent)) ∧ Safe state.history := by
    refine reached.invariant (P := fun state =>
      (state.Sound ∧ (state.launched = false → state.debuggee = .absent)) ∧ Safe state.history) ?_ ?_
    · rintro state rfl
      exact ⟨⟨State.sound_initial, fun _ => rfl⟩, trivial⟩
    · rintro state label state' ⟨⟨sound, unlaunched⟩, safe⟩ ⟨orderly, move⟩
      obtain ⟨effect, moves⟩ := State.next_moves unlaunched move
      exact ⟨⟨moves.sound sound, State.next_unlaunched move unlaunched⟩, moves.safe sound safe orderly⟩
  exact inv.2

/-- A program that is launched, stops at its entry, and goes on. -/
def entrySession : List Label :=
  [.receive (.ok (some ⟨1, .launch ⟨.ok (), "main.bn", true⟩⟩)), .numberResponse, .lockResponse,
    .writeResponse (.ok ()), .control ⟨"Start", 0, 1⟩, .takeEvents, .lockEvents, .numberEvent,
    .writeEvent (.ok ()), .unlockEvents, .receive (.ok (some ⟨2, .continue⟩)), .wake, .execute]

/-- A step that is orderly by the flags alone. -/
def State.checksOrder (state : State) (label : Label) : Bool :=
  match label with
  | .control _ => !state.session.terminate
  | .isolated => !state.session.paused
  | label => (!label.resumes || state.session.paused) && !label.returns

theorem State.orderly_of_check {label : Label} (h : state.checksOrder label = true) : state.Orderly label := by
  refine ⟨fun resumes => ?_, fun frame same terminated => ?_, fun same => ?_, fun returns => ?_⟩
  · cases label <;> simp_all [checksOrder, Label.resumes]
  · subst same
    simp [checksOrder, terminated] at h
  · subst same
    simpa [checksOrder] using h
  · cases label <;> simp_all [checksOrder, Label.returns]

theorem protocol_safe_entry : ∃ state, ((System.ofPartial {} State.next).restrict State.Orderly).Reachable state ∧
    state.history = [.statement, .queued .continued, .resumed, .written (.stopped .entry), .queued (.stopped .entry)] ∧
      Safe state.history := by
  obtain ⟨state, run, history⟩ : ∃ state, entrySession.foldlM
      (fun state label => if State.checksOrder state label then State.next state label else none) {} = some state ∧
        state.history = [.statement, .queued .continued, .resumed, .written (.stopped .entry), .queued (.stopped .entry)] :=
    ⟨_, rfl, rfl⟩
  have start : ((System.ofPartial ({} : State) State.next).restrict State.Orderly).Reachable {} := .initial rfl
  have reached := start.foldlM_restrict (fun _ _ => State.orderly_of_check) run
  exact ⟨state, reached, history, protocol_safe reached⟩

/-- The program ends, the client disconnects, and the event thread still sleeps. -/
def hastySession : List Label :=
  [.receive (.ok (some ⟨1, .launch ⟨.ok (), "main.bn", false⟩⟩)), .numberResponse, .lockResponse,
    .writeResponse (.ok ()), .finish (.ok 0), .receive (.ok (some ⟨2, .disconnect⟩)), .numberResponse,
    .lockResponse, .writeResponse (.ok ()), .leave, .join]

theorem protocol_not_safe :
    ¬ ∀ (labels : List Label) (state : State), labels.foldlM State.next {} = some state → Safe state.history := by
  intro all
  obtain ⟨state, run, history⟩ : ∃ state, hastySession.foldlM State.next ({} : State) = some state
      ∧ state.history = [.returned, .terminateRequested, .terminateRequested, .queued .terminated,
        .queued (.exited 0)] := ⟨_, rfl, rfl⟩
  have safe := all hastySession state run
  rw [history] at safe
  have written : ([] : List Event) = [.exited 0, .terminated] := safe.1
  cases written

end BasicNext.Dap
