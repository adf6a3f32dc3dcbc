import BasicNext.Web.Drain

/-!
# Draining is safe

What holds of the drains of a server in any order of steps, as long as three things are avoided: a drain that begins
while the listener's handle is with another drain or not yet in the state; handlers that are active when a drain looks
before its deadline; and a look at the clock past the deadline when everything has just ended. Then a drain that returns
leaves nothing running, and one that gives up does so past its deadline.
-/

namespace BasicNext.Web

open Lib

/-! ### Drains that keep their word -/

namespace Drain

def deadline : Drain → Option Nat
  | idle | returned _ => none
  | called deadline _ _ | joining deadline _ | joinClock deadline _ | finishing deadline _ | connectionClock deadline _
  | workersLook deadline _ | workersClock deadline _ | closing deadline => some deadline

/-- A drain that gave up did so past its deadline, and something had not ended before it. -/
def Punctual : Drain → Prop
  | returned (.failed _ deadline instant endedBefore) => deadline ≤ instant ∧ endedBefore = false
  | _ => True

/-- The drain has stopped the server. -/
def begun : Drain → Bool
  | idle | called _ _ _ | returned .invalid | returned (.failed _ _ _ _) => false
  | _ => true

/-- The drain has seen the end of the listener. -/
def joined : Drain → Bool
  | finishing _ _ | connectionClock _ _ | workersLook _ _ | workersClock _ _ | closing _ | returned .ok => true
  | _ => false

/-- The drain has seen the end of everything. -/
def finished : Drain → Bool
  | workersLook _ _ | closing _ | returned .ok => true
  | _ => false

/-- The steps of its own that a drain past its deadline has left, at most. -/
def left : Drain → Nat
  | idle | returned _ => 0
  | closing _ | workersClock _ _ | connectionClock _ _ | joinClock _ _ => 1
  | workersLook _ _ => 2
  | finishing _ _ => 3
  | joining _ _ => 4
  | called _ _ _ => 5

theorem begun_of_joined {drain : Drain} (joined : drain.joined = true) : drain.begun = true := by
  revert joined
  unfold joined begun
  split <;> simp

theorem joined_of_finished {drain : Drain} (finished : drain.finished = true) : drain.joined = true := by
  revert finished
  unfold finished joined
  split <;> simp

end Drain

namespace Site

def alone (id : Nat) : Nat → Site → Site
  | 0, site => site
  | steps + 1, site => ((site.drainNext id).map (alone id steps)).getD site

/-- The drains of a server are safe in a state. -/
structure Safe (site : Site) : Prop where
  /-- After a drain that returned, nothing runs. -/
  drained : ∀ id, site.drains id = .returned .ok → site.server.stopping = true ∧ site.still = true
  /-- A drain that gave up did so at its deadline or later, and not everything had ended before it. -/
  punctual : ∀ id, (site.drains id).Punctual
  /-- Nothing was accepted after a stop. -/
  stopped : site.lateAccept = false
  /-- Past its deadline a drain returns in a few steps of its own. -/
  returns : ∀ id deadline, (site.drains id).deadline = some deadline → deadline ≤ site.now →
    ∃ outcome, (alone id 5 site).drains id = .returned outcome

/-- The step avoids what goes wrong. -/
def careful (site : Site) : Step → Bool
  | .drain id =>
    match site.drains id with
    | .called _ _ _ => site.slot || site.settled
    | .finishing deadline _ => site.activeHandlerTasks == 0 || decide (deadline ≤ site.now)
    | .joinClock deadline _ | .connectionClock deadline _ | .workersClock deadline _ =>
      !(decide (deadline ≤ site.now) && site.endedBefore deadline)
    | _ => true
  | _ => true

/-! ### The invariant -/

/-- The connection that the listener holds. -/
def held (site : Site) : Nat :=
  match site.listener with
  | .admitted | .ready | .refusing => 1
  | _ => 0

/-- The listener's thread is spawned once, after the server has started. -/
structure Ordered (site : Site) : Prop where
  begun : site.start ≠ .idle → site.server.started = true ∨ site.server.stopping = true
  spawned : site.listener ≠ .absent → site.start = .spawned ∨ site.start = .installed

structure Sound (site : Site) : Prop where
  ordered : Ordered site
  counted : site.server.activeConnections = site.held + site.queued + site.serving
  begun : ∀ id, (site.drains id).begun = true → site.server.stopping = true
  joined : ∀ id, (site.drains id).joined = true → site.settled = true
  finished : ∀ id, (site.drains id).finished = true → site.server.activeConnections = 0 ∧ site.activeHandlerTasks = 0
  closed : site.server.closed = true → site.server.stopping = true ∧ site.still = true
  punctual : ∀ id, (site.drains id).Punctual
  stopped : site.lateAccept = false

/-- What a step of the other threads keeps. -/
structure Moves (site next : Site) : Prop where
  ordered : next.Ordered
  drains : next.drains = site.drains
  closed : next.server.closed = site.server.closed
  stopping : site.server.stopping = true → next.server.stopping = true
  settled : site.server.stopping = true → site.settled = true → next.settled = true
  counted : site.server.activeConnections = site.held + site.queued + site.serving →
    next.server.activeConnections = next.held + next.queued + next.serving
  quiet : site.server.activeConnections = site.held + site.queued + site.serving → site.server.stopping = true →
    site.server.activeConnections = 0 → site.activeHandlerTasks = 0 →
    next.server.activeConnections = 0 ∧ next.activeHandlerTasks = 0
  stopped : site.lateAccept = false → next.lateAccept = false

theorem still_iff {site : Site} :
    site.still = true ↔ site.settled = true ∧ site.server.activeConnections = 0 ∧ site.activeHandlerTasks = 0 := by
  simp [still, and_assoc]

theorem Sound.of_moves {site next : Site} (sound : site.Sound) (moves : Moves site next) : next.Sound where
  ordered := moves.ordered
  counted := moves.counted sound.counted
  begun id begun := by
    rw [moves.drains] at begun
    exact moves.stopping (sound.begun id begun)
  joined id joined := by
    rw [moves.drains] at joined
    exact moves.settled (sound.begun id (Drain.begun_of_joined joined)) (sound.joined id joined)
  finished id finished := by
    rw [moves.drains] at finished
    obtain ⟨connections, handlers⟩ := sound.finished id finished
    exact moves.quiet sound.counted (sound.begun id (Drain.begun_of_joined (Drain.joined_of_finished finished))) connections handlers
  closed closed := by
    rw [moves.closed] at closed
    obtain ⟨stopping, still⟩ := sound.closed closed
    obtain ⟨settled, connections, handlers⟩ := still_iff.1 still
    exact ⟨moves.stopping stopping, still_iff.2 ⟨moves.settled stopping settled,
      moves.quiet sound.counted stopping connections handlers⟩⟩
  punctual id := by
    rw [moves.drains]
    exact sound.punctual id
  stopped := moves.stopped sound.stopped

theorem Moves.of_same {site next : Site} (ordered : site.Ordered) (drains : next.drains = site.drains)
    (server : next.server = site.server) (start : next.start = site.start) (listener : next.listener = site.listener)
    (queued : next.queued = site.queued) (serving : next.serving = site.serving)
    (tasks : next.activeHandlerTasks = site.activeHandlerTasks) (late : next.lateAccept = site.lateAccept) :
    Moves site next where
  ordered := ⟨by simpa [start, server] using ordered.begun, by simpa [start, listener] using ordered.spawned⟩
  drains := drains
  closed := by rw [server]
  stopping := by rw [server]; exact id
  settled _ := by unfold Site.settled; rw [start, listener]; exact id
  counted := by unfold held; rw [server, listener, queued, serving]; exact id
  quiet _ _ connections handlers := by rw [server, tasks]; exact ⟨connections, handlers⟩
  stopped := by simp [late]

section

variable {site next : Site} {step : Step} (ordered : site.Ordered) (move : site.next step = some next)

include ordered move

theorem start_moves {options : ServerOptions} {limiter : RateLimiter} (starts : step = .startWithOptions options limiter) :
    Moves site next := by
  subst starts
  simp only [Site.next, Option.some.injEq] at move
  subst move
  unfold ServerState.startWithOptions
  split_ifs with refused started
  · exact .of_same ordered rfl rfl rfl rfl rfl rfl rfl rfl
  · exact .of_same ordered rfl rfl rfl rfl rfl rfl rfl rfl
  · simp only [Bool.or_eq_true, not_or, Bool.not_eq_true] at refused
    -- The server has not started, so no listener has been spawned.
    have idle : site.start = .idle := by
      by_contra begun
      have := ordered.begun begun
      simp_all
    have absent : site.listener = .absent := by
      by_contra spawned
      have := ordered.spawned spawned
      simp_all
    constructor <;> simp_all [held]
    exact ⟨by simp, by simp⟩

theorem install_moves (installs : (∃ workers, step = .installWorkerPool workers) ∨ step = .spawnListener ∨
    step = .installListener) : Moves site next := by
  obtain ⟨begun, spawned⟩ := ordered
  rcases installs with ⟨workers, rfl⟩ | rfl | rfl
  · simp only [Site.next] at move
    split_ifs at move with started
    have absent : site.listener = .absent := by
      by_contra running
      have := spawned running
      simp_all
    cases workers <;> cases move <;> constructor <;> simp_all [settled, held]
    all_goals exact ⟨by simp_all, by simp⟩
  · simp only [Site.next] at move
    split_ifs at move with pooled
    have absent : site.listener = .absent := by
      by_contra running
      have := spawned running
      simp_all
    cases move
    constructor <;> simp_all [settled, held]
    exact ⟨by simp_all, by simp⟩
  · simp only [Site.next] at move
    split_ifs at move
    cases move
    constructor <;> simp_all [settled, held]
    exact ⟨by simp_all, by simp⟩

end

theorem admitConnection_ok {state admitted : ServerState} (ok : state.admitConnection = .ok admitted) :
    state.stopping = false ∧ admitted = { state with activeConnections := state.activeConnections + 1 } := by
  unfold ServerState.admitConnection ServerState.accepts at ok
  split_ifs at ok with refused full
  simp_all

section

variable {site next : Site} {step : Step} (ordered : site.Ordered) (move : site.next step = some next)

include ordered move

theorem admit_moves {tracked : Bool} (admits : step = .admission tracked) : Moves site next := by
  subst admits
  obtain ⟨begun, spawned⟩ := ordered
  simp only [Site.next] at move
  by_cases accepted : site.listener = .accepted
  swap
  · simp [accepted] at move
  rw [if_pos accepted] at move
  cases admission : site.server.admitConnection with
  | error message =>
    simp only [admission, Option.some.injEq] at move
    subst move
    constructor <;> simp_all [settled, held]
    exact ⟨by simp_all, by simp_all⟩
  | ok server =>
    obtain ⟨running, rfl⟩ := admitConnection_ok admission
    simp only [admission] at move
    split_ifs at move <;> cases move <;> constructor <;> simp_all [settled, held, ServerState.releaseConnection]
    · exact ⟨by simp_all, by simp_all⟩
    · omega
    · exact ⟨by simp_all, by simp_all⟩

theorem listener_moves (ofListener : step = .look ∨ (∃ outcome, step = .accept outcome) ∨ step = .httpRuntime ∨
    step = .submit ∨ step = .refuse) : Moves site next := by
  obtain ⟨begun, spawned⟩ := ordered
  rcases ofListener with rfl | ⟨outcome, rfl⟩ | rfl | rfl | rfl
  · simp only [Site.next] at move
    split_ifs at move <;> cases move <;> constructor <;> simp_all [settled, held]
    all_goals exact ⟨by simp_all, by simp_all⟩
  · simp only [Site.next] at move
    split_ifs at move
    cases outcome <;> cases move <;> constructor <;> simp_all [settled, held]
    all_goals exact ⟨by simp_all, by simp_all⟩
  · simp only [Site.next] at move
    split_ifs at move <;> cases move <;> constructor <;> simp_all [settled, held]
    all_goals exact ⟨by simp_all, by simp_all⟩
  · simp only [Site.next] at move
    split_ifs at move <;> cases move <;> constructor <;> simp_all [settled, held]
    · exact ⟨by simp_all, by simp_all⟩
    · omega
    · exact ⟨by simp_all, by simp_all⟩
  · simp only [Site.next] at move
    split_ifs at move
    cases move
    constructor <;> simp_all [settled, held, ServerState.releaseConnection]
    · exact ⟨by simp_all, by simp_all⟩
    · omega

theorem worker_moves (ofWorker : step = .take ∨ step = .beginRequest ∨ step = .finishRequest ∨
    step = .beginHandlerTask ∨ step = .finishHandlerTask ∨ step = .release ∨ step = .endWorker) : Moves site next := by
  obtain ⟨begun, spawned⟩ := ordered
  rcases ofWorker with rfl | rfl | rfl | rfl | rfl | rfl | rfl
  · simp only [Site.next] at move
    split_ifs at move
    cases move
    constructor <;> simp_all [settled, held]
    · exact ⟨begun, spawned⟩
    · omega
  · simp only [Site.next, ServerState.beginRequest, ServerState.accepts] at move
    split_ifs at move <;> cases move <;> constructor <;> simp_all [settled, held]
    all_goals exact ⟨by simp_all, by simp_all⟩
  · simp only [Site.next, ServerState.finishRequest] at move
    split_ifs at move
    cases move
    constructor <;> simp_all [settled, held]
    exact ⟨begun, spawned⟩
  · simp only [Site.next] at move
    split_ifs at move
    cases move
    constructor <;> simp_all [settled, held]
    · exact ⟨begun, spawned⟩
    · omega
  · simp only [Site.next] at move
    split_ifs at move
    cases move
    constructor <;> simp_all [settled, held]
    exact ⟨begun, spawned⟩
  · simp only [Site.next, ServerState.releaseConnection] at move
    split_ifs at move
    cases move
    constructor <;> simp_all [settled, held]
    · exact ⟨begun, spawned⟩
    · omega
  · simp only [Site.next] at move
    split_ifs at move
    cases move
    constructor <;> simp_all [settled, held]
    exact ⟨begun, spawned⟩

theorem other_moves (calls : ∀ id timeoutMs close, step ≠ .call id timeoutMs close) (drains : ∀ id, step ≠ .drain id) :
    Moves site next := by
  cases step with
  | tick => cases move; exact .of_same ordered rfl rfl rfl rfl rfl rfl rfl rfl
  | startWithOptions => exact start_moves ordered move rfl
  | installWorkerPool workers => exact install_moves ordered move (.inl ⟨workers, rfl⟩)
  | spawnListener => exact install_moves ordered move (.inr (.inl rfl))
  | installListener => exact install_moves ordered move (.inr (.inr rfl))
  | look => exact listener_moves ordered move (.inl rfl)
  | accept outcome => exact listener_moves ordered move (.inr (.inl ⟨outcome, rfl⟩))
  | admission => exact admit_moves ordered move rfl
  | httpRuntime => exact listener_moves ordered move (.inr (.inr (.inl rfl)))
  | submit => exact listener_moves ordered move (.inr (.inr (.inr (.inl rfl))))
  | refuse => exact listener_moves ordered move (.inr (.inr (.inr (.inr rfl))))
  | take => exact worker_moves ordered move (.inl rfl)
  | beginRequest => exact worker_moves ordered move (.inr (.inl rfl))
  | finishRequest => exact worker_moves ordered move (.inr (.inr (.inl rfl)))
  | beginHandlerTask => exact worker_moves ordered move (.inr (.inr (.inr (.inl rfl))))
  | finishHandlerTask => exact worker_moves ordered move (.inr (.inr (.inr (.inr (.inl rfl)))))
  | release => exact worker_moves ordered move (.inr (.inr (.inr (.inr (.inr (.inl rfl))))))
  | endWorker => exact worker_moves ordered move (.inr (.inr (.inr (.inr (.inr (.inr rfl))))))
  | call id timeoutMs close => exact absurd rfl (calls id timeoutMs close)
  | drain id => exact absurd rfl (drains id)

end

/-! ### Steps of a drain -/

section

variable {site : Site} {id : Nat} {drain : Drain}

theorem drains_setDrain (other : Nat) : (site.setDrain id drain).drains other = if other = id then drain else site.drains other := by
  by_cases same : other = id
  · subst same
    simp [setDrain]
  · simp [setDrain, same]

@[simp] theorem setDrain_same : (site.setDrain id drain).drains id = drain := by
  simp [setDrain]

theorem Sound.setDrain (sound : site.Sound) (begun : drain.begun = true → site.server.stopping = true)
    (joined : drain.joined = true → site.settled = true)
    (finished : drain.finished = true → site.server.activeConnections = 0 ∧ site.activeHandlerTasks = 0)
    (punctual : drain.Punctual) : (site.setDrain id drain).Sound where
  ordered := ⟨sound.ordered.begun, sound.ordered.spawned⟩
  counted := sound.counted
  begun other := by
    rw [drains_setDrain]
    split_ifs
    · exact begun
    · exact sound.begun other
  joined other := by
    rw [drains_setDrain]
    split_ifs
    · exact joined
    · exact sound.joined other
  finished other := by
    rw [drains_setDrain]
    split_ifs
    · exact finished
    · exact sound.finished other
  closed := sound.closed
  punctual other := by
    rw [drains_setDrain]
    split_ifs
    · exact punctual
    · exact sound.punctual other
  stopped := sound.stopped

theorem Sound.fail (sound : site.Sound) {message : String} {deadline : Nat} (past : deadline ≤ site.now)
    (careful : site.endedBefore deadline = false) : (site.fail id message deadline).Sound :=
  sound.setDrain (fun begun => by cases begun) (fun joined => by cases joined) (fun finished => by cases finished)
    ⟨past, careful⟩

theorem beginStop_ok {state stopped : ServerState} {timeoutMs : Int} (ok : state.beginStop timeoutMs = .ok stopped) :
    (state.closed = true ∧ stopped = state) ∨ stopped = { state with stopping := true, pending := 0, started := false } := by
  unfold ServerState.beginStop at ok
  split_ifs at ok <;> simp_all

theorem Sound.begin (sound : site.Sound) {server : ServerState} {timeoutMs : Int} {deadline : Nat} {close pool : Bool}
    (ok : site.server.beginStop timeoutMs = .ok server) (careful : site.slot = true ∨ site.settled = true) :
    ({ site with server, pool, slot := false }.setDrain id
      (if site.slot then .joining deadline close else .finishing deadline close)).Sound := by
  have stopped : ({ site with server, pool, slot := false } : Site).Sound ∧ server.stopping = true := by
    obtain ⟨closed, rfl⟩ | rfl := beginStop_ok ok
    · exact ⟨sound.of_moves (.of_same sound.ordered rfl rfl rfl rfl rfl rfl rfl rfl), (sound.closed closed).1⟩
    · refine ⟨sound.of_moves ?_, rfl⟩
      constructor <;> simp_all [settled, held]
      exact ⟨by simp, sound.ordered.spawned⟩
  refine stopped.1.setDrain (fun _ => stopped.2) (fun joined => ?_) (fun finished => ?_) ?_
  · cases slot : site.slot with
    | true => simp [slot, Drain.joined] at joined
    | false => exact careful.resolve_left (by simp [slot])
  · split_ifs at finished <;> cases finished
  · split_ifs <;> trivial

theorem finishStop_ok {state : ServerState} {tasks : Nat} (ok : state.finishStop tasks = .ok ()) :
    state.closed = true ∨ tasks = 0 ∧ state.activeConnections = 0 := by
  unfold ServerState.finishStop at ok
  split_ifs at ok <;> simp_all

theorem finishStop_error {state : ServerState} {tasks : Nat} {message : String}
    (error : state.finishStop tasks = .error message) (other : message ≠ ServerState.connectionsLeft) : tasks ≠ 0 := by
  unfold ServerState.finishStop at error
  split_ifs at error <;> simp_all

theorem Sound.drainNext {next : Site} (sound : site.Sound) (careful : site.careful (.drain id) = true)
    (move : site.drainNext id = some next) : next.Sound := by
  have begun := sound.begun id
  have joined := sound.joined id
  have finished := sound.finished id
  unfold Site.drainNext at move
  unfold Site.careful at careful
  cases phase : site.drains id with
  | idle | returned => simp [phase] at move
  | called deadline timeoutMs close =>
    simp only [phase, Option.some.injEq, Bool.or_eq_true] at move careful
    cases stop : site.server.beginStop timeoutMs with
    | error message =>
      simp only [stop] at move
      subst move
      exact sound.setDrain (fun begun => by cases begun) (fun joined => by cases joined)
        (fun finished => by cases finished) trivial
    | ok server =>
      simp only [stop] at move
      subst move
      exact sound.begin stop careful
  | joining deadline close =>
    simp only [phase, Option.some.injEq] at move begun
    subst move
    split_ifs with ended
    · exact sound.setDrain (fun _ => begun rfl) (fun _ => by simp [settled, ended]) (fun finished => by cases finished)
        trivial
    · exact sound.setDrain (fun _ => begun rfl) (fun joined => by cases joined) (fun finished => by cases finished) trivial
  | joinClock deadline close =>
    simp only [phase, Option.some.injEq] at move begun careful
    subst move
    split_ifs with past slot
    · exact sound.fail past (by simpa [past] using careful)
    · have installed : ({ site with slot := true } : Site).Sound :=
        sound.of_moves (.of_same sound.ordered rfl rfl rfl rfl rfl rfl rfl rfl)
      have late : site.endedBefore deadline = false := by simpa [past] using careful
      exact installed.fail past late
    · exact sound.setDrain (fun _ => begun rfl) (fun joined => by cases joined) (fun finished => by cases finished) trivial
  | finishing deadline close =>
    simp only [phase, Option.some.injEq] at move begun joined careful
    subst move
    cases stop : site.server.finishStop site.activeHandlerTasks with
    | ok =>
      refine sound.setDrain (fun _ => begun rfl) (fun _ => joined rfl) (fun _ => ?_) trivial
      obtain closed | ⟨tasks, connections⟩ := finishStop_ok stop
      · exact (still_iff.1 (sound.closed closed).2).2
      · exact ⟨connections, tasks⟩
    | error message =>
      dsimp only
      split_ifs with connections
      · exact sound.setDrain (fun _ => begun rfl) (fun _ => joined rfl) (fun finished => by cases finished) trivial
      · have tasks := finishStop_error stop connections
        refine sound.fail (by simpa [tasks] using careful) ?_
        simp [endedBefore, still, tasks]
  | connectionClock deadline close =>
    simp only [phase, Option.some.injEq] at move begun joined careful
    subst move
    split_ifs with past
    · exact sound.fail past (by simpa [past] using careful)
    · exact sound.setDrain (fun _ => begun rfl) (fun _ => joined rfl) (fun finished => by cases finished) trivial
  | workersLook deadline close =>
    simp only [phase, Option.some.injEq] at move begun joined finished
    subst move
    split_ifs
    · exact sound.setDrain (fun _ => begun rfl) (fun _ => joined rfl) (fun _ => finished rfl) trivial
    · exact sound.setDrain (fun _ => begun rfl) (fun _ => joined rfl) (fun _ => finished rfl) trivial
    · exact sound.setDrain (fun _ => begun rfl) (fun _ => joined rfl) (fun finished => by cases finished) trivial
  | workersClock deadline close =>
    simp only [phase, Option.some.injEq] at move begun joined careful
    subst move
    split_ifs with past
    · exact sound.fail past (by simpa [past] using careful)
    · exact sound.setDrain (fun _ => begun rfl) (fun _ => joined rfl) (fun finished => by cases finished) trivial
  | closing deadline =>
    simp only [phase, Option.some.injEq] at move begun joined finished
    subst move
    have closed : ({ site with server := site.server.markClosed } : Site).Sound := by
      refine { sound with
        ordered := ⟨sound.ordered.begun, sound.ordered.spawned⟩
        closed := fun _ => ⟨begun rfl, still_iff.2 ⟨joined rfl, finished rfl⟩⟩ }
    exact closed.setDrain (fun _ => begun rfl) (fun _ => joined rfl) (fun _ => finished rfl) trivial

theorem Sound.next {next : Site} {step : Step} (sound : site.Sound) (careful : site.careful step = true)
    (move : site.next step = some next) : next.Sound := by
  by_cases drains : ∃ id, step = .drain id
  · obtain ⟨id, rfl⟩ := drains
    exact sound.drainNext careful move
  by_cases calls : ∃ id timeoutMs close, step = .call id timeoutMs close
  · obtain ⟨id, timeoutMs, close, rfl⟩ := calls
    simp only [Site.next] at move
    split_ifs at move <;> cases move <;>
      exact sound.setDrain (fun begun => by cases begun) (fun joined => by cases joined)
        (fun finished => by cases finished) trivial
  · push Not at drains calls
    exact sound.of_moves (other_moves sound.ordered move calls drains)

/-! ### Drains return -/

theorem drainNext_past {deadline : Nat} (phase : (site.drains id).deadline = some deadline) (past : deadline ≤ site.now) :
    ∃ next, site.drainNext id = some next ∧ next.now = site.now ∧ ((∃ outcome, next.drains id = .returned outcome) ∨
        (next.drains id).deadline = some deadline ∧ (next.drains id).left < (site.drains id).left) := by
  unfold Site.drainNext
  cases drain : site.drains id with
  | idle | returned => simp [drain, Drain.deadline] at phase
  | called limit timeoutMs close =>
    simp only [drain, Drain.deadline, Option.some.injEq] at phase
    subst phase
    refine ⟨_, rfl, ?_⟩
    cases site.server.beginStop timeoutMs with
    | error message => exact ⟨rfl, .inl ⟨_, setDrain_same⟩⟩
    | ok server => exact ⟨rfl, .inr (by simp only [setDrain]; split_ifs <;> simp [Drain.deadline, Drain.left])⟩
  | joining limit close =>
    simp only [drain, Drain.deadline, Option.some.injEq] at phase
    subst phase
    exact ⟨_, rfl, rfl, .inr (by simp only [setDrain]; split_ifs <;> simp [Drain.deadline, Drain.left])⟩
  | joinClock limit close =>
    simp only [drain, Drain.deadline, Option.some.injEq] at phase
    subst phase
    refine ⟨_, rfl, ?_⟩
    rw [if_pos past]
    split_ifs <;> exact ⟨rfl, .inl ⟨_, setDrain_same⟩⟩
  | finishing limit close =>
    simp only [drain, Drain.deadline, Option.some.injEq] at phase
    subst phase
    refine ⟨_, rfl, ?_⟩
    cases site.server.finishStop site.activeHandlerTasks with
    | ok => exact ⟨rfl, .inr (by simp [setDrain, Drain.deadline, Drain.left])⟩
    | error message =>
      dsimp only
      split_ifs
      · exact ⟨rfl, .inr (by simp [setDrain, Drain.deadline, Drain.left])⟩
      · exact ⟨rfl, .inl ⟨_, setDrain_same⟩⟩
  | connectionClock limit close | workersClock limit close =>
    simp only [drain, Drain.deadline, Option.some.injEq] at phase
    subst phase
    refine ⟨_, rfl, ?_⟩
    rw [if_pos past]
    exact ⟨rfl, .inl ⟨_, setDrain_same⟩⟩
  | workersLook limit close =>
    simp only [drain, Drain.deadline, Option.some.injEq] at phase
    subst phase
    refine ⟨_, rfl, rfl, ?_⟩
    split_ifs
    · exact .inr (by simp [setDrain, Drain.deadline, Drain.left])
    · exact .inl ⟨_, setDrain_same⟩
    · exact .inr (by simp [setDrain, Drain.deadline, Drain.left])
  | closing limit => exact ⟨_, rfl, rfl, .inl ⟨_, setDrain_same⟩⟩

theorem alone_returned {outcome : Outcome} (returned : site.drains id = .returned outcome) (steps : Nat) :
    alone id steps site = site := by
  cases steps with
  | zero => rfl
  | succ steps => simp [alone, Site.drainNext, returned]

theorem alone_returns {deadline steps : Nat} (phase : (site.drains id).deadline = some deadline)
    (past : deadline ≤ site.now) (enough : (site.drains id).left ≤ steps) :
    ∃ outcome, (alone id steps site).drains id = .returned outcome := by
  induction steps generalizing site with
  | zero =>
    have positive : 0 < (site.drains id).left := by
      cases drain : site.drains id <;> simp [drain, Drain.deadline, Drain.left] at phase ⊢
    omega
  | succ steps ih =>
    obtain ⟨next, move, now, ⟨outcome, returned⟩ | ⟨later, fewer⟩⟩ := drainNext_past phase past
    · rw [alone, move, Option.map_some, Option.getD_some, alone_returned returned]
      exact ⟨outcome, returned⟩
    · rw [alone, move]
      exact ih later (now ▸ past) (by omega)

/-! ### Runs -/

theorem Sound.safe (sound : site.Sound) : site.Safe where
  drained id returned := by
    have begun := sound.begun id
    have joined := sound.joined id
    have finished := sound.finished id
    rw [returned] at begun joined finished
    exact ⟨begun rfl, still_iff.2 ⟨joined rfl, finished rfl⟩⟩
  punctual := sound.punctual
  stopped := sound.stopped
  returns id deadline phase past := by
    refine alone_returns phase past ?_
    cases site.drains id <;> simp [Drain.left]

theorem newSite_sound (options : ServerOptions) (limiter : RateLimiter) : (newSite options limiter).Sound where
  ordered := ⟨fun begun => absurd rfl begun, fun running => absurd rfl running⟩
  counted := rfl
  begun id begun := by cases begun
  joined id joined := by cases joined
  finished id finished := by cases finished
  closed closed := by cases closed
  punctual id := trivial
  stopped := rfl

end

end Site

/-- The server among its threads. -/
def serving (options : ServerOptions) (limiter : RateLimiter) : System Site Step :=
  System.ofPartial (newSite options limiter) Site.next

/-- In any order of steps, the drains of a server are safe as long as every step is careful. -/
theorem drains_safe {options : ServerOptions} {limiter : RateLimiter} {site : Site}
    (reached : ((serving options limiter).restrict fun site step => site.careful step = true).Reachable site) :
    site.Safe := by
  refine Site.Sound.safe (reached.invariant (P := Site.Sound) ?_ ?_)
  · rintro site rfl
    exact Site.newSite_sound options limiter
  · rintro site step next sound ⟨careful, move⟩
    exact sound.next careful move

/-! ### Runs that are careful, and two that are not -/

def oneConnection : ServerOptions where
  activeConnections := 1
  pendingWork := 1
  maxHeaderBytes := 8192
  maxHeaderFields := 64
  maxTargetBytes := 4096
  maxBodyBytes := 65536
  trustedProxy := false

def unlimited : RateLimiter := ⟨100, 100, 100, []⟩

def listening : List Step :=
  [.startWithOptions oneConnection unlimited, .installWorkerPool (some 1), .spawnListener, .installListener, .look]

/-- The server is closed while it waits. -/
def closeIdle : List Step :=
  listening ++ [.call 0 1000 true, .drain 0, .drain 0, .accept .timeout, .look, .drain 0, .drain 0, .drain 0, .endWorker,
    .drain 0, .drain 0]

theorem drains_safe_closeIdle :
    ∃ site, closeIdle.foldlM Site.next (newSite oneConnection unlimited) = some site ∧ site.drains 0 = .returned .ok ∧
      site.Safe := by
  obtain ⟨site, careful, run, drain⟩ :
      ∃ site, closeIdle.foldlM (fun site step => if site.careful step then site.next step else none)
          (newSite oneConnection unlimited) = some site ∧
        closeIdle.foldlM Site.next (newSite oneConnection unlimited) = some site ∧ site.drains 0 = .returned .ok :=
    ⟨_, rfl, rfl, rfl⟩
  exact ⟨site, run, drain, drains_safe
    (.foldlM_restrict (fun _ _ h => h) (.initial rfl) careful)⟩

/-- A connection is served, its handler runs on, and the server is stopped. -/
def stopWithHandler : List Step :=
  listening ++ [.accept .stream, .admission true, .httpRuntime, .submit, .take, .beginRequest, .beginHandlerTask,
    .call 0 1000 false, .drain 0, .look, .drain 0, .drain 0]

/-- Two threads stop the server, and the second does not wait for the listener. -/
def stopTwice : List Step :=
  listening ++ [.call 0 1000 false, .call 1 1000 false, .drain 0, .drain 1, .endWorker, .drain 1, .drain 1]

/-- The first run reports a timeout at once, the second returns while the listener runs. -/
theorem drains_unsafe :
    ¬(∀ site, stopWithHandler.foldlM Site.next (newSite oneConnection unlimited) = some site → site.Safe) ∧
      ¬(∀ site, stopTwice.foldlM Site.next (newSite oneConnection unlimited) = some site → site.Safe) := by
  constructor
  · intro all
    obtain ⟨site, run, drain⟩ : ∃ site, stopWithHandler.foldlM Site.next (newSite oneConnection unlimited) = some site ∧
        site.drains 0 = .returned (.failed ServerState.activeHandlers 1000000000 0 false) := ⟨_, rfl, rfl⟩
    have punctual := (all site run).punctual 0
    rw [drain] at punctual
    exact absurd punctual.1 (by decide)
  · intro all
    obtain ⟨site, run, drain, listener⟩ : ∃ site, stopTwice.foldlM Site.next (newSite oneConnection unlimited) = some site ∧
        site.drains 1 = .returned .ok ∧ site.still = false := ⟨_, rfl, rfl, rfl⟩
    have drained := (all site run).drained 1 drain
    exact absurd drained.2 (by simp [listener])

end BasicNext.Web
