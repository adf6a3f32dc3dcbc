import BasicNext.Web.DrainSafety
import Mathlib.Data.List.Perm.Basic
import Mathlib.Tactic.SplitIfs

/-!
# The sockets of active connections

`active_connections` and `active_sockets` among the threads of a server. A connection is admitted and tracked in one
section under the lock, goes from the listener through the queue to a worker, and is released by the listener or by its
worker, whether or not its work panics. A release removes the last tracked socket, which may be of another connection.
Connections are numbered in the order of their admission, and a socket by its connection.
-/

namespace BasicNext.Web

open Lib

structure Connections where
  site : Site
  /-- `active_sockets` -/
  activeSockets : List Nat := []
  /-- The connection that the listener holds. -/
  listening : Option Nat := none
  queue : List Nat := []
  serving : List Nat := []
  /-- The releases so far, by the connection each is for. -/
  released : List Nat := []
  admitted : Nat := 0

namespace Connections

/-- The connections admitted and not yet released. -/
def active (connections : Connections) : List Nat :=
  connections.listening.toList ++ connections.queue ++ connections.serving

/-- `track_connection_socket`, where the socket can be cloned -/
def trackConnectionSocket (connections : Connections) : Connections :=
  { connections with
    activeSockets := connections.activeSockets ++ [connections.admitted]
    listening := some connections.admitted
    admitted := connections.admitted + 1 }

/-- `release_connection`: the counter is the site's. -/
def releaseConnection (connections : Connections) (connection : List Nat) : Connections :=
  { connections with
    activeSockets := connections.activeSockets.dropLast
    released := connections.released ++ connection }

/-- The sockets that a stop in this state shuts down. -/
def cancelConnections (connections : Connections) : List Nat := connections.activeSockets

/-- One step of any thread; a worker's release is of a connection that it serves. -/
def next (connections : Connections) (turn : Step × Nat) : Option Connections := do
  let site ← connections.site.next turn.1
  let after := { connections with site }
  match turn.1 with
  | .admission tracked =>
    match connections.site.server.admitConnection with
    | .error _ => some after
    | .ok _ =>
      if tracked then some after.trackConnectionSocket
      else some { after.releaseConnection [connections.admitted] with admitted := connections.admitted + 1 }
  | .submit =>
    if site.listener = .refusing then some after
    else some { after with queue := connections.queue ++ connections.listening.toList, listening := none }
  | .refuse => some { after.releaseConnection connections.listening.toList with listening := none }
  | .take =>
    some { after with queue := connections.queue.tail, serving := connections.serving ++ connections.queue.head?.toList }
  | .release =>
    if turn.2 ∈ connections.serving then
      some { after.releaseConnection [turn.2] with serving := connections.serving.erase turn.2 }
    else none
  | _ => some after

def start (options : ServerOptions) (limiter : RateLimiter) : Connections := { site := newSite options limiter }

/-- The accounts of a state. -/
structure Accounted (connections : Connections) : Prop where
  counted : connections.site.server.activeConnections = connections.active.length
  limit : connections.site.server.activeConnections ≤ connections.site.server.options.activeConnections
  /-- What was admitted is active, or was released once. -/
  once : ∀ id, connections.active.count id + connections.released.count id = if id < connections.admitted then 1 else 0
  sockets : connections.activeSockets.Perm connections.active
  /-- A stop shuts down every active connection and no other. -/
  stops : ∀ id, id ∈ connections.cancelConnections ↔ id ∈ connections.active

def ReleasesLast (connections : Connections) : Step × Nat → Prop
  | (.admission tracked, _) =>
    tracked = false → (∃ server, connections.site.server.admitConnection = .ok server) → connections.activeSockets = []
  | (.refuse, _) => connections.activeSockets.getLast? = connections.listening
  | (.release, connection) => connections.activeSockets.getLast? = some connection
  | _ => True

/-! ### The site -/

/-- A step that neither admits, moves nor releases a connection. -/
structure Quiet (site site' : Site) : Prop where
  held : site'.held = site.held
  queued : site'.queued = site.queued
  serving : site'.serving = site.serving
  activeConnections : site'.server.activeConnections = site.server.activeConnections
  options : site'.server.options = site.server.options
  running : site'.server.started = true ∨ site'.server.stopping = true ∨
    (site'.server.started = site.server.started ∧ site'.server.stopping = site.server.stopping)

/-- A step of a drain. -/
structure OfDrain (site site' : Site) : Prop extends Quiet site site' where
  start : site'.start = site.start
  listener : site'.listener = site.listener

namespace OfDrain

variable {site site' : Site}

theorem refl : OfDrain site site := ⟨⟨rfl, rfl, rfl, rfl, rfl, .inr (.inr ⟨rfl, rfl⟩)⟩, rfl, rfl⟩

theorem setDrain (moves : OfDrain site site') (id : Nat) (drain : Drain) : OfDrain site (site'.setDrain id drain) :=
  ⟨⟨moves.held, moves.queued, moves.serving, moves.activeConnections, moves.options, moves.running⟩, moves.start,
    moves.listener⟩

theorem drainNext {id : Nat} (move : site.drainNext id = some site') : OfDrain site site' := by
  unfold Site.drainNext at move
  cases phase : site.drains id with
  | idle | returned => simp [phase] at move
  | called deadline timeoutMs close =>
    simp only [phase, Option.some.injEq] at move
    cases stop : site.server.beginStop timeoutMs with
    | error message =>
      simp only [stop] at move
      subst move
      exact refl.setDrain id _
    | ok server =>
      simp only [stop] at move
      subst move
      refine setDrain ?_ id _
      obtain ⟨-, rfl⟩ | rfl := Site.beginStop_ok stop
      · exact ⟨⟨rfl, rfl, rfl, rfl, rfl, .inr (.inr ⟨rfl, rfl⟩)⟩, rfl, rfl⟩
      · exact ⟨⟨rfl, rfl, rfl, rfl, rfl, .inr (.inl rfl)⟩, rfl, rfl⟩
  | closing deadline =>
    simp only [phase, Option.some.injEq] at move
    subst move
    exact ⟨⟨rfl, rfl, rfl, rfl, rfl, .inr (.inr ⟨rfl, rfl⟩)⟩, rfl, rfl⟩
  | finishing deadline close =>
    simp only [phase, Option.some.injEq] at move
    subst move
    split
    · exact refl.setDrain id _
    · split
      · exact refl.setDrain id _
      · exact refl.setDrain id _
  | joinClock deadline close =>
    simp only [phase, Option.some.injEq] at move
    subst move
    split_ifs
    · exact refl.setDrain id _
    · exact ⟨⟨rfl, rfl, rfl, rfl, rfl, .inr (.inr ⟨rfl, rfl⟩)⟩, rfl, rfl⟩
    · exact refl.setDrain id _
  | joining | connectionClock | workersLook | workersClock =>
    simp only [phase, Option.some.injEq] at move
    subst move
    first
    | exact refl.setDrain id _
    | split_ifs
      · exact refl.setDrain id _
      · exact refl.setDrain id _

end OfDrain

theorem ordered_drainNext {site site' : Site} {id : Nat} (ordered : site.Ordered) (move : site.drainNext id = some site') :
    site'.Ordered := by
  have moves := OfDrain.drainNext move
  refine ⟨fun begun => ?_, fun running => ?_⟩
  · rw [moves.start] at begun
    rcases moves.running with started | stopping | ⟨started, stopping⟩
    · exact .inl started
    · exact .inr stopping
    · rw [started, stopping]
      exact ordered.begun begun
  · rw [moves.listener] at running
    rw [moves.start]
    exact ordered.spawned running

theorem ordered_next {site site' : Site} {step : Step} (ordered : site.Ordered) (move : site.next step = some site') :
    site'.Ordered := by
  by_cases drains : ∃ id, step = .drain id
  · obtain ⟨id, rfl⟩ := drains
    exact ordered_drainNext ordered move
  · by_cases calls : ∃ id timeoutMs close, step = .call id timeoutMs close
    · obtain ⟨id, timeoutMs, close, rfl⟩ := calls
      simp only [Site.next] at move
      split_ifs at move <;> cases move <;> exact ⟨ordered.begun, ordered.spawned⟩
    · exact (Site.other_moves ordered move (fun id timeoutMs close same => calls ⟨id, timeoutMs, close, same⟩)
        fun id same => drains ⟨id, same⟩).ordered

namespace Quiet

variable {site site' : Site} {step : Step}

/-- The steps that move no connection. -/
def ofNone : Step → Bool
  | .startWithOptions _ _ | .admission _ | .submit | .refuse | .take | .release => false
  | _ => true

theorem next (ordered : site.Ordered) (none : ofNone step = true) (move : site.next step = some site') : Quiet site site' := by
  cases step with
  | startWithOptions | admission | submit | refuse | take | release => cases none
  | drain id => exact (OfDrain.drainNext move).toQuiet
  | tick nanoseconds =>
    cases move
    exact ⟨rfl, rfl, rfl, rfl, rfl, .inr (.inr ⟨rfl, rfl⟩)⟩
  | call id timeoutMs close =>
    simp only [Site.next] at move
    split_ifs at move <;> cases move <;> exact (OfDrain.refl.setDrain id _).toQuiet
  | beginRequest =>
    simp only [Site.next, ServerState.beginRequest] at move
    split_ifs at move <;> cases move <;> exact ⟨rfl, rfl, rfl, rfl, rfl, .inr (.inr ⟨rfl, rfl⟩)⟩
  | installWorkerPool workers =>
    simp only [Site.next] at move
    split_ifs at move
    cases workers <;> cases move <;> exact ⟨rfl, rfl, rfl, rfl, rfl, .inr (.inr ⟨rfl, rfl⟩)⟩
  | accept outcome =>
    simp only [Site.next] at move
    split_ifs at move with accepting
    cases outcome <;> cases move <;>
      exact ⟨by simp [Site.held, accepting], rfl, rfl, rfl, rfl, .inr (.inr ⟨rfl, rfl⟩)⟩
  | httpRuntime =>
    simp only [Site.next] at move
    split_ifs at move with admitted pool <;> cases move <;>
      exact ⟨by simp [Site.held, admitted], rfl, rfl, rfl, rfl, .inr (.inr ⟨rfl, rfl⟩)⟩
  | look =>
    simp only [Site.next] at move
    split_ifs at move with looping stopped <;> cases move <;>
      exact ⟨by simp [Site.held, looping], rfl, rfl, rfl, rfl, .inr (.inr ⟨rfl, rfl⟩)⟩
  | spawnListener =>
    simp only [Site.next] at move
    split_ifs at move with pooled
    cases move
    have absent : site.listener = .absent := by
      by_contra running
      have begun := ordered.spawned running
      simp [pooled] at begun
    exact ⟨by simp [Site.held, absent], rfl, rfl, rfl, rfl, .inr (.inr ⟨rfl, rfl⟩)⟩
  | installListener | finishRequest | beginHandlerTask | finishHandlerTask | endWorker =>
    simp only [Site.next] at move
    split_ifs at move
    cases move
    exact ⟨rfl, rfl, rfl, rfl, rfl, .inr (.inr ⟨rfl, rfl⟩)⟩

end Quiet

/-! ### What every step keeps -/

variable {connections connections' : Connections} {turn : Step × Nat}

/-- What holds of every run. -/
structure Inv (connections : Connections) : Prop where
  ordered : connections.site.Ordered
  listening : connections.listening.toList.length = connections.site.held
  queued : connections.queue.length = connections.site.queued
  serving : connections.serving.length = connections.site.serving
  counted : connections.site.server.activeConnections = connections.active.length
  limit : connections.site.server.activeConnections ≤ connections.site.server.options.activeConnections
  once : ∀ id, connections.active.count id + connections.released.count id = if id < connections.admitted then 1 else 0
  idle : connections.site.server.started = false → connections.site.server.stopping = false →
    connections.site.server.activeConnections = 0

theorem Inv.accounts_iff (inv : connections.Inv) :
    connections.Accounted ↔ connections.activeSockets.Perm connections.active :=
  ⟨fun accounted => accounted.sockets, fun same => ⟨inv.counted, inv.limit, inv.once, same, fun _ => same.mem_iff⟩⟩

/-- A step keeps the accounts exactly when it releases the last socket's connection. -/
structure Keeps (connections : Connections) (turn : Step × Nat) (connections' : Connections) : Prop where
  inv : connections'.Inv
  sockets : connections.activeSockets.Perm connections.active →
    (connections'.activeSockets.Perm connections'.active ↔ connections.ReleasesLast turn)

theorem dropLast_perm_iff {sockets rest : List Nat} {connection : Nat} (all : sockets.Perm (connection :: rest)) :
    sockets.dropLast.Perm rest ↔ sockets.getLast? = some connection := by
  have some : sockets ≠ [] := fun none => by simp [none] at all
  have parts := List.dropLast_append_getLast some
  rw [List.getLast?_eq_some_getLast some, Option.some.injEq]
  have moved : (sockets.getLast some :: sockets.dropLast).Perm (connection :: rest) := by
    refine (List.perm_append_singleton _ _).symm.trans ?_
    rwa [parts]
  constructor
  · intro same
    have first : (sockets.getLast some :: rest).Perm (connection :: rest) := (same.symm.cons _).trans moved
    have counts := first.count_eq connection
    by_contra different
    rw [List.count_cons_self, List.count_cons_of_ne different] at counts
    omega
  · intro same
    rw [same] at moved
    exact moved.cons_inv

theorem quiet_keeps (inv : connections.Inv) {site : Site} (ordered : site.Ordered) (quiet : Quiet connections.site site)
    (exempt : connections.ReleasesLast turn) : connections.Keeps turn { connections with site } where
  inv :=
    { ordered
      listening := inv.listening.trans quiet.held.symm
      queued := inv.queued.trans quiet.queued.symm
      serving := inv.serving.trans quiet.serving.symm
      counted := quiet.activeConnections.trans inv.counted
      limit := by rw [quiet.activeConnections, quiet.options]; exact inv.limit
      once := inv.once
      idle := fun started stopping => by
        rw [quiet.activeConnections]
        rcases quiet.running with yes | yes | ⟨sameStarted, sameStopping⟩
        · rw [yes] at started
          cases started
        · rw [yes] at stopping
          cases stopping
        · exact inv.idle (sameStarted ▸ started) (sameStopping ▸ stopping) }
  sockets same := iff_of_true same exempt

theorem admitConnection_room {state admitted : ServerState} (ok : state.admitConnection = .ok admitted) :
    state.started = true ∧ state.activeConnections < state.options.activeConnections := by
  unfold ServerState.admitConnection ServerState.accepts at ok
  split_ifs at ok with refused full
  simp only [Bool.not_eq_true', Bool.and_eq_false_imp] at refused
  exact ⟨by simp_all, by omega⟩

theorem count_admitted (inv : connections.Inv) (id : Nat) :
    (connections.admitted :: connections.active).count id + connections.released.count id =
      if id < connections.admitted + 1 then 1 else 0 := by
  have once := inv.once id
  rw [List.count_cons]
  by_cases newest : connections.admitted = id
  · subst newest
    simp only [Nat.lt_irrefl, if_false] at once
    simp only [BEq.rfl, if_true, Nat.lt_succ_self]
    omega
  · rw [if_neg (by simpa using newest)]
    split at once
    · rw [if_pos (by omega)]
      omega
    · rw [if_neg (by omega)]
      omega

theorem admission_keeps (inv : connections.Inv) {tracked : Bool} {worker : Nat}
    (move : connections.next (.admission tracked, worker) = some connections') :
    connections.Keeps (.admission tracked, worker) connections' := by
  obtain ⟨site, step, rest⟩ := Option.bind_eq_some_iff.1 move
  have ordered := ordered_next inv.ordered step
  by_cases accepted : connections.site.listener = .accepted
  swap
  · simp [Site.next, accepted] at step
  simp only [Site.next, if_pos accepted] at step
  have none : connections.listening = none := by
    have length := inv.listening
    rw [Site.held, accepted] at length
    cases listening : connections.listening with
    | none => rfl
    | some id => simp [listening] at length
  cases admission : connections.site.server.admitConnection with
  | error message =>
    simp only [admission, Option.some.injEq] at step rest
    subst rest
    subst step
    refine quiet_keeps inv ordered ⟨by simp [Site.held, accepted], rfl, rfl, rfl, rfl, .inr (.inr ⟨rfl, rfl⟩)⟩ ?_
    rintro - ⟨server, ok⟩
    simp only [admission] at ok
    cases ok
  | ok server =>
    obtain ⟨started, room⟩ := admitConnection_room admission
    obtain ⟨-, rfl⟩ := Site.admitConnection_ok admission
    have waiting : connections.active = connections.queue ++ connections.serving := by
      simp only [active, none, Option.toList_none, List.nil_append]
    simp only [admission] at step rest
    cases tracked with
    | true =>
      simp only [if_true, Option.some.injEq] at step rest
      subst rest
      have after : active (trackConnectionSocket { connections with site }) = connections.admitted :: connections.active := by
        rw [waiting]
        rfl
      refine ⟨⟨ordered, ?_, ?_, ?_, ?_, ?_, fun id => ?_, fun stopped => ?_⟩, fun same => ?_⟩
      · subst step
        rfl
      · subst step
        exact inv.queued
      · subst step
        exact inv.serving
      · rw [after, List.length_cons, ← inv.counted]
        subst step
        rfl
      · subst step
        exact room
      · rw [after]
        exact count_admitted inv id
      · subst step
        change connections.site.server.started = false at stopped
        rw [started] at stopped
        cases stopped
      · refine iff_of_true ?_ Bool.noConfusion
        rw [after]
        exact (List.perm_append_singleton _ _).trans (same.cons _)
    | false =>
      simp only [Bool.false_eq_true, if_false, Option.some.injEq] at step rest
      subst rest
      refine ⟨⟨ordered, ?_, ?_, ?_, ?_, ?_, fun id => ?_, fun stopped => ?_⟩, fun same => ?_⟩
      · subst step
        change connections.listening.toList.length = 0
        rw [none]
        rfl
      · subst step
        exact inv.queued
      · subst step
        exact inv.serving
      · subst step
        exact inv.counted
      · subst step
        exact inv.limit
      · change connections.active.count id + (connections.released ++ [connections.admitted]).count id =
          if id < connections.admitted + 1 then 1 else 0
        rw [← count_admitted inv id, List.count_append, List.count_cons, List.count_cons, List.count_nil]
        omega
      · subst step
        change connections.site.server.started = false at stopped
        rw [started] at stopped
        cases stopped
      · change connections.activeSockets.dropLast.Perm connections.active ↔ _
        constructor
        · intro dropped _ _
          have lengths := (dropped.trans same.symm).length_eq
          rw [List.length_dropLast] at lengths
          exact List.length_eq_zero_iff.1 (by omega)
        · intro empty
          have nothing := empty rfl ⟨_, admission⟩
          rw [nothing] at same ⊢
          exact same

theorem Inv.held_some (inv : connections.Inv) (held : connections.site.held = 1) :
    ∃ connection, connections.listening = some connection := by
  have length := inv.listening
  rw [held] at length
  cases listening : connections.listening with
  | none => simp [listening] at length
  | some connection => exact ⟨connection, rfl⟩

theorem moved_keeps (inv : connections.Inv) (ordered : connections'.site.Ordered)
    (server : connections'.site.server = connections.site.server)
    (listening : connections'.listening.toList.length = connections'.site.held)
    (queued : connections'.queue.length = connections'.site.queued)
    (serving : connections'.serving.length = connections'.site.serving)
    (sockets : connections'.activeSockets = connections.activeSockets)
    (released : connections'.released = connections.released) (admitted : connections'.admitted = connections.admitted)
    (same : connections'.active.Perm connections.active) (exempt : connections.ReleasesLast turn) :
    connections.Keeps turn connections' where
  inv :=
    { ordered, listening, queued, serving
      counted := by rw [server, same.length_eq]; exact inv.counted
      limit := by rw [server]; exact inv.limit
      once := fun id => by rw [same.count_eq, released, admitted]; exact inv.once id
      idle := by rw [server]; exact inv.idle }
  sockets all := by
    rw [sockets]
    exact iff_of_true (all.trans same.symm) exempt

theorem submit_keeps (inv : connections.Inv) {worker : Nat} (move : connections.next (.submit, worker) = some connections') :
    connections.Keeps (.submit, worker) connections' := by
  obtain ⟨site, step, rest⟩ := Option.bind_eq_some_iff.1 move
  have ordered := ordered_next inv.ordered step
  by_cases ready : connections.site.listener = .ready
  swap
  · simp [Site.next, ready] at step
  simp only [Site.next, if_pos ready] at step
  obtain ⟨connection, listening⟩ := inv.held_some (by simp [Site.held, ready])
  split at step
  · cases step
    simp only [reduceCtorEq, if_false, Option.some.injEq] at rest
    subst rest
    refine moved_keeps inv ordered rfl rfl ?_ inv.serving rfl rfl rfl ?_ trivial
    · simp only [List.length_append, listening, Option.toList_some, List.length_singleton, inv.queued]
    · simp only [active, listening, Option.toList_none, Option.toList_some, List.nil_append]
      exact (List.perm_append_comm).append_right _
  · cases step
    simp only [if_true, Option.some.injEq] at rest
    subst rest
    refine moved_keeps inv ordered rfl ?_ inv.queued inv.serving rfl rfl rfl (.refl _) trivial
    rw [listening]
    rfl

theorem take_keeps (inv : connections.Inv) {worker : Nat} (move : connections.next (.take, worker) = some connections') :
    connections.Keeps (.take, worker) connections' := by
  obtain ⟨site, step, rest⟩ := Option.bind_eq_some_iff.1 move
  have ordered := ordered_next inv.ordered step
  simp only [Site.next] at step
  split at step
  · next room =>
    cases step
    cases rest
    cases queue : connections.queue with
    | nil =>
      have none := inv.queued
      rw [queue, List.length_nil] at none
      omega
    | cons connection later =>
      have queued := inv.queued
      rw [queue, List.length_cons] at queued
      refine moved_keeps inv ordered rfl inv.listening ?_ ?_ rfl rfl rfl ?_ trivial
      · simp only [List.tail_cons]
        omega
      · simp only [List.head?_cons, Option.toList_some, List.length_append, List.length_singleton, inv.serving]
      · simp only [active, queue, List.tail_cons, List.head?_cons, Option.toList_some]
        rw [List.append_assoc, List.append_assoc]
        refine List.Perm.append_left _ ?_
        rw [← List.append_assoc]
        exact List.perm_append_singleton _ _
  · cases step

theorem released_keeps (inv : connections.Inv) {connection : Nat} {listening : Option Nat} {queue serving : List Nat}
    {site : Site} (ordered : site.Ordered) (server : site.server = connections.site.server.releaseConnection)
    (held : listening.toList.length = site.held) (queued : queue.length = site.queued)
    (served : serving.length = site.serving)
    (gone : connections.active.Perm (connection :: (listening.toList ++ queue ++ serving)))
    (exempt : connections.ReleasesLast turn ↔ connections.activeSockets.getLast? = some connection) :
    connections.Keeps turn
      { releaseConnection connections [connection] with site, listening, queue, serving } where
  inv :=
    { ordered
      listening := held
      queued := queued
      serving := served
      counted := by
        have counted := inv.counted
        rw [gone.length_eq, List.length_cons] at counted
        change site.server.activeConnections = (listening.toList ++ queue ++ serving).length
        rw [server, ServerState.releaseConnection, counted, Nat.add_sub_cancel]
      limit := by
        have limit := inv.limit
        rw [server]
        exact (Nat.sub_le _ 1).trans limit
      once := fun id => by
        have once := inv.once id
        rw [gone.count_eq, List.count_cons] at once
        change (listening.toList ++ queue ++ serving).count id + (connections.released ++ [connection]).count id =
          if id < connections.admitted then 1 else 0
        have log : (connections.released ++ [connection]).count id = connections.released.count id + [connection].count id :=
          List.count_append
        rw [← once, log, List.count_cons, List.count_nil]
        omega
      idle := fun stopped notStopping => by
        rw [server] at stopped notStopping ⊢
        have idle := inv.idle stopped notStopping
        change connections.site.server.activeConnections - 1 = 0
        omega }
  sockets same := by
    rw [exempt]
    exact dropLast_perm_iff (same.trans gone)

theorem refuse_keeps (inv : connections.Inv) {worker : Nat} (move : connections.next (.refuse, worker) = some connections') :
    connections.Keeps (.refuse, worker) connections' := by
  obtain ⟨site, step, rest⟩ := Option.bind_eq_some_iff.1 move
  have ordered := ordered_next inv.ordered step
  by_cases refusing : connections.site.listener = .refusing
  swap
  · simp [Site.next, refusing] at step
  simp only [Site.next, if_pos refusing] at step
  obtain ⟨connection, listening⟩ := inv.held_some (by simp [Site.held, refusing])
  cases step
  simp only [listening, Option.toList_some, Option.some.injEq] at rest
  subst rest
  refine released_keeps inv ordered rfl rfl inv.queued inv.serving ?_ ?_
  · simp only [active, listening]
    exact .refl _
  · simp only [ReleasesLast, listening]

theorem release_keeps (inv : connections.Inv) {worker : Nat} (move : connections.next (.release, worker) = some connections') :
    connections.Keeps (.release, worker) connections' := by
  obtain ⟨site, step, rest⟩ := Option.bind_eq_some_iff.1 move
  have ordered := ordered_next inv.ordered step
  simp only [Site.next] at step
  split at step
  · cases step
    by_cases member : worker ∈ connections.serving
    · simp only [if_pos member, Option.some.injEq] at rest
      subst rest
      refine released_keeps inv ordered rfl inv.listening inv.queued ?_ ?_ .rfl
      · exact (List.length_erase_of_mem member).trans (congrArg (· - 1) inv.serving)
      · exact ((List.perm_cons_erase member).append_left _).trans List.perm_middle
    · simp only [if_neg member] at rest
      cases rest
  · cases step

theorem start_keeps (inv : connections.Inv) {options : ServerOptions} {limiter : RateLimiter} {worker : Nat} {site : Site}
    (step : connections.site.next (.startWithOptions options limiter) = some site) :
    connections.Keeps (.startWithOptions options limiter, worker) { connections with site } := by
  have ordered := ordered_next inv.ordered step
  simp only [Site.next, ServerState.startWithOptions] at step
  split_ifs at step with stopped running <;> cases step
  · exact quiet_keeps inv ordered ⟨rfl, rfl, rfl, rfl, rfl, .inr (.inr ⟨rfl, rfl⟩)⟩ trivial
  · exact quiet_keeps inv ordered ⟨rfl, rfl, rfl, rfl, rfl, .inr (.inr ⟨rfl, rfl⟩)⟩ trivial
  · simp only [Bool.or_eq_true, not_or, Bool.not_eq_true] at stopped running
    have idle := inv.idle running stopped.2
    refine ⟨⟨ordered, inv.listening, inv.queued, inv.serving, inv.counted, ?_, inv.once, fun started => Bool.noConfusion started⟩,
      fun same => iff_of_true same trivial⟩
    change connections.site.server.activeConnections ≤ options.activeConnections
    rw [idle]
    exact Nat.zero_le _

/-- The steps after which every connection is where it was. -/
def leavesPlaces : Step → Bool
  | .admission _ | .submit | .refuse | .take | .release => false
  | _ => true

theorem next_of_leavesPlaces {step : Step} {worker : Nat} (leaves : leavesPlaces step = true)
    (move : connections.next (step, worker) = some connections') : ∃ site, connections.site.next step = some site ∧
      connections' = { connections with site } ∧ connections.ReleasesLast (step, worker) := by
  obtain ⟨site, moved, rest⟩ := Option.bind_eq_some_iff.1 move
  refine ⟨site, moved, ?_⟩
  cases step <;> first | exact ⟨(Option.some.inj rest).symm, trivial⟩ | cases leaves

theorem next_keeps (inv : connections.Inv) (move : connections.next turn = some connections') :
    connections.Keeps turn connections' := by
  obtain ⟨step, worker⟩ := turn
  by_cases leaves : leavesPlaces step = true
  · obtain ⟨site, moved, rfl, exempt⟩ := next_of_leavesPlaces leaves move
    by_cases starts : ∃ options limiter, step = .startWithOptions options limiter
    · obtain ⟨options, limiter, rfl⟩ := starts
      exact start_keeps inv moved
    · have none : Quiet.ofNone step = true := by
        cases step <;> first | rfl | exact absurd ⟨_, _, rfl⟩ starts | cases leaves
      exact quiet_keeps inv (ordered_next inv.ordered moved) (Quiet.next inv.ordered none moved) exempt
  · cases step with
    | admission tracked => exact admission_keeps inv move
    | submit => exact submit_keeps inv move
    | refuse => exact refuse_keeps inv move
    | take => exact take_keeps inv move
    | release => exact release_keeps inv move
    | _ => exact absurd rfl leaves

/-! ### Runs -/

theorem start_inv (options : ServerOptions) (limiter : RateLimiter) : (start options limiter).Inv :=
  ⟨(Site.newSite_sound options limiter).ordered, rfl, rfl, rfl, rfl, Nat.zero_le _, fun _ => rfl, fun _ _ => rfl⟩

/-- In exactly the runs that always release the connection of the last socket, the accounts are right in every state. -/
theorem accounted_iff {options : ServerOptions} {limiter : RateLimiter} {turns : List (Step × Nat)}
    (run : (turns.foldlM next (start options limiter)).isSome) :
    (∀ connections, System.Visits next (start options limiter) turns connections → connections.Accounted) ↔
      ∀ connections turn, System.Takes next (start options limiter) turns connections turn → connections.ReleasesLast turn := by
  have step : ∀ (connections : Connections) (turn : Step × Nat) (connections' : Connections), connections.Inv →
      connections.Accounted → next connections turn = some connections' →
        (connections'.Accounted ↔ connections.ReleasesLast turn) ∧ (connections.ReleasesLast turn → connections'.Inv) := by
    intro connections turn connections' inv accounted move
    have keeps := next_keeps inv move
    exact ⟨keeps.inv.accounts_iff.trans (keeps.sockets accounted.sockets), fun _ => keeps.inv⟩
  exact System.visits_iff_takes step (start_inv options limiter) ((start_inv options limiter).accounts_iff.2 (.refl _)) run

def twoConnections : ServerOptions := { oneConnection with activeConnections := 2, pendingWork := 2 }

def serveTwo (ends : Nat) : List (Step × Nat) :=
  ([.startWithOptions twoConnections unlimited, .installWorkerPool (some 2), .spawnListener, .installListener, .look,
    .accept .stream, .admission true, .httpRuntime, .submit, .take, .look, .accept .stream, .admission true,
    .httpRuntime, .submit, .take].map (·, 0)) ++ [(.release, ends)]

theorem accounted_iff_serveTwo :
    (∀ connections, System.Visits next (start twoConnections unlimited) (serveTwo 1) connections → connections.Accounted) ↔
      ∀ connections turn, System.Takes next (start twoConnections unlimited) (serveTwo 1) connections turn →
        connections.ReleasesLast turn :=
  accounted_iff rfl

/-- The first connection ends first, and the socket of the second is forgotten. -/
theorem not_accounted : ¬∀ options limiter turns connections,
    System.Visits next (start options limiter) turns connections → connections.Accounted := by
  intro all
  obtain ⟨connections, run, sockets, active⟩ : ∃ connections,
      (serveTwo 0).foldlM next (start twoConnections unlimited) = some connections ∧ connections.cancelConnections = [0] ∧
        connections.active = [1] := ⟨_, rfl, rfl, rfl⟩
  have stops := (all twoConnections unlimited (serveTwo 0) connections ⟨_, List.prefix_refl _, run⟩).stops 1
  rw [sockets, active] at stops
  exact absurd stops (by decide)

end Connections

end BasicNext.Web
