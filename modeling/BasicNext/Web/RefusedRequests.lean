import BasicNext.Web.RequestService

/-!
# Refused requests

A request that the dispatch refuses should be answered `429` or `503` without a handler or a file, and a
file should be served only where no route matches. The static mounts are asked whenever no route
was matched, so a refused request, or one whose method no route takes, may still be served a file.
-/

namespace BasicNext.Web

open Lib Lib.UnixPath

variable {incoming : Incoming} {request : Request} {state : ServerState} {around : Surroundings}
  {message : String} {outcome : RouteOutcome}

/-! ### The dispatch -/

theorem dispatchWithKeyAt_kept (state : ServerState) (method path key : String) (now ms : Nat) :
    (state.dispatchWithKeyAt method path key now ms).2.staticMounts = state.staticMounts
      ∧ (state.dispatchWithKeyAt method path key now ms).2.options = state.options := by
  unfold ServerState.dispatchWithKeyAt ServerState.beginRequest
  by_cases refused : (!state.accepts) = true
  · rw [if_pos refused]
    exact ⟨rfl, rfl⟩
  · rw [if_neg refused]
    by_cases full : state.pending ≥ state.options.pendingWork
    · rw [if_pos full]
      exact ⟨rfl, rfl⟩
    · rw [if_neg full]
      dsimp only
      split <;> exact ⟨rfl, rfl⟩

theorem dispatchWithKeyAt_eq_ok {method path key : String} {now ms : Nat}
    (ok : (state.dispatchWithKeyAt method path key now ms).1 = .ok outcome) :
    outcome = dispatchRoute state.routes method path := by
  unfold ServerState.dispatchWithKeyAt ServerState.beginRequest at ok
  by_cases refused : (!state.accepts) = true
  · rw [if_pos refused] at ok
    cases ok
  · rw [if_neg refused] at ok
    by_cases full : state.pending ≥ state.options.pendingWork
    · rw [if_pos full] at ok
      cases ok
    · rw [if_neg full] at ok
      dsimp only at ok
      split at ok <;> cases ok
      rfl

theorem dispatchRoute_matched {routes : List Route} {method path : String} :
    (∃ route parameters, dispatchRoute routes method path = .matched route parameters)
      ↔ Answered routes method path := by
  rw [dispatchRoute, ← not_iff_not, ← routeForRequest_eq_none]
  cases routeForRequest routes method path with
  | some found => simp
  | none =>
    simp only [iff_true, not_exists]
    intro route parameters
    split <;> exact RouteOutcome.noConfusion

theorem dispatched_isMatched {method path : String} {routes : List Route} :
    (dispatched method (.ok (dispatchRoute routes method path))).isMatched = true
      ↔ Answered routes method path := by
  rw [← dispatchRoute_matched]
  change (dispatchRoute routes method path).isMatched = true ↔ _
  cases dispatchRoute routes method path with
  | matched route parameters => exact iff_of_true rfl ⟨route, parameters, rfl⟩
  | _ => exact iff_of_false Bool.false_ne_true (fun ⟨_, _, wrong⟩ => RouteOutcome.noConfusion wrong)

/-! ### Files and handlers -/

theorem staticOutcomeToResponse_status (outcome : StaticServeOutcome) :
    (staticOutcomeToResponse outcome).status ≠ 429 ∧ (staticOutcomeToResponse outcome).status ≠ 503 := by
  cases outcome <;> simp [staticOutcomeToResponse, response, responseWithAllow]

/-- A handler is started at most once, and opens no file. -/
structure HandlerOnly (service : Service) : Prop where
  handlers : service.handlers ≤ 1
  isServed : service.isServed = false

theorem HandlerEnd.service_handlerOnly (ending : HandlerEnd) (state : ServerState) :
    HandlerOnly (ending.service state) := by
  cases ending <;> exact ⟨Nat.le_refl _, rfl⟩

theorem runOnQueue_handlerOnly (state : ServerState) (run : QueueRun) :
    HandlerOnly (runOnQueue state run) := by
  cases run with
  | ran ending => exact ending.service_handlerOnly state
  | _ => exact ⟨Nat.zero_le _, rfl⟩

theorem runSerially_handlerOnly (state : ServerState) (turn : Turn) :
    HandlerOnly (runSerially state turn) := by
  unfold runSerially
  cases state.tryBeginHandler with
  | error message => exact ⟨Nat.zero_le _, rfl⟩
  | ok state =>
    cases turn with
    | taken ending =>
      have only := ending.service_handlerOnly state
      exact ⟨only.handlers, only.isServed⟩
    | _ => exact ⟨Nat.zero_le _, rfl⟩

/-! ### The response -/

theorem record_kept (found : Dispatched) (state : ServerState) :
    (found.record state).staticMounts = state.staticMounts ∧ (found.record state).options = state.options := by
  unfold Dispatched.record
  split
  · exact ⟨rfl, rfl⟩
  · split <;> exact ⟨rfl, rfl⟩

theorem record_dispatch (request : Request) (state : ServerState) (around : Surroundings) (found : Dispatched) :
    (found.record (request.dispatch state around).2).staticMounts = state.staticMounts
      ∧ (found.record (request.dispatch state around).2).options = state.options := by
  rw [(record_kept ..).1, (record_kept ..).2, Request.dispatch, (dispatchWithKeyAt_kept ..).1,
    (dispatchWithKeyAt_kept ..).2]
  exact ⟨rfl, rfl⟩

theorem respond_unmatched (unmatched : (dispatched request.method (request.dispatch state around).1).isMatched = false) :
    request.respond state around
      = request.respondUnmatched (dispatched request.method (request.dispatch state around).1)
          ((dispatched request.method (request.dispatch state around).1).record
            (request.dispatch state around).2) around.files := by
  simp [Request.respond, unmatched]

theorem respond_matched (matched : (dispatched request.method (request.dispatch state around).1).isMatched = true) :
    HandlerOnly (request.respond state around) := by
  simp only [Request.respond, matched, Bool.true_and]
  split
  · split
    · exact runOnQueue_handlerOnly _ _
    · exact runSerially_handlerOnly _ _
  · exact ⟨Nat.zero_le _, rfl⟩

theorem respondUnmatched_some {found : Dispatched} {state' : ServerState} {mount : StaticMount}
    {subpath : String} (mounts : state'.staticMounts = state.staticMounts)
    (options : state'.options = state.options)
    (matching : state.matchStaticMount request.target.path = some (mount, subpath)) :
    (request.respondUnmatched found state' around.files).answer
        = staticOutcomeToResponse
            (serveStaticFile around.files mount subpath request state.options.maxBodyBytes).1
      ∧ (request.respondUnmatched found state' around.files).handlers = 0
      ∧ (request.respondUnmatched found state' around.files).isServed
        = (serveStaticFile around.files mount subpath request state.options.maxBodyBytes).1.isServed := by
  have here : state'.matchStaticMount request.target.path = some (mount, subpath) := by
    rw [← matching, ServerState.matchStaticMount, mounts]
    rfl
  rw [Request.respondUnmatched, here, ← options]
  exact ⟨rfl, rfl, rfl⟩

theorem respondUnmatched_none {found : Dispatched} {state' : ServerState}
    (mounts : state'.staticMounts = state.staticMounts)
    (matching : state.matchStaticMount request.target.path = none) :
    request.respondUnmatched found state' around.files = { answer := found.answer, state := state' } := by
  have here : state'.matchStaticMount request.target.path = none := by
    rw [← matching, ServerState.matchStaticMount, mounts]
    rfl
  simp only [Request.respondUnmatched, here]

/-! ### What a service must do -/

/-- A refused request is answered `429` or `503` and nothing else; another one starts a handler at most
once, for a route, and is served a file only where no route matches. -/
structure Lawful (request : Request) (state : ServerState) (around : Surroundings) (service : Service) :
    Prop where
  refused : ∀ message, (request.dispatch state around).1 = .error message →
    (service.answer.status = 429 ∨ service.answer.status = 503)
      ∧ service.handlers = 0 ∧ service.files = []
  handler : ∀ outcome, (request.dispatch state around).1 = .ok outcome → service.handlers ≤ 1
      ∧ (service.handlers ≠ 0 → Answered state.routes request.method request.target.path)
  file : ∀ outcome, (request.dispatch state around).1 = .ok outcome → service.isServed = true →
    ∀ method route, ¬Serves state.routes method request.target.path route

/-- A mount has a file for a request: the path under it is a clean one, and names a file inside the mount that can be
read within the limit. -/
structure HasFile (files : FileSystem) (mount : StaticMount) (subpath : String) (request : Request)
    (maxBodyBytes : Nat) : Prop where
  method : request.method = "GET" ∨ request.method = "HEAD"
  file : ∃ sanitized canonical content, sanitizeSubpath request.rawTarget subpath = .ok sanitized ∧
    files.canonicalize (if files.isDir (push mount.directory sanitized) then
      push (push mount.directory sanitized) indexFile else push mount.directory sanitized) = .ok canonical ∧
    startsWith canonical mount.canonicalRoot = true ∧ files.readFile canonical maxBodyBytes = .ok content

/-- No static mount matches the path of a refused request, and none has a file for it where only routes of
other methods match. -/
structure Separate (request : Request) (state : ServerState) (around : Surroundings) : Prop where
  refused : ∀ message, (request.dispatch state around).1 = .error message →
    state.matchStaticMount request.target.path = none
  otherMethod : ∀ outcome, (request.dispatch state around).1 = .ok outcome →
    ¬Answered state.routes request.method request.target.path →
    (∃ method route, Serves state.routes method request.target.path route) →
    ∀ mount subpath, state.matchStaticMount request.target.path = some (mount, subpath) →
      ¬HasFile around.files mount subpath request state.options.maxBodyBytes

theorem serveStaticFile_isServed {files : FileSystem} {mount : StaticMount} {subpath : String} {maxBodyBytes : Nat} :
    (serveStaticFile files mount subpath request maxBodyBytes).1.isServed = true ↔
      HasFile files mount subpath request maxBodyBytes := by
  unfold serveStaticFile
  by_cases method : request.method = "GET" ∨ request.method = "HEAD"
  · have readable : (request.method ≠ "GET" && request.method ≠ "HEAD") = false := by
      rcases method with get | head
      · simp [get]
      · simp [head]
    simp only [readable, Bool.false_eq_true, if_false]
    constructor
    · intro served
      refine ⟨method, ?_⟩
      revert served
      cases clean : sanitizeSubpath request.rawTarget subpath with
      | error wrong => cases wrong <;> exact fun served => Bool.noConfusion served
      | ok sanitized =>
        dsimp only
        cases found : files.canonicalize (if files.isDir (push mount.directory sanitized) then
            push (push mount.directory sanitized) indexFile else push mount.directory sanitized) with
        | error wrong => cases wrong <;> exact fun served => Bool.noConfusion served
        | ok canonical =>
          dsimp only
          by_cases inside : startsWith canonical mount.canonicalRoot = true
          · simp only [inside, Bool.not_true, Bool.false_eq_true, if_false]
            cases read : files.readFile canonical maxBodyBytes with
            | error wrong => cases wrong <;> exact fun served => Bool.noConfusion served
            | ok content => exact fun _ => ⟨sanitized, canonical, content, rfl, found, inside, read⟩
          · simp only [inside, Bool.not_false, if_true]
            exact fun served => Bool.noConfusion served
    · rintro ⟨-, sanitized, canonical, content, clean, found, inside, read⟩
      simp only [clean, found, inside, read, Bool.not_true, Bool.false_eq_true, if_false]
      split <;> rfl
  · have unreadable : (request.method ≠ "GET" && request.method ≠ "HEAD") = true := by
      simpa [not_or] using method
    simp only [unreadable, if_true]
    exact iff_of_false Bool.false_ne_true fun has => method has.method

theorem dispatched_error (method message : String) : (dispatched method (.error message)).isMatched = false
      ∧ ((dispatched method (.error message)).answer.status = 429
        ∨ (dispatched method (.error message)).answer.status = 503) := by
  by_cases limited : message = "rate limit exceeded"
  · simp [dispatched, limited, Dispatched.answer, responseWithRetryAfter]
  · simp [dispatched, limited, Dispatched.answer, responseWithAllow]

theorem lawful_of_refused (refused : (request.dispatch state around).1 = .error message) :
    Lawful request state around (request.respond state around) ↔ Separate request state around := by
  obtain ⟨unmatched, status⟩ := dispatched_error request.method message
  rw [← refused] at unmatched status
  obtain ⟨mounts, options⟩ := record_dispatch request state around
    (dispatched request.method (request.dispatch state around).1)
  have accepted : ∀ outcome, (request.dispatch state around).1 ≠ .ok outcome := by
    intro outcome ok
    rw [refused] at ok
    cases ok
  rw [respond_unmatched unmatched]
  cases matching : state.matchStaticMount request.target.path with
  | none =>
    rw [respondUnmatched_none mounts matching]
    refine iff_of_true ⟨fun _ _ => ⟨status, rfl, rfl⟩, ?_, ?_⟩ ⟨fun _ _ => matching, ?_⟩
    all_goals exact fun outcome ok => absurd ok (accepted outcome)
  | some mounted =>
    obtain ⟨mount, subpath⟩ := mounted
    refine iff_of_false (fun lawful => ?_) (fun separate => ?_)
    · have wrong := (lawful.refused message refused).1
      rw [(respondUnmatched_some mounts options matching).1] at wrong
      obtain ⟨notLimited, notUnavailable⟩ := staticOutcomeToResponse_status
        (serveStaticFile around.files mount subpath request state.options.maxBodyBytes).1
      exact wrong.elim notLimited notUnavailable
    · have none := separate.refused message refused
      rw [matching] at none
      cases none

theorem lawful_of_accepted (ok : (request.dispatch state around).1 = .ok outcome) :
    Lawful request state around (request.respond state around) ↔ Separate request state around := by
  have refused : ∀ message, (request.dispatch state around).1 ≠ .error message := by
    intro message error
    rw [ok] at error
    cases error
  obtain ⟨mounts, options⟩ := record_dispatch request state around
    (dispatched request.method (request.dispatch state around).1)
  have isMatched : (dispatched request.method (request.dispatch state around).1).isMatched = true
      ↔ Answered state.routes request.method request.target.path := by
    rw [ok, dispatchWithKeyAt_eq_ok ok]
    exact dispatched_isMatched
  by_cases answered : Answered state.routes request.method request.target.path
  · have only := respond_matched (isMatched.2 answered)
    refine iff_of_true ⟨?_, fun _ _ => ⟨only.handlers, fun _ => answered⟩, fun _ _ served => ?_⟩
      ⟨?_, fun _ _ unanswered => absurd answered unanswered⟩
    · exact fun message error => absurd error (refused message)
    · rw [only.isServed] at served
      cases served
    · exact fun message error => absurd error (refused message)
  · have unmatched := Bool.eq_false_iff.2 fun matched => answered (isMatched.1 matched)
    rw [respond_unmatched unmatched]
    cases matching : state.matchStaticMount request.target.path with
    | none =>
      rw [respondUnmatched_none mounts matching]
      refine iff_of_true ⟨?_, fun _ _ => ⟨Nat.zero_le _, fun started => absurd rfl started⟩,
        fun _ _ served => Bool.noConfusion served⟩ ⟨?_, fun _ _ _ _ mount subpath some => ?_⟩
      · exact fun message error => absurd error (refused message)
      · exact fun message error => absurd error (refused message)
      · rw [matching] at some
        cases some
    | some mounted =>
      obtain ⟨mount, subpath⟩ := mounted
      obtain ⟨-, handlers, isServed⟩ := @respondUnmatched_some request state around
        (dispatched request.method (request.dispatch state around).1) _ mount subpath mounts options matching
      constructor
      · intro lawful
        refine ⟨fun message error => absurd error (refused message), ?_⟩
        rintro _ _ _ ⟨method, route, serves⟩ mount' subpath' same
        rw [matching] at same
        cases same
        intro has
        exact lawful.file outcome ok (isServed.trans (serveStaticFile_isServed.2 has)) method route serves
      · intro separate
        refine ⟨fun message error => absurd error (refused message), fun _ _ => ?_, fun _ _ served => ?_⟩
        · rw [handlers]
          exact ⟨Nat.zero_le _, fun started => absurd rfl started⟩
        · intro method route serves
          rw [isServed] at served
          exact separate.otherMethod outcome ok answered ⟨method, route, serves⟩ mount subpath matching
            (serveStaticFile_isServed.1 served)

/-- For every server, request and surroundings: an accepted request is served lawfully exactly when the
mounts keep apart from it. -/
theorem routeResponse_lawful_iff (incoming : Incoming) (request : Request) (state : ServerState)
    (around : Surroundings) (accepted : incoming.accept state.options = .ok request) :
    Lawful request state around (routeResponse incoming state around)
      ↔ Separate request state around := by
  rw [routeResponse, accepted]
  cases result : (request.dispatch state around).1 with
  | error message => exact lawful_of_refused result
  | ok outcome => exact lawful_of_accepted result

/-! ### A client that has used up its rate -/

/-- One mount, one route, and a bucket without a token. -/
def limitedServer : ServerState :=
  { routes := [⟨"GET", "/api/:id", 0⟩]
    started := true
    options := ⟨8, 8, 8192, 64, 8192, 8192, false⟩
    rateLimiter := ⟨1, 1, 16, [("/assets/a|10.0.0.1", ⟨0, 0⟩)]⟩
    staticMounts := [⟨"/assets", "/srv".toList, "/srv".toList⟩] }

/-- Every file has one byte. -/
def oneFile : Surroundings :=
  { handler := true
    schedule := ⟨0, .closed, .refused⟩
    now := 0
    milliseconds := 0
    files := ⟨fun _ => false, .ok, fun _ _ => .ok ⟨[0x61], 0⟩⟩ }

def getRequest (path : String) : Request := ⟨"GET", ⟨path, ""⟩, path, "10.0.0.1", none, none⟩

def arriving (request : Request) : Incoming := ⟨1, 20, 20, .collected 0 (some ""), true, true, some request⟩

theorem routeResponse_lawful_api : (arriving (getRequest "/api/7")).accept limitedServer.options = .ok (getRequest "/api/7")
      ∧ (Lawful (getRequest "/api/7") limitedServer oneFile
          (routeResponse (arriving (getRequest "/api/7")) limitedServer oneFile)
        ↔ Separate (getRequest "/api/7") limitedServer oneFile) :=
  ⟨rfl, routeResponse_lawful_iff _ _ _ _ rfl⟩

theorem limited_is_served :
    ¬ ∀ (incoming : Incoming) (request : Request) (state : ServerState) (around : Surroundings),
      incoming.accept state.options = .ok request → Lawful request state around (routeResponse incoming state around) := by
  intro all
  have lawful := all (arriving (getRequest "/assets/a")) (getRequest "/assets/a") limitedServer oneFile rfl
  have refused : ((getRequest "/assets/a").dispatch limitedServer oneFile).1
      = .error "rate limit exceeded" := rfl
  have served : (routeResponse (arriving (getRequest "/assets/a")) limitedServer oneFile).answer.status
      = 200 := by decide
  have status := (lawful.refused _ refused).1
  rw [served] at status
  exact absurd status (by decide)

end BasicNext.Web
