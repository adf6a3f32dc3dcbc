import BasicNext.Lib.UnixPath
import BasicNext.Web.Routing
import Mathlib.Data.String.Basic

/-!
# The state of a server

What `web::server` keeps under the lock of a server: whether it accepts, the counters of requests and
connections, the rate limiter, the routes and the static mounts. Instants are nanoseconds.
-/

namespace BasicNext.Web

open Lib Lib.UnixPath

/-! ### Rate limiter -/

structure Bucket where
  tokens : Nat
  /-- The last instant accounted for refill. -/
  updated : Nat
deriving DecidableEq, Repr

structure RateLimiter where
  burst : Nat
  refillPerSecond : Nat
  maxKeys : Nat
  buckets : List (String × Bucket)
deriving DecidableEq, Repr

def u64Max : Nat := 2 ^ 64 - 1

/-- The refill of a bucket at `now`. -/
def RateLimiter.refill (limiter : RateLimiter) (bucket : Bucket) (now : Nat) : Bucket :=
  let elapsedMs := (now - bucket.updated) / 1000000
  let refill := min (elapsedMs * limiter.refillPerSecond / 1000) usizeMax
  { tokens := min (min (bucket.tokens + refill) usizeMax) limiter.burst
    updated :=
      if refill > 0 then bucket.updated + min (refill * 1000 / limiter.refillPerSecond) u64Max * 1000000
      else bucket.updated }

/-- The bucket with the least instant, and among those with the least key. -/
def RateLimiter.victim (limiter : RateLimiter) : Option (String × Bucket) :=
  maxBy (fun entry => OrderDual.toDual (toLex (entry.2.updated, entry.1))) limiter.buckets

/-- `0` when the request may go on. -/
def RateLimiter.allow (limiter : RateLimiter) (key : String) (now : Nat) : RateLimiter × Nat :=
  match limiter.buckets.lookup key with
  | some bucket =>
    let bucket := limiter.refill bucket now
    let others := limiter.buckets.filter (·.1 ≠ key)
    if bucket.tokens > 0 then
      ({ limiter with buckets := (key, { bucket with tokens := bucket.tokens - 1 }) :: others }, 0)
    else ({ limiter with buckets := (key, bucket) :: others }, 1)
  | none =>
    let kept :=
      if limiter.buckets.length ≥ limiter.maxKeys then
        match limiter.victim with
        | some victim => limiter.buckets.filter (·.1 ≠ victim.1)
        | none => limiter.buckets
      else limiter.buckets
    ({ limiter with buckets := (key, ⟨limiter.burst - 1, now⟩) :: kept }, 0)

/-! ### Static mounts -/

structure StaticMount where
  mountPrefix : String
  directory : Path
  canonicalRoot : Path
deriving DecidableEq, Repr

/-- `text.strip_prefix(..)` -/
def stripPrefix (text start : String) : Option String :=
  if start.toList.isPrefixOf text.toList then some (String.ofList (text.toList.drop start.toList.length))
  else none

def StaticMount.matchPath (mount : StaticMount) (path : String) : Option String :=
  if mount.mountPrefix = "/" then some ((stripPrefix path "/").getD path)
  else if path = mount.mountPrefix then some ""
  else stripPrefix path (mount.mountPrefix ++ "/")

/-! ### The state -/

structure ServerOptions where
  activeConnections : Nat
  pendingWork : Nat
  maxHeaderBytes : Nat
  maxHeaderFields : Nat
  maxTargetBytes : Nat
  maxBodyBytes : Nat
  trustedProxy : Bool
deriving DecidableEq, Repr

structure ServerStats where
  accepted : Nat := 0
  active : Nat := 0
  rejected : Nat := 0
  timedOut : Nat := 0
  completed : Nat := 0
  failed : Nat := 0
  rateLimited : Nat := 0
  durationTotalMs : Nat := 0
  durationMaxMs : Nat := 0
deriving DecidableEq, Repr

/-- `saturating_add` of a `u64` -/
def saturatingAdd (value amount : Nat) : Nat := min (value + amount) u64Max

def ServerStats.increment (value : Nat) : Nat := saturatingAdd value 1

structure ServerState where
  routes : List Route
  started : Bool := false
  stopping : Bool := false
  closed : Bool := false
  pending : Nat := 0
  activeConnections : Nat := 0
  options : ServerOptions
  rateLimiter : RateLimiter
  stats : ServerStats := {}
  /-- `Server.UseQueue` was called. -/
  queue : Bool := false
  staticMounts : List StaticMount := []
deriving DecidableEq, Repr

namespace ServerState

def accepts (state : ServerState) : Bool := state.started && !state.stopping && !state.closed

def beginRequest (state : ServerState) : Except String Unit × ServerState :=
  if !state.accepts then (.error "server is not accepting requests", state)
  else if state.pending ≥ state.options.pendingWork then
    (.error "server request queue is full",
      { state with stats := { state.stats with rejected := ServerStats.increment state.stats.rejected } })
  else
    (.ok (), { state with
        pending := state.pending + 1
        stats := { state.stats with
          accepted := ServerStats.increment state.stats.accepted
          active := ServerStats.increment state.stats.active } })

def finishRequest (state : ServerState) : ServerState :=
  { state with
    pending := state.pending - 1
    stats := { state.stats with
      active := state.stats.active - 1
      completed := ServerStats.increment state.stats.completed } }

def admitConnection (state : ServerState) : Except String ServerState :=
  if !state.accepts then .error "server is not accepting connections"
  else if state.activeConnections ≥ state.options.activeConnections then
    .error "server connection limit reached"
  else .ok { state with activeConnections := state.activeConnections + 1 }

def releaseConnection (state : ServerState) : ServerState := { state with activeConnections := state.activeConnections - 1 }

def tryBeginHandler (state : ServerState) : Except String ServerState :=
  if state.pending ≥ state.options.pendingWork then .error "server request queue is full"
  else .ok { state with pending := state.pending + 1 }

def finishHandler (state : ServerState) : ServerState := { state with pending := state.pending - 1 }

def recordRequestFailure (state : ServerState) (timedOut rateLimited : Bool) : ServerState :=
  let stats := state.stats
  let stats := if timedOut then { stats with timedOut := ServerStats.increment stats.timedOut } else stats
  { state with
    stats := if !timedOut && !rateLimited then { stats with failed := ServerStats.increment stats.failed } else stats }

def recordDuration (state : ServerState) (milliseconds : Nat) : ServerState :=
  { state with
    stats := { state.stats with
      durationTotalMs := saturatingAdd state.stats.durationTotalMs milliseconds
      durationMaxMs := max state.stats.durationMaxMs milliseconds } }

/-- `dispatch_with_key_at`: the outcome the handler is called with, or the refusal. -/
def dispatchWithKeyAt (state : ServerState) (method path key : String) (now milliseconds : Nat) :
    Except String RouteOutcome × ServerState :=
  match state.beginRequest with
  | (.error message, state) => (.error message, state)
  | (.ok (), state) =>
    let (limiter, allowed) := state.rateLimiter.allow key now
    let state := { state with rateLimiter := limiter }
    if allowed ≠ 0 then
      let state := state.finishRequest
      (.error "rate limit exceeded", { state with
          stats := { state.stats with
            rejected := ServerStats.increment state.stats.rejected
            rateLimited := ServerStats.increment state.stats.rateLimited } })
    else
      (.ok (dispatchRoute state.routes method path), (state.recordDuration milliseconds).finishRequest)

def matchStaticMount (state : ServerState) (path : String) : Option (StaticMount × String) :=
  state.staticMounts.findSome? fun mount => (mount.matchPath path).map (mount, ·)

end ServerState

end BasicNext.Web
