import BasicNext.Web.RouteDispatch
import BasicNext.Web.ServerState
import BasicNext.Web.StaticFiles

/-!
# The service of a request

`route_response` of the web server: the checks of a request, its dispatch, then the handler on the queue
or in its turn, a static file, or a plain status. What the handler, the clock and the threads of
the queue do is given by a schedule; sessions, the headers of a static file and those of the handler's
response are left out. A request that is refused should be answered `429` or `503`, and a file should
be served only where no route matches.
-/

namespace BasicNext.Web

open Lib Lib.UnixPath

/-! ### Requests and answers -/

inductive Body where
  /-- The length, and the text when it is UTF-8. -/
  | collected (length : Nat) (text : Option String)
  | failed
  | timedOut

structure Request where
  method : String
  target : Target
  /-- The path and the query as the client spelled them. -/
  rawTarget : String
  /-- `effective_client_address` -/
  clientAddress : String
  ifNoneMatch : Option String
  /-- The instant that `parse_http_date` reads in `If-Modified-Since`. -/
  ifModifiedSince : Option Nat

/-- A request as the transport hands it over. -/
structure Incoming where
  headerFields : Nat
  headerBytes : Nat
  targetBytes : Nat
  body : Body
  headersAreText : Bool
  hasPeer : Bool
  /-- `Request::new` -/
  request : Option Request

structure Answer where
  status : Nat
  body : List UInt8
  allow : Option String := none
  retryAfter : Option Nat := none
deriving DecidableEq, Repr

def text (body : String) : List UInt8 := body.toUTF8.data.toList

def response (status : Nat) (body : String) : Answer := { status, body := text body }

def responseWithAllow (status : Nat) (body : String) (allow : Option String) : Answer :=
  { status, body := text body, allow }

def responseWithRetryAfter (status : Nat) (body : String) (retryAfter : Nat) : Answer :=
  { status, body := text body, retryAfter := some retryAfter }

/-- The checks before the dispatch. -/
def Incoming.accept (incoming : Incoming) (options : ServerOptions) : Except Answer Request :=
  if incoming.headerFields > options.maxHeaderFields || incoming.headerBytes > options.maxHeaderBytes
      || incoming.targetBytes > options.maxTargetBytes then
    .error (response 431 "request headers or target exceed configured bounds")
  else
    match incoming.body with
    | .failed => .error (response 400 "invalid request body")
    | .timedOut => .error (response 408 "request body timed out")
    | .collected length text =>
      if length > options.maxBodyBytes then .error (response 413 "request body exceeds 8 MiB")
      else if text.isNone then .error (response 400 "request body is not UTF-8")
      else if !incoming.headersAreText then .error (response 400 "invalid request header")
      else if !incoming.hasPeer then .error (response 400 "peer address unavailable")
      else
        match incoming.request with
        | none => .error (response 400 "invalid request")
        | some request => .ok request

/-! ### Static files -/

inductive FileError where
  | notFound
  | forbidden
  | tooLarge
  | io (message : String)

structure StaticFileContent where
  bytes : List UInt8
  mtimeSecs : Nat

structure FileSystem where
  isDir : Path → Bool
  canonicalize : Path → Except FileError Path
  /-- `StaticFileOpener::read_file` -/
  readFile : Path → Nat → Except FileError StaticFileContent

inductive StaticServeOutcome where
  | ok (etag : String) (body : List UInt8)
  | notModified (etag : String)
  | methodNotAllowed
  | badRequest (message : String)
  | payloadTooLarge
  | notFound
  | forbidden
  | internalError (message : String)

def hexadecimal (n : Nat) : String := String.ofList (Nat.toDigits 16 n)

def etag (content : StaticFileContent) : String :=
  "\"" ++ hexadecimal content.bytes.length ++ "-" ++ hexadecimal content.mtimeSecs ++ "\""

/-- `If-None-Match`, or else `If-Modified-Since`, says that the client has the file. -/
def isFresh (request : Request) (content : StaticFileContent) : Bool :=
  match request.ifNoneMatch with
  | some listed => (listed.splitOn ",").any fun item =>
      item.trimAscii.toString == "*" || item.trimAscii.toString == etag content
  | none => request.ifModifiedSince.any (content.mtimeSecs ≤ ·)

def serveStaticFile (files : FileSystem) (mount : StaticMount) (subpath : String) (request : Request)
    (maxBodyBytes : Nat) : StaticServeOutcome × List Path :=
  if request.method ≠ "GET" && request.method ≠ "HEAD" then (.methodNotAllowed, [])
  else
    match sanitizeSubpath request.rawTarget subpath with
    | .error (.badRequest message) => (.badRequest message, [])
    | .error .notFound => (.notFound, [])
    | .ok sanitized =>
      let candidate := push mount.directory sanitized
      let candidate := if files.isDir candidate then push candidate indexFile else candidate
      match files.canonicalize candidate with
      | .error .notFound => (.notFound, [])
      | .error .forbidden => (.forbidden, [])
      | .error .tooLarge => (.internalError "", [])
      | .error (.io message) => (.internalError message, [])
      | .ok canonical =>
        if !startsWith canonical mount.canonicalRoot then (.notFound, [])
        else
          match files.readFile canonical maxBodyBytes with
          | .error .notFound => (.notFound, [canonical])
          | .error .forbidden => (.forbidden, [canonical])
          | .error .tooLarge => (.payloadTooLarge, [canonical])
          | .error (.io message) => (.internalError message, [canonical])
          | .ok content =>
            if isFresh request content then (.notModified (etag content), [canonical])
            else (.ok (etag content) (if request.method = "HEAD" then [] else content.bytes), [canonical])

/-- The file is served, or the client has it already. -/
def StaticServeOutcome.isServed : StaticServeOutcome → Bool
  | .ok _ _ | .notModified _ => true
  | _ => false

def staticOutcomeToResponse : StaticServeOutcome → Answer
  | .ok _ body => { status := 200, body }
  | .notModified _ => { status := 304, body := [] }
  | .methodNotAllowed => responseWithAllow 405 "method not allowed" (some "GET, HEAD")
  | .badRequest message => response 400 message
  | .payloadTooLarge => response 413 "static file exceeds configured body limit"
  | .notFound => response 404 "not found"
  | .forbidden => response 403 "forbidden"
  | .internalError _ => response 500 "internal server error"

/-! ### Handlers -/

/-- How a handler that was started ends before the deadline, if it does. -/
inductive HandlerEnd where
  /-- With the response as `finish_handler_response` makes it. -/
  | finished (answer : Answer)
  | failed
  | timedOut

/-- What a request that waits for its turn gets. -/
inductive Turn where
  | closed
  | expired
  | taken (ending : HandlerEnd)

/-- What becomes of the task of a request on the queue. -/
inductive QueueRun where
  | refused
  | cancelled
  /-- The deadline passed before the task began. -/
  | expired
  | ran (ending : HandlerEnd)

/-- What the other threads do meanwhile. -/
structure Schedule where
  /-- The pending requests when the handler asks for admission. -/
  pending : Nat
  turn : Turn
  queueRun : QueueRun

/-- What a request leads to: the answer, how many handlers were started, the files opened, and whether a
file was served. -/
structure Service where
  answer : Answer
  handlers : Nat := 0
  files : List Path := []
  isServed : Bool := false
  state : ServerState

def HandlerEnd.service (ending : HandlerEnd) (state : ServerState) : Service :=
  match ending with
  | .finished answer => { answer, handlers := 1, state }
  | .failed =>
    { answer := response 500 "handler failed", handlers := 1
      state := state.recordRequestFailure false false }
  | .timedOut =>
    { answer := response 408 "handler timed out", handlers := 1
      state := state.recordRequestFailure true false }

/-- A handler of a server without a queue; its admission ends with the call. -/
def runSerially (state : ServerState) (turn : Turn) : Service :=
  match state.tryBeginHandler with
  | .error _ =>
    { answer := response 503 "handler queue is full", state := state.recordRequestFailure false false }
  | .ok state =>
    let service : Service :=
      match turn with
      | .closed =>
        { answer := response 503 "server is stopping", state := state.recordRequestFailure false false }
      | .expired =>
        { answer := response 408 "handler timed out", state := state.recordRequestFailure true false }
      | .taken ending => ending.service state
    { service with state := service.state.finishHandler }

def runOnQueue (state : ServerState) (run : QueueRun) : Service :=
  match run with
  | .refused =>
    { answer := response 503 "handler queue is full", state := state.recordRequestFailure false false }
  | .cancelled =>
    { answer := response 503 "handler queue closed"
      state := state.recordRequestFailure false false }
  | .expired =>
    { answer := response 408 "handler timed out", state := state.recordRequestFailure true false }
  | .ran ending => ending.service state

/-! ### The response -/

/-- `route_status` -/
def routeStatus (method : String) : RouteOutcome → Nat × Option String
  | .matched _ _ => (200, none)
  | .methodNotAllowed methods =>
    (if method = "OPTIONS" then 204 else 405, some (", ".intercalate methods))
  | .notFound => (404, none)

/-- The status, the allowed methods, whether a route was matched, and whether the rate was exceeded. -/
structure Dispatched where
  status : Nat
  allow : Option String
  isMatched : Bool
  rateLimited : Bool

def RouteOutcome.isMatched : RouteOutcome → Bool
  | .matched _ _ => true
  | _ => false

def dispatched (method : String) : Except String RouteOutcome → Dispatched
  | .ok outcome =>
    { status := (routeStatus method outcome).1, allow := (routeStatus method outcome).2
      isMatched := outcome.isMatched, rateLimited := false }
  | .error message =>
    if message = "rate limit exceeded" then
      { status := 429, allow := none, isMatched := false, rateLimited := true }
    else { status := 503, allow := none, isMatched := false, rateLimited := false }

/-- Whether the server has a handler, how its threads go on, the clock and the files. -/
structure Surroundings where
  handler : Bool
  schedule : Schedule
  now : Nat
  milliseconds : Nat
  files : FileSystem

def Request.key (request : Request) : String := request.target.path ++ "|" ++ request.clientAddress

def Request.dispatch (request : Request) (state : ServerState) (around : Surroundings) :
    Except String RouteOutcome × ServerState :=
  state.dispatchWithKeyAt request.method request.target.path request.key around.now around.milliseconds

def Dispatched.record (found : Dispatched) (state : ServerState) : ServerState :=
  if found.rateLimited then state.recordRequestFailure false true
  else if found.status = 503 then state.recordRequestFailure false false
  else state

/-- The answer without a handler and without a file. -/
def Dispatched.answer (found : Dispatched) : Answer :=
  if found.rateLimited then responseWithRetryAfter 429 "rate limit exceeded" 1
  else
    let body :=
      if found.status = 404 then "not found"
      else if found.status = 405 then "method not allowed"
      else ""
    responseWithAllow found.status body found.allow

def Request.respondUnmatched (request : Request) (found : Dispatched) (state : ServerState)
    (files : FileSystem) : Service :=
  match state.matchStaticMount request.target.path with
  | some (mount, subpath) =>
    let (outcome, opened) := serveStaticFile files mount subpath request state.options.maxBodyBytes
    { answer := staticOutcomeToResponse outcome, files := opened, isServed := outcome.isServed, state }
  | none => { answer := found.answer, state }

/-- `route_response` from the dispatch on. -/
def Request.respond (request : Request) (state : ServerState) (around : Surroundings) : Service :=
  let (result, state) := request.dispatch state around
  let found := dispatched request.method result
  let state := found.record state
  if found.isMatched && around.handler then
    if state.queue then runOnQueue state around.schedule.queueRun
    else runSerially { state with pending := around.schedule.pending } around.schedule.turn
  else if !found.isMatched then request.respondUnmatched found state around.files
  else { answer := found.answer, state }

def routeResponse (incoming : Incoming) (state : ServerState) (around : Surroundings) : Service :=
  match incoming.accept state.options with
  | .error answer => { answer, state }
  | .ok request => request.respond state around

end BasicNext.Web
