import BasicNext.Lib.SplitOnce
import BasicNext.Web.Egress

/-!
# Client requests

`client_request_with_resolver_and_policy`: a request and the redirects that answer it, each with a URL, a resolution and
a connection of its own. The resolver and the network are a world that may answer differently at every hop; a hop keeps
what was done. Texts are lists of characters.
-/

namespace BasicNext.Web

open Lib

namespace Client

abbrev Text := List Char

/-! ### URLs -/

def http : Text := "http".toList

def https : Text := "https".toList

def schemeEnd : Text := "://".toList

def endsAuthority (ch : Char) : Bool := ch == '/' || ch == '?'

/-- `str::parse::<u16>` -/
def parseU16 (text : Text) : Option Nat :=
  let digits := if text.head? = some '+' then text.tail else text
  if digits = [] ∨ digits.any (fun ch => !ch.isDigit) then none
  else
    let value := digits.foldl (fun value ch => value * 10 + (ch.toNat - '0'.toNat)) 0
    if value < 65536 then some value else none

def parseAuthorityWithDefault (authority : Text) (defaultPort : Nat) : Except String (Text × Nat) :=
  if authority = [] ∨ '@' ∈ authority then .error "invalid URL authority"
  else
    match authority with
    | '[' :: host =>
      if ']' ∈ host then
        let address := host.takeWhile (· ≠ ']')
        match (host.dropWhile (· ≠ ']')).tail with
        | [] => .ok (address, defaultPort)
        | ':' :: port =>
          match parseU16 port with
          | some port => .ok (address, port)
          | none => .error "invalid port"
        | _ => .error "invalid IPv6 authority"
      else .error "invalid IPv6 authority"
    | _ =>
      let (host, port) := (rsplitOnce ':' authority).getD (authority, Nat.toDigits 10 defaultPort)
      if host = [] then .error "invalid URL authority"
      else
        match parseU16 port with
        | some port => .ok (host, port)
        | none => .error "invalid port"

def validateClientUrl (url : Text) : Except String Unit :=
  match splitOnce schemeEnd url with
  | none => .error "URL requires an authority"
  | some (scheme, rest) =>
    if (scheme ≠ http ∧ scheme ≠ https) ∨ rest = [] ∨ '#' ∈ rest then .error "unsupported or ambiguous URL"
    else
      let authority := rest.takeWhile (!endsAuthority ·)
      if authority = [] ∨ '@' ∈ authority ∨ authority.any (fun ch => ch.toNat < 0x21 || ch.toNat == 0x7f) then
        .error "invalid URL authority"
      else .ok ()

/-- The URL of the next hop, from that of the last and its `Location`. -/
def resolveRedirect (base location : Text) : Except String Text :=
  if '#' ∈ location ∨ '\n' ∈ location ∨ '\r' ∈ location then .error "invalid redirect Location"
  else if http ++ schemeEnd <+: location ∨ https ++ schemeEnd <+: location then do
    validateClientUrl location
    return location
  else
    match splitOnce schemeEnd base with
    | none => .error "invalid redirect base"
    | some (scheme, rest) => do
      let authority := rest.takeWhile (!endsAuthority ·)
      let basePath := (rest.dropWhile (!endsAuthority ·)).takeWhile (· ≠ '?')
      let path :=
        if location.head? = some '/' then location
        else if location.head? = some '?' then basePath ++ location
        else ((rsplitOnce '/' basePath).map (·.1)).getD ['/'] ++ '/' :: location
      let resolved := scheme ++ (schemeEnd ++ (authority ++ path))
      validateClientUrl resolved
      return resolved

/-- Where a URL leads, by the checks at the head of `client_request_once`. -/
structure Destination where
  scheme : Text
  authority : Text
  target : Text
  host : Text
  port : Nat
deriving DecidableEq, Repr

def destination (url : Text) : Except String Destination :=
  match splitOnce schemeEnd url with
  | none => .error "URL requires an authority"
  | some (scheme, rest) =>
    if scheme ≠ http ∧ scheme ≠ https then .error "unsupported URL scheme"
    else do
      let authority := rest.takeWhile (!endsAuthority ·)
      let target := rest.dropWhile (!endsAuthority ·)
      let (host, port) ← parseAuthorityWithDefault authority (if scheme = https then 443 else 80)
      return { scheme, authority, target := if target = [] then ['/'] else target, host, port }

/-! ### The world -/

structure Response where
  status : Nat
  headers : List (Text × Text)
  body : String
deriving DecidableEq, Repr

/-- What the resolver, the network and the servers do at each hop. -/
structure World where
  resolve (hop : Nat) (host : Text) (port maximum : Nat) : Except String (List IpAddr)
  /-- One attempt; the attempts of a hop are counted. -/
  connect (hop attempt : Nat) (address : IpAddr) (port : Nat) : Except String Unit
  handshake (hop : Nat) (serverName : Text) : Except String Unit
  /-- The message is built and the connection is ready. -/
  prepare (hop : Nat) (method authority target : Text) : Except String Unit
  exchange (hop : Nat) (method authority target : Text) (body : String) : Except String Response

/-- What was done at a hop. -/
structure Hop where
  number : Nat
  url : Text
  destination : Destination
  tried : List IpAddr := []
  requested : Bool := false
  response : Option Response := none

def maxBodyBytes : Nat := 8388608

def resolvedAddressesMax : Nat := 16

/-! ### Requests -/

section

variable (world : World) (policy : EgressPolicy)

def resolveValidatedAddresses (hop : Nat) (destination : Destination) : Except String (List IpAddr) := do
  let addresses ← world.resolve hop destination.host destination.port resolvedAddressesMax
  policy.filterAllowedAddresses destination.scheme destination.port addresses

/-- The loop over the addresses: those that were tried, and the last error where none was connected. -/
def connectFirst (hop port : Nat) : Nat → List IpAddr → Option String → List IpAddr × Except String Unit
  | _, [], error => ([], .error (error.getD "failed to connect to allowed destination"))
  | attempt, address :: rest, _ =>
    match world.connect hop attempt address port with
    | .ok () => ([address], .ok ())
    | .error message =>
      let (tried, connected) := connectFirst hop port (attempt + 1) rest (some message)
      (address :: tried, connected)

def performHttpRequest (hop : Hop) (method : Text) (body : String) : Hop × Except String Response :=
  match world.prepare hop.number method hop.destination.authority hop.destination.target with
  | .error message => (hop, .error message)
  | .ok () =>
    let response := world.exchange hop.number method hop.destination.authority hop.destination.target body
    ({ hop with requested := true, response := response.toOption }, response)

def clientRequestOnce (number : Nat) (method url : Text) (body : String) : Option Hop × Except String Response :=
  if body.utf8ByteSize > maxBodyBytes then (none, .error "request body exceeds 8 MiB")
  else
    match Client.destination url with
    | .error message => (none, .error message)
    | .ok destination =>
      let hop : Hop := { number, url, destination }
      match resolveValidatedAddresses world policy number destination with
      | .error message => (some hop, .error message)
      | .ok addresses =>
        if addresses = [] then (some hop, .error "URL resolved to no addresses")
        else
          let (tried, connected) := connectFirst world number destination.port 0 addresses none
          let hop := { hop with tried }
          match connected with
          | .error message => (some hop, .error message)
          | .ok () =>
            if destination.scheme = https then
              match world.handshake number destination.host with
              | .error message => (some hop, .error message)
              | .ok () => (performHttpRequest world hop method body).map some id
            else (performHttpRequest world hop method body).map some id

/-- The `Location` of a response. -/
def location (response : Response) : Option Text :=
  (response.headers.find? fun header => header.1.map Char.toLower == "location".toList).map (·.2)

/-- The loop over the hops. -/
def clientRequestFrom (method : Text) (body : String) : Nat → Nat → Text → List Hop × Except String Response
  | 0, _, _ => ([], .error "redirect limit exceeded")
  | left + 1, number, current =>
    let (hop, outcome) := clientRequestOnce world policy number method current body
    match outcome with
    | .error message => (hop.toList, .error message)
    | .ok response =>
      if ¬(300 ≤ response.status ∧ response.status ≤ 399) then (hop.toList, .ok response)
      else
        match location response with
        | none => (hop.toList, .error "redirect response missing Location")
        | some location =>
          match resolveRedirect current location with
          | .error message => (hop.toList, .error message)
          | .ok next =>
            let (hops, outcome) := clientRequestFrom method body left (number + 1) next
            (hop.toList ++ hops, outcome)

/-- `client_request_with_resolver_and_policy` -/
def clientRequest (method url : Text) (body : String) : List Hop × Except String Response :=
  clientRequestFrom world policy method body (policy.maxRedirects + 1) 0 url

end

end Client

end BasicNext.Web
