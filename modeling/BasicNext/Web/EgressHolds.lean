import BasicNext.Web.Client
import Mathlib.Data.List.Chain
import Mathlib.Data.List.TakeWhile
import BasicNext.Lib.Except

/-!
# The egress policy holds on every hop

What a client request may do at each of its hops, and exactly when it does no more. Which URLs it visits follows from
the answers of the resolver and of the servers: no address that gets its turn there may belong to a tunnel or translator
and carry a refused IPv4 address, and no https URL may redirect to an http one that gets its request.
-/

namespace BasicNext.Web.Client

open Lib

/-! ### What a request may do -/

/-- A host and a port as an authority spells them. -/
inductive NamesHost (defaultPort : Nat) : Text → Text → Nat → Prop
  | bracketed (host : Text) (inside : ']' ∉ host) : NamesHost defaultPort ('[' :: (host ++ [']'])) host defaultPort
  | bracketedPort (host digits : Text) (port : Nat) (inside : ']' ∉ host) (number : parseU16 digits = some port) :
    NamesHost defaultPort ('[' :: (host ++ ']' :: ':' :: digits)) host port
  | bare (host : Text) (notEmpty : host ≠ []) (noPort : ':' ∉ host) : NamesHost defaultPort host host defaultPort
  | withPort (host digits : Text) (port : Nat) (notEmpty : host ≠ []) (last : ':' ∉ digits)
      (number : parseU16 digits = some port) : NamesHost defaultPort (host ++ ':' :: digits) host port

/-- The URL leads to the destination. -/
structure Leads (url : Text) (destination : Destination) : Prop where
  parts : ∃ rest, url = destination.scheme ++ (schemeEnd ++ (destination.authority ++ rest)) ∧
    ∀ ch ∈ rest.head?, endsAuthority ch = true
  authority : ∀ ch ∈ destination.authority, endsAuthority ch = false
  host : destination.scheme = http ∧ NamesHost 80 destination.authority destination.host destination.port ∨
    destination.scheme = https ∧ NamesHost 443 destination.authority destination.host destination.port

variable (world : World) (policy : EgressPolicy)

/-- A hop that keeps to the policy. -/
structure Hop.Lawful (hop : Hop) : Prop where
  leads : Leads hop.url hop.destination
  resolved : ∀ address ∈ hop.tried, ∃ answer,
    world.resolve hop.number hop.destination.host hop.destination.port resolvedAddressesMax = .ok answer ∧ address ∈ answer
  permitted : hop.tried ≠ [] → policy.Permits hop.destination.scheme hop.destination.port
  accepted : ∀ address ∈ hop.tried, ¬Refused address
  listed : ∀ address ∈ hop.tried, policy.Lists address

/-- The policy holds on every hop. -/
structure Holds (url : Text) (hops : List Hop) : Prop where
  lawful : ∀ hop ∈ hops, hop.Lawful world policy
  bounded : (hops.filter (·.requested)).length ≤ policy.maxRedirects + 1
  secure : https ++ schemeEnd <+: url → ∀ hop ∈ hops, hop.requested = true → hop.destination.scheme = https

/-! ### When it is kept -/

/-- The allowed addresses that the resolver returns, around one of them, where all before it refuse a connection. -/
def Reaches (number : Nat) (destination : Destination) (before : List IpAddr) (address : IpAddr) (after : List IpAddr) : Prop :=
  ∃ answer, world.resolve number destination.host destination.port resolvedAddressesMax = .ok answer ∧
    policy.Permits destination.scheme destination.port ∧
    answer.filter policy.allowsCandidate = before ++ address :: after ∧
    ∀ i (inside : i < before.length), (world.connect number i before[i] destination.port).isOk = false

/-- The address gets its turn. -/
def Attempts (number : Nat) (destination : Destination) (address : IpAddr) : Prop :=
  ∃ before after, Reaches world policy number destination before address after

/-- An address accepts the connection, and the message can be sent. -/
def Sends (method : Text) (number : Nat) (destination : Destination) : Prop :=
  (∃ before address after, Reaches world policy number destination before address after ∧
      (world.connect number before.length address destination.port).isOk = true) ∧
    (destination.scheme = https → (world.handshake number destination.host).isOk = true) ∧
    (world.prepare number method destination.authority destination.target).isOk = true

/-- The request to a URL is sent, and the server redirects it to a place. -/
def Redirected (method : Text) (body : String) (number : Nat) (current place : Text) : Prop :=
  ∃ destination response, Client.destination current = .ok destination ∧ Sends world policy method number destination ∧
    world.exchange number method destination.authority destination.target body = .ok response ∧
    (300 ≤ response.status ∧ response.status ≤ 399) ∧ location response = some place

/-- The URLs that the answers of the world lead to, with the number of the hop. -/
inductive Visits (method url : Text) (body : String) : Nat → Text → Prop
  | first (fits : body.utf8ByteSize ≤ maxBodyBytes) : Visits method url body 0 url
  | next {number : Nat} {current place next : Text} (before : Visits method url body number current)
      (redirects : Redirected world policy method body number current place)
      (resolved : resolveRedirect current place = .ok next) (within : number < policy.maxRedirects) :
      Visits method url body (number + 1) next

/-- No tunnelled refused address gets its turn, and no https URL redirects to an http one that gets its request. -/
structure Careful (method url : Text) (body : String) : Prop where
  tunnels : ∀ number current destination, Visits world policy method url body number current →
    Client.destination current = .ok destination →
      ∀ before address after, Reaches world policy number destination before address after → ¬TunnelsRefused address
  downgrade : https ++ schemeEnd <+: url → ∀ number current place destination,
    Visits world policy method url body number current → https ++ schemeEnd <+: current → number < policy.maxRedirects →
      Redirected world policy method body number current place → http ++ schemeEnd <+: place →
        resolveRedirect current place = .ok place → Client.destination place = .ok destination →
          ¬Sends world policy method (number + 1) destination

/-! ### URLs -/

theorem split_authority (rest : Text) : (∀ ch ∈ (rest.dropWhile (!endsAuthority ·)).head?, endsAuthority ch = true) ∧
      ∀ ch ∈ rest.takeWhile (!endsAuthority ·), endsAuthority ch = false := by
  constructor
  · intro ch head
    have := List.head?_dropWhile_not (!endsAuthority ·) rest
    rw [Option.mem_def.1 head] at this
    simpa using this
  · intro ch member
    simpa using List.mem_takeWhile_imp member

theorem split_close {host : Text} (close : ']' ∈ host) :
    host = host.takeWhile (· ≠ ']') ++ ']' :: (host.dropWhile (· ≠ ']')).tail ∧ ']' ∉ host.takeWhile (· ≠ ']') := by
  constructor
  · induction host with
    | nil => simp at close
    | cons head rest ih =>
      by_cases here : head = ']'
      · simp [here]
      · have later : ']' ∈ rest := by simpa [Ne.symm here] using close
        simp only [List.takeWhile_cons, List.dropWhile_cons, here, ne_eq, not_false_eq_true, decide_true, if_true,
          List.cons_append, List.cons.injEq, true_and]
        exact ih later
  · intro member
    simpa using List.mem_takeWhile_imp member

theorem parseAuthority_names {authority host : Text} {port defaultPort : Nat}
    (digits : parseU16 (Nat.toDigits 10 defaultPort) = some defaultPort)
    (parsed : parseAuthorityWithDefault authority defaultPort = .ok (host, port)) :
    NamesHost defaultPort authority host port := by
  unfold parseAuthorityWithDefault at parsed
  split at parsed
  · cases parsed
  · next notEmpty =>
    split at parsed
    · split at parsed
      · next close =>
        obtain ⟨same, inside⟩ := split_close close
        dsimp only at parsed
        split at parsed
        · next none =>
          cases parsed
          rw [none] at same
          nth_rewrite 1 [same]
          exact .bracketed _ inside
        · next port' suffix =>
          rw [suffix] at same
          split at parsed
          · next number =>
            cases parsed
            nth_rewrite 1 [same]
            exact .bracketedPort _ _ _ inside number
          · cases parsed
        · cases parsed
      · cases parsed
    · rw [not_or] at notEmpty
      cases split : rsplitOnce ':' authority with
      | none =>
        rw [split] at parsed
        simp only [Option.getD_none, notEmpty.1, if_false, digits, Except.ok.injEq, Prod.mk.injEq] at parsed
        obtain ⟨rfl, rfl⟩ := parsed
        exact .bare _ notEmpty.1 (rsplitOnce_none split)
      | some parts =>
        rw [split] at parsed
        obtain ⟨same, last⟩ := rsplitOnce_some split
        dsimp only [Option.getD_some] at parsed
        split at parsed
        · cases parsed
        · next hostNotEmpty =>
          split at parsed
          · next number =>
            cases parsed
            rw [same]
            exact .withPort _ _ _ hostNotEmpty last number
          · cases parsed

theorem destination_ok {url : Text} {destination : Destination} (found : Client.destination url = .ok destination) :
    ∃ rest, splitOnce schemeEnd url = some (destination.scheme, rest) ∧
      (destination.scheme = http ∨ destination.scheme = https) ∧
      destination.authority = rest.takeWhile (!endsAuthority ·) ∧
      parseAuthorityWithDefault destination.authority (if destination.scheme = https then 443 else 80) =
        .ok (destination.host, destination.port) := by
  unfold Client.destination at found
  split at found
  · cases found
  · next scheme rest split =>
    split at found
    · cases found
    · next known =>
      obtain ⟨⟨host, port⟩, parsed, found⟩ := bind_eq_ok.1 found
      obtain rfl := pure_eq_ok.1 found
      exact ⟨rest, split, by tauto, rfl, parsed⟩

theorem destination_leads {url : Text} {destination : Destination} (found : Client.destination url = .ok destination) :
    Leads url destination := by
  obtain ⟨rest, split, known, authority, parsed⟩ := destination_ok found
  obtain ⟨ends, plain⟩ := split_authority rest
  refine ⟨⟨rest.dropWhile (!endsAuthority ·), ?_, ends⟩, ?_, ?_⟩
  · rw [authority, List.takeWhile_append_dropWhile]
    exact splitOnce_some split
  · rw [authority]
    exact plain
  · rcases known with http | https
    · rw [if_neg (by rw [http]; decide)] at parsed
      exact .inl ⟨http, parseAuthority_names (by decide) parsed⟩
    · rw [if_pos https] at parsed
      exact .inr ⟨https, parseAuthority_names (by decide) parsed⟩

theorem splitOnce_scheme {scheme : Text} (known : scheme = http ∨ scheme = https) (rest : Text) :
    splitOnce schemeEnd (scheme ++ (schemeEnd ++ rest)) = some (scheme, rest) := by
  rcases known with rfl | rfl <;> simp [splitOnce, http, https, schemeEnd]

theorem scheme_of_starts {scheme url : Text} {destination : Destination} (known : scheme = http ∨ scheme = https)
    (starts : scheme ++ schemeEnd <+: url) (found : Client.destination url = .ok destination) :
    destination.scheme = scheme := by
  obtain ⟨after, rfl⟩ := starts
  obtain ⟨rest, split, -⟩ := destination_ok found
  rw [List.append_assoc, splitOnce_scheme known] at split
  cases split
  rfl

theorem resolveRedirect_ok {base place next : Text} (ok : resolveRedirect base place = .ok next) :
    (http ++ schemeEnd <+: place ∨ https ++ schemeEnd <+: place) ∧ next = place ∨
      ¬http ++ schemeEnd <+: place ∧ ∃ scheme rest rest', splitOnce schemeEnd base = some (scheme, rest) ∧
        next = scheme ++ (schemeEnd ++ rest') := by
  unfold resolveRedirect at ok
  split at ok
  · cases ok
  · split at ok
    · next absolute =>
      obtain ⟨-, -, ok⟩ := bind_eq_ok.1 ok
      exact .inl ⟨absolute, (pure_eq_ok.1 ok).symm⟩
    · next relative =>
      rw [not_or] at relative
      split at ok
      · cases ok
      · next scheme rest split =>
        obtain ⟨-, -, ok⟩ := bind_eq_ok.1 ok
        exact .inr ⟨relative.1, scheme, rest, _, split, (pure_eq_ok.1 ok).symm⟩

/-! ### One hop -/

section

variable {world policy} {number port : Nat}

theorem connectFirst_cons {attempt : Nat} {address : IpAddr} {rest : List IpAddr} {error : Option String} :
    (world.connect number attempt address port).isOk = true ∧
        connectFirst world number port attempt (address :: rest) error = ([address], .ok ()) ∨
      (world.connect number attempt address port).isOk = false ∧ ∃ message,
        connectFirst world number port attempt (address :: rest) error =
          (address :: (connectFirst world number port (attempt + 1) rest (some message)).1,
            (connectFirst world number port (attempt + 1) rest (some message)).2) := by
  rw [connectFirst]
  cases world.connect number attempt address port with
  | ok => exact .inl ⟨rfl, rfl⟩
  | error message => exact .inr ⟨rfl, message, rfl⟩

theorem refuse_cons {attempt : Nat} {address : IpAddr} {before : List IpAddr} :
    (∀ i (inside : i < (address :: before).length),
        (world.connect number (attempt + i) (address :: before)[i] port).isOk = false) ↔
      (world.connect number attempt address port).isOk = false ∧
        ∀ i (inside : i < before.length), (world.connect number (attempt + 1 + i) before[i] port).isOk = false := by
  constructor
  · intro all
    refine ⟨all 0 (by simp), fun i inside => ?_⟩
    have later := all (i + 1) (by simpa using inside)
    rwa [List.getElem_cons_succ, show attempt + (i + 1) = attempt + 1 + i from by omega] at later
  · rintro ⟨first, later⟩ i inside
    cases i with
    | zero => exact first
    | succ i =>
      rw [List.getElem_cons_succ, show attempt + (i + 1) = attempt + 1 + i from by omega]
      exact later i (by simpa using inside)

theorem mem_connectFirst {attempt : Nat} {addresses : List IpAddr} {error : Option String} {address : IpAddr} :
    address ∈ (connectFirst world number port attempt addresses error).1 ↔
      ∃ before after, addresses = before ++ address :: after ∧
        ∀ i (inside : i < before.length), (world.connect number (attempt + i) before[i] port).isOk = false := by
  induction addresses generalizing attempt error with
  | nil => simp [connectFirst]
  | cons first rest ih =>
    obtain ⟨accepts, eq⟩ | ⟨refuses, message, eq⟩ := @connectFirst_cons world number port attempt first rest error
    · rw [eq]
      constructor
      · intro member
        obtain rfl := List.mem_singleton.1 member
        exact ⟨[], rest, rfl, by simp⟩
      · rintro ⟨before, after, same, refuse⟩
        cases before with
        | nil =>
          cases same
          exact List.mem_singleton_self _
        | cons head before =>
          cases same
          rw [(refuse_cons.1 refuse).1] at accepts
          cases accepts
    · rw [eq, List.mem_cons, ih]
      constructor
      · rintro (rfl | ⟨before, after, rfl, refuse⟩)
        · exact ⟨[], rest, rfl, by simp⟩
        · exact ⟨first :: before, after, rfl, refuse_cons.2 ⟨refuses, refuse⟩⟩
      · rintro ⟨before, after, same, refuse⟩
        cases before with
        | nil =>
          cases same
          exact .inl rfl
        | cons head before =>
          cases same
          exact .inr ⟨before, after, rfl, (refuse_cons.1 refuse).2⟩

theorem connectFirst_isOk {attempt : Nat} {addresses : List IpAddr} {error : Option String} :
    (connectFirst world number port attempt addresses error).2.isOk = true ↔
      ∃ before address after, addresses = before ++ address :: after ∧
        (∀ i (inside : i < before.length), (world.connect number (attempt + i) before[i] port).isOk = false) ∧
        (world.connect number (attempt + before.length) address port).isOk = true := by
  induction addresses generalizing attempt error with
  | nil => simp [connectFirst, Except.isOk, Except.toBool]
  | cons first rest ih =>
    obtain ⟨accepts, eq⟩ | ⟨refuses, message, eq⟩ := @connectFirst_cons world number port attempt first rest error
    · rw [eq]
      exact iff_of_true rfl ⟨[], first, rest, rfl, by simp, accepts⟩
    · rw [eq, ih]
      constructor
      · rintro ⟨before, address, after, rfl, refuse, accepts⟩
        refine ⟨first :: before, address, after, rfl, refuse_cons.2 ⟨refuses, refuse⟩, ?_⟩
        rwa [List.length_cons, show attempt + (before.length + 1) = attempt + 1 + before.length from by omega]
      · rintro ⟨before, address, after, same, refuse, accepts⟩
        cases before with
        | nil =>
          cases same
          rw [List.length_nil, Nat.add_zero, refuses] at accepts
          cases accepts
        | cons head before =>
          cases same
          refine ⟨before, address, after, rfl, (refuse_cons.1 refuse).2, ?_⟩
          rwa [List.length_cons, show attempt + (before.length + 1) = attempt + 1 + before.length from by omega] at accepts

end

/-- What is known of a hop of a run. -/
structure Hop.Made (method : Text) (hop : Hop) : Prop where
  destination : Client.destination hop.url = .ok hop.destination
  tried : ∀ address, address ∈ hop.tried ↔ Attempts world policy hop.number hop.destination address
  requested : hop.requested = true ↔ Sends world policy method hop.number hop.destination

section

variable {world policy} {number : Nat} {destination : Destination}

theorem reaches_iff {before after : List IpAddr} {address : IpAddr} :
    Reaches world policy number destination before address after ↔
      resolveValidatedAddresses world policy number destination = .ok (before ++ address :: after) ∧
        ∀ i (inside : i < before.length), (world.connect number i before[i] destination.port).isOk = false := by
  unfold Reaches resolveValidatedAddresses
  constructor
  · rintro ⟨answer, resolved, permitted, allowed, refuse⟩
    refine ⟨bind_eq_ok.2 ⟨answer, resolved, ?_⟩, refuse⟩
    exact policy.filterAllowedAddresses_ok.2 ⟨permitted, allowed.symm, by simp⟩
  · rintro ⟨ok, refuse⟩
    obtain ⟨answer, resolved, filtered⟩ := bind_eq_ok.1 ok
    obtain ⟨permitted, allowed, -⟩ := policy.filterAllowedAddresses_ok.1 filtered
    exact ⟨answer, resolved, permitted, allowed.symm, refuse⟩

theorem attempts_iff {addresses : List IpAddr} (ok : resolveValidatedAddresses world policy number destination = .ok addresses)
    {address : IpAddr} :
    Attempts world policy number destination address ↔
      address ∈ (connectFirst world number destination.port 0 addresses none).1 := by
  simp only [Attempts, reaches_iff, ok, mem_connectFirst, Nat.zero_add, Except.ok.injEq]

theorem accepts_iff {addresses : List IpAddr} (ok : resolveValidatedAddresses world policy number destination = .ok addresses) :
    (∃ before address after, Reaches world policy number destination before address after ∧
        (world.connect number before.length address destination.port).isOk = true) ↔
      (connectFirst world number destination.port 0 addresses none).2.isOk = true := by
  simp only [reaches_iff, ok, connectFirst_isOk, Nat.zero_add, Except.ok.injEq, and_assoc]

theorem not_reaches {message : String} (error : resolveValidatedAddresses world policy number destination = .error message)
    {before after : List IpAddr} {address : IpAddr} : ¬Reaches world policy number destination before address after := by
  rw [reaches_iff, error]
  rintro ⟨⟨⟩, -⟩

theorem filtered_ne_nil {addresses : List IpAddr}
    (ok : resolveValidatedAddresses world policy number destination = .ok addresses) : addresses ≠ [] := by
  obtain ⟨answer, -, filtered⟩ := bind_eq_ok.1 ok
  exact (policy.filterAllowedAddresses_ok.1 filtered).2.2

variable {method : Text} {body : String}

theorem performHttpRequest_cases (hop : Hop) :
    (world.prepare hop.number method hop.destination.authority hop.destination.target).isOk = true ∧
        (∃ response : Except String Response,
          world.exchange hop.number method hop.destination.authority hop.destination.target body = response ∧
            performHttpRequest world hop method body =
              ({ hop with requested := true, response := response.toOption }, response)) ∨
      (world.prepare hop.number method hop.destination.authority hop.destination.target).isOk = false ∧
        ∃ message, performHttpRequest world hop method body = (hop, .error message) := by
  unfold performHttpRequest
  cases world.prepare hop.number method hop.destination.authority hop.destination.target with
  | ok => exact .inl ⟨rfl, _, rfl, rfl⟩
  | error message => exact .inr ⟨rfl, message, rfl⟩

/-- A hop and what comes out of it. -/
structure Ends (world : World) (policy : EgressPolicy) (method url : Text) (body : String) (number : Nat) (hop : Hop)
    (outcome : Except String Response) : Prop where
  made : hop.Made world policy method
  number : hop.number = number
  url : hop.url = url
  response : ∀ response, outcome = .ok response → hop.requested = true ∧ hop.response = some response
  answered : hop.requested = true →
    world.exchange hop.number method hop.destination.authority hop.destination.target body = outcome

theorem Ends.of_error {url : Text} {tried : List IpAddr} {message : String} (found : Client.destination url = .ok destination)
    (attempts : ∀ address, address ∈ tried ↔ Attempts world policy number destination address)
    (silent : ¬Sends world policy method number destination) :
    Ends world policy method url body number { number, url, destination, tried } (.error message) where
  made := ⟨found, attempts, iff_of_false (by simp) silent⟩
  number := rfl
  url := rfl
  response response ok := by cases ok
  answered requested := by cases requested

theorem performHttpRequest_ends {url : Text} {tried : List IpAddr} (found : Client.destination url = .ok destination)
    (attempts : ∀ address, address ∈ tried ↔ Attempts world policy number destination address)
    (accepts : ∃ before address after, Reaches world policy number destination before address after ∧
      (world.connect number before.length address destination.port).isOk = true)
    (secured : destination.scheme = https → (world.handshake number destination.host).isOk = true) :
    ∃ hop, (performHttpRequest world { number, url, destination, tried } method body).map some id =
        (some hop, (performHttpRequest world { number, url, destination, tried } method body).2) ∧
      Ends world policy method url body number hop
        (performHttpRequest world { number, url, destination, tried } method body).2 := by
  obtain ⟨prepared, response, exchanged, eq⟩ | ⟨unprepared, message, eq⟩ :=
    @performHttpRequest_cases world method body { number, url, destination, tried }
  · rw [eq]
    refine ⟨_, rfl, ⟨found, attempts, iff_of_true rfl ⟨accepts, secured, prepared⟩⟩, rfl, rfl, fun answer ok => ?_,
      fun _ => exchanged⟩
    obtain rfl : response = .ok answer := ok
    exact ⟨rfl, rfl⟩
  · rw [eq]
    refine ⟨_, rfl, .of_error found attempts fun sends => ?_⟩
    rw [sends.2.2] at unprepared
    cases unprepared

theorem clientRequestOnce_ends (number : Nat) (method url : Text) (body : String) :
    (∃ message, clientRequestOnce world policy number method url body = (none, .error message)) ∧
        (body.utf8ByteSize ≤ maxBodyBytes → ∀ destination, Client.destination url ≠ .ok destination) ∨
      ∃ hop outcome, clientRequestOnce world policy number method url body = (some hop, outcome) ∧
        body.utf8ByteSize ≤ maxBodyBytes ∧ Ends world policy method url body number hop outcome := by
  unfold clientRequestOnce
  split
  · next large => exact .inl ⟨⟨_, rfl⟩, fun fits => absurd fits (by omega)⟩
  · next fits =>
    rw [Nat.not_lt] at fits
    cases found : Client.destination url with
    | error message => exact .inl ⟨⟨message, rfl⟩, fun _ _ ok => by cases ok⟩
    | ok destination =>
      refine .inr ?_
      dsimp only
      cases resolved : resolveValidatedAddresses world policy number destination with
      | error message =>
        refine ⟨_, _, rfl, fits, .of_error found (fun address => ?_) fun sends => ?_⟩
        · refine iff_of_false (by simp) ?_
          rintro ⟨before, after, reaches⟩
          exact not_reaches resolved reaches
        · obtain ⟨⟨before, address, after, reaches, -⟩, -⟩ := sends
          exact not_reaches resolved reaches
      | ok addresses =>
        have attempts (address : IpAddr) := (@attempts_iff world policy number destination addresses resolved address).symm
        have accepts := accepts_iff resolved
        dsimp only
        rw [if_neg (filtered_ne_nil resolved)]
        generalize connectFirst world number destination.port 0 addresses none = connection at attempts accepts
        obtain ⟨tried, connected⟩ := connection
        cases connected with
        | error message =>
          refine ⟨_, _, rfl, fits, .of_error found attempts fun sends => ?_⟩
          cases accepts.1 sends.1
        | ok =>
          dsimp only
          split
          · next secure =>
            cases handshake : world.handshake number destination.host with
            | error message =>
              refine ⟨_, _, rfl, fits, .of_error found attempts fun sends => ?_⟩
              have secured := sends.2.1 secure
              rw [handshake] at secured
              cases secured
            | ok =>
              obtain ⟨hop, eq, ends⟩ := @performHttpRequest_ends world policy number destination method body url tried found
                attempts (accepts.2 rfl) fun _ => by rw [handshake]; rfl
              exact ⟨hop, _, eq, fits, ends⟩
          · next plain =>
            obtain ⟨hop, eq, ends⟩ := @performHttpRequest_ends world policy number destination method body url tried found
              attempts (accepts.2 rfl) fun secure => absurd secure plain
            exact ⟨hop, _, eq, fits, ends⟩

end

/-! ### The run -/

/-- A hop follows another when it is where the other's response redirects to. -/
def Follows (hop next : Hop) : Prop :=
  hop.requested = true ∧ ∃ place, hop.response.bind location = some place ∧ resolveRedirect hop.url place = .ok next.url

section

variable {world policy} {method : Text} {body : String}

theorem clientRequestFrom_hops (left number : Nat) (current : Text) :
    (clientRequestFrom world policy method body left number current).1.length ≤ left ∧
      (∀ hop ∈ (clientRequestFrom world policy method body left number current).1, hop.Made world policy method) ∧
      (∀ hop ∈ (clientRequestFrom world policy method body left number current).1.head?, hop.url = current) ∧
      (clientRequestFrom world policy method body left number current).1.IsChain Follows := by
  induction left generalizing number current with
  | zero => simp [clientRequestFrom]
  | succ left ih =>
    rw [clientRequestFrom]
    obtain ⟨⟨message, eq⟩, -⟩ | ⟨hop, outcome, eq, -, ends⟩ := @clientRequestOnce_ends world policy
      number method current body
    · simp [eq]
    · have single : [hop].length ≤ left + 1 ∧ (∀ hop' ∈ [hop], hop'.Made world policy method) ∧
          (∀ hop' ∈ [hop].head?, hop'.url = current) ∧ [hop].IsChain Follows := by
        simp [ends.made, ends.url]
      rw [eq]
      cases outcome with
      | error message => exact single
      | ok response =>
        obtain ⟨requested, kept⟩ := ends.response response rfl
        dsimp only
        split
        · exact single
        · cases found : location response with
          | none => exact single
          | some place =>
            dsimp only
            cases redirect : resolveRedirect current place with
            | error message => exact single
            | ok next =>
              obtain ⟨bounded, made, head, chain⟩ := ih (number + 1) next
              refine ⟨by simpa using bounded, ?_, by simp [ends.url], ?_⟩
              · intro hop' member
                rcases List.mem_cons.1 member with rfl | later
                · exact ends.made
                · exact made hop' later
              · refine chain.cons fun after first => ⟨requested, place, ?_, ?_⟩
                · rw [kept]
                  exact found
                · rw [ends.url, head after first]
                  exact redirect

/-- The hops of a request are a chain of redirects from its URL on, within the limit of the policy. -/
theorem clientRequest_redirects (world : World) (policy : EgressPolicy) (method url : Text) (body : String) :
    (clientRequest world policy method url body).1.length ≤ policy.maxRedirects + 1 ∧
      (∀ hop ∈ (clientRequest world policy method url body).1.head?, hop.url = url) ∧
      (clientRequest world policy method url body).1.IsChain Follows :=
  let ⟨bounded, _, first, chain⟩ := clientRequestFrom_hops (policy.maxRedirects + 1) 0 url
  ⟨bounded, first, chain⟩

theorem Hop.Made.lawful_iff {hop : Hop} (made : hop.Made world policy method) :
    hop.Lawful world policy ↔
      ∀ address, Attempts world policy hop.number hop.destination address → ¬TunnelsRefused address := by
  constructor
  · intro lawful address attempts tunnels
    exact lawful.accepted address ((made.tried address).2 attempts) ((refused_iff address).2 (.inr tunnels))
  · intro careful
    have attempted (address : IpAddr) (tried : address ∈ hop.tried) : ∃ answer,
        world.resolve hop.number hop.destination.host hop.destination.port resolvedAddressesMax = .ok answer ∧
          policy.Permits hop.destination.scheme hop.destination.port ∧ address ∈ answer.filter policy.allowsCandidate := by
      obtain ⟨before, after, answer, resolved, permitted, allowed, -⟩ := (made.tried address).1 tried
      exact ⟨answer, resolved, permitted, by rw [allowed]; simp⟩
    have allows (address : IpAddr) (tried : address ∈ hop.tried) : isSensitive address = false ∧ policy.Lists address := by
      obtain ⟨answer, -, -, member⟩ := attempted address tried
      exact (policy.allowsCandidate_iff address).1 (List.mem_filter.1 member).2
    refine ⟨destination_leads made.destination, fun address tried => ?_, fun some => ?_, fun address tried refused => ?_,
      fun address tried => (allows address tried).2⟩
    · obtain ⟨answer, resolved, -, member⟩ := attempted address tried
      exact ⟨answer, resolved, (List.mem_filter.1 member).1⟩
    · obtain ⟨address, tried⟩ := List.exists_mem_of_ne_nil _ some
      obtain ⟨-, -, permitted, -⟩ := attempted address tried
      exact permitted
    · rcases (refused_iff address).1 refused with sensitive | tunnels
      · rw [(allows address tried).1] at sensitive
        cases sensitive
      · exact careful address ((made.tried address).1 tried) tunnels

/-! ### The URLs visited -/

variable {url : Text}

/-- The hop of a URL, and what the loop does after it. -/
theorem clientRequestFrom_succ {number : Nat} {current : Text} {destination : Destination} (left : Nat)
    (fits : body.utf8ByteSize ≤ maxBodyBytes) (found : Client.destination current = .ok destination) :
    ∃ hop later, (clientRequestFrom world policy method body (left + 1) number current).1 = hop :: later ∧
      hop.Made world policy method ∧ hop.number = number ∧ hop.url = current ∧ hop.destination = destination ∧
      ∀ place next, Redirected world policy method body number current place → resolveRedirect current place = .ok next →
        later = (clientRequestFrom world policy method body left (number + 1) next).1 := by
  obtain ⟨-, none⟩ | ⟨hop, outcome, eq, -, ends⟩ := @clientRequestOnce_ends world policy number method current body
  · exact absurd found (none fits destination)
  · have here : hop.destination = destination := by
      have made := ends.made.destination
      rw [ends.url, found, Except.ok.injEq] at made
      exact made.symm
    have redirected (place next : Text) (redirects : Redirected world policy method body number current place)
        (resolved : resolveRedirect current place = .ok next) :
        (clientRequestFrom world policy method body (left + 1) number current).1 =
          hop :: (clientRequestFrom world policy method body left (number + 1) next).1 := by
      obtain ⟨destination', response, found', sends, exchanged, status, located⟩ := redirects
      rw [found, Except.ok.injEq] at found'
      subst found'
      have requested := ends.made.requested.2 (by rwa [ends.number, here])
      have answered := ends.answered requested
      rw [ends.number, here, exchanged] at answered
      subst answered
      rw [clientRequestFrom, eq]
      dsimp only
      rw [if_neg (not_not.2 status), located]
      dsimp only
      rw [resolved]
      rfl
    by_cases some : ∃ place next, Redirected world policy method body number current place ∧
        resolveRedirect current place = .ok next
    · obtain ⟨place, next, redirects, resolved⟩ := some
      refine ⟨hop, _, redirected place next redirects resolved, ends.made, ends.number, ends.url, here, ?_⟩
      intro place' next' redirects' resolved'
      have same := (redirected place next redirects resolved).symm.trans (redirected place' next' redirects' resolved')
      exact (List.cons.inj same).2
    · obtain ⟨later, first⟩ : ∃ later,
          (clientRequestFrom world policy method body (left + 1) number current).1 = hop :: later := by
        rw [clientRequestFrom, eq]
        dsimp only
        (repeat' split) <;> exact ⟨_, rfl⟩
      exact ⟨hop, later, first, ends.made, ends.number, ends.url, here, fun place next redirects resolved =>
        absurd ⟨place, next, redirects, resolved⟩ some⟩

theorem Visits.fits {number : Nat} {current : Text} (visits : Visits world policy method url body number current) :
    body.utf8ByteSize ≤ maxBodyBytes := by
  induction visits with
  | first fits => exact fits
  | next _ _ _ _ ih => exact ih

/-- The run comes to every URL visited, with the redirects that are left. -/
theorem Visits.comes {number : Nat} {current : Text} (visits : Visits world policy method url body number current) :
    number ≤ policy.maxRedirects ∧ ∃ before, (clientRequest world policy method url body).1 =
      before ++ (clientRequestFrom world policy method body (policy.maxRedirects - number + 1) number current).1 := by
  induction visits with
  | first _ => exact ⟨Nat.zero_le _, [], rfl⟩
  | @next number current place next visited redirects resolved within ih =>
    refine ⟨within, ?_⟩
    obtain ⟨-, before, run⟩ := ih
    have found := redirects
    obtain ⟨destination, -, found, -⟩ := found
    have left : policy.maxRedirects - number + 1 = policy.maxRedirects - (number + 1) + 1 + 1 := by omega
    rw [left] at run
    obtain ⟨hop, later, first, -, -, -, -, goes⟩ := clientRequestFrom_succ
      (policy.maxRedirects - (number + 1) + 1) visited.fits found
    rw [first, goes place next redirects resolved] at run
    exact ⟨before ++ [hop], by rw [run, List.append_assoc]; rfl⟩

/-- A URL that is visited and leads somewhere has a hop. -/
theorem Visits.hop {number : Nat} {current : Text} {destination : Destination}
    (visits : Visits world policy method url body number current) (found : Client.destination current = .ok destination) :
    ∃ hop ∈ (clientRequest world policy method url body).1, hop.Made world policy method ∧ hop.number = number ∧
      hop.url = current ∧ hop.destination = destination := by
  obtain ⟨-, before, run⟩ := visits.comes
  obtain ⟨hop, later, first, made, number, url, destination, -⟩ := clientRequestFrom_succ
    (policy.maxRedirects - number) visits.fits found
  refine ⟨hop, ?_, made, number, url, destination⟩
  rw [run, first]
  simp

/-- Every hop is at a URL visited. -/
theorem visits_of_mem {left number : Nat} {current : Text} (room : number + left = policy.maxRedirects + 1)
    (visits : body.utf8ByteSize ≤ maxBodyBytes → Visits world policy method url body number current) :
    ∀ hop ∈ (clientRequestFrom world policy method body left number current).1,
      Visits world policy method url body hop.number hop.url := by
  induction left generalizing number current with
  | zero => simp [clientRequestFrom]
  | succ left ih =>
    rw [clientRequestFrom]
    obtain ⟨⟨message, eq⟩, -⟩ | ⟨hop, outcome, eq, fits, ends⟩ := @clientRequestOnce_ends world policy
      number method current body
    · simp [eq]
    · have here : Visits world policy method url body hop.number hop.url := by
        rw [ends.number, ends.url]
        exact visits fits
      have single : ∀ hop' ∈ [hop], Visits world policy method url body hop'.number hop'.url := by simpa using here
      rw [eq]
      cases outcome with
      | error message => exact single
      | ok response =>
        obtain ⟨requested, -⟩ := ends.response response rfl
        have sends := ends.made.requested.1 requested
        have exchanged := ends.answered requested
        have found := ends.made.destination
        rw [ends.number] at sends exchanged
        rw [ends.url] at found
        dsimp only
        split
        · exact single
        · next status =>
          rw [not_not] at status
          cases located : location response with
          | none => exact single
          | some place =>
            dsimp only
            cases resolved : resolveRedirect current place with
            | error message => exact single
            | ok next =>
              intro hop' member
              rcases List.mem_cons.1 member with rfl | later
              · exact here
              · cases left with
                | zero => cases later
                | succ left =>
                  refine ih (by omega) (fun _ => ?_) hop' later
                  exact .next (visits fits) ⟨_, response, found, sends, exchanged, status, located⟩ resolved (by omega)

/-- Where the world is careful, an https URL is only followed by https URLs, as long as requests are sent. -/
theorem Careful.secure {number : Nat} {current : Text} {destination : Destination}
    (careful : Careful world policy method url body) (starts : https ++ schemeEnd <+: url)
    (visits : Visits world policy method url body number current) (found : Client.destination current = .ok destination)
    (sends : Sends world policy method number destination) : https ++ schemeEnd <+: current := by
  induction visits generalizing destination with
  | first _ => exact starts
  | @next number current place next visited redirects resolved within ih =>
    have before : https ++ schemeEnd <+: current := by
      have sent := redirects
      obtain ⟨destination', -, found', sends', -⟩ := sent
      exact ih found' sends'
    obtain ⟨plain | absolute, rfl⟩ | ⟨-, scheme, rest, rest', split, rfl⟩ := resolveRedirect_ok resolved
    · exact absurd sends (careful.downgrade starts number current _ destination visited before within redirects plain
        resolved found)
    · exact absolute
    · obtain ⟨tail, rfl⟩ := before
      rw [List.append_assoc, splitOnce_scheme (.inr rfl)] at split
      cases split
      exact ⟨rest', by rw [List.append_assoc]⟩

end

/-- The egress policy holds on every hop of a request exactly when the world is careful at the URLs that it leads to. -/
theorem egress_holds_iff (world : World) (policy : EgressPolicy) (method url : Text) (body : String) :
    Holds world policy url (clientRequest world policy method url body).1 ↔ Careful world policy method url body := by
  obtain ⟨bounded, made, -, -⟩ := @clientRequestFrom_hops world policy method body (policy.maxRedirects + 1) 0 url
  have visited := @visits_of_mem world policy method body url (policy.maxRedirects + 1) 0 url (by omega) .first
  constructor
  · intro holds
    refine ⟨fun number current destination visits found before address after reaches => ?_,
      fun starts number current place destination visits _ within redirects plain resolved found sends => ?_⟩
    · obtain ⟨hop, member, made, rfl, -, rfl⟩ := visits.hop found
      exact made.lawful_iff.1 (holds.lawful hop member) address ⟨before, after, reaches⟩
    · obtain ⟨hop, member, made, same, -, rfl⟩ := (visits.next redirects resolved within).hop found
      have secure := holds.secure starts hop member (made.requested.2 (by rwa [same]))
      rw [scheme_of_starts (.inl rfl) plain found] at secure
      exact absurd secure (by decide)
  · intro careful
    refine ⟨fun hop member => (made hop member).lawful_iff.2 fun address attempts => ?_,
      (List.length_filter_le _ _).trans bounded, fun starts hop member requested => ?_⟩
    · obtain ⟨before, after, reaches⟩ := attempts
      exact careful.tunnels hop.number hop.url hop.destination (visited hop member) (made hop member).destination
        before address after reaches
    · have sends := (made hop member).requested.1 requested
      have secure := careful.secure starts (visited hop member) (made hop member).destination sends
      exact scheme_of_starts (.inr rfl) secure (made hop member).destination

/-! ### Two hops that do more -/

/-- A resolver that translates, and a server that answers. -/
def translating : World where
  resolve _ _ _ _ := .ok [.v6 (0x64ff9b0000000000000000#96 ++ Ipv4Addr.new 127 0 0 1)]
  connect _ _ _ _ := .ok ()
  handshake _ _ := .ok ()
  prepare _ _ _ _ := .ok ()
  exchange _ _ _ _ _ := .ok ⟨200, [], ""⟩

/-- A server whose first answer is a redirect to an http URL. -/
def downgrading : World where
  resolve _ _ _ _ := .ok [.v4 (Ipv4Addr.new 8 8 8 8)]
  connect _ _ _ _ := .ok ()
  handshake _ _ := .ok ()
  prepare _ _ _ _ := .ok ()
  exchange hop _ _ _ _ :=
    .ok (if hop = 0 then ⟨302, [("location".toList, "http://plain.test/".toList)], ""⟩ else ⟨200, [], ""⟩)

/-- The translated loopback address is tried, and the https request goes on in the clear. -/
theorem egress_not_holds :
    ¬Holds translating .standard "http://public.test/".toList
        (clientRequest translating .standard "GET".toList "http://public.test/".toList "").1 ∧
      ¬Holds downgrading .standard "https://secure.test/".toList
        (clientRequest downgrading .standard "GET".toList "https://secure.test/".toList "").1 := by
  constructor
  · intro holds
    obtain ⟨hop, run, tried⟩ : ∃ hop,
        (clientRequest translating .standard "GET".toList "http://public.test/".toList "").1 = [hop] ∧
          hop.tried = [.v6 (0x64ff9b0000000000000000#96 ++ Ipv4Addr.new 127 0 0 1)] := ⟨_, rfl, rfl⟩
    have lawful := holds.lawful hop (by rw [run]; exact List.mem_singleton_self _)
    have loopback : RefusedIpv4 (Ipv4Addr.new 127 0 0 1) := ⟨(Ipv4Addr.new 127 0 0 0, 8), by decide, by decide⟩
    refine lawful.accepted _ (by rw [tried]; exact List.mem_singleton_self _) ?_
    exact Or.inr ⟨_, .nat64 _, loopback⟩
  · intro holds
    obtain ⟨first, second, run, requested, scheme⟩ : ∃ first second,
        (clientRequest downgrading .standard "GET".toList "https://secure.test/".toList "").1 = [first, second] ∧
          second.requested = true ∧ second.destination.scheme = http := ⟨_, _, rfl, rfl, rfl⟩
    have secure := holds.secure (by decide) second (by rw [run]; simp) requested
    rw [scheme] at secure
    exact absurd secure (by decide)

end BasicNext.Web.Client
