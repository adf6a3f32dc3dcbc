import BasicNext.Lib.MaxBy
import BasicNext.Web.Target
import Mathlib.Data.List.AList

/-!
# Routes of the web server

The route table of `bn_web` and the choice of a route for a request (`web::routing`). The selection and
the listing of the allowed methods walk the segments of a pattern each in its own way.
-/

namespace BasicNext.Web

open Lib

structure Route where
  method : String
  pattern : String
  order : Nat
deriving DecidableEq, Repr

/-- `isize::MAX`, which no vector outgrows. -/
def maxLength : Nat := 2 ^ 63 - 1

def usizeMax : Nat := 2 ^ 64 - 1

/-- The routes of a server, each with its place in the order of registration. -/
structure RouteTable where
  routes : List Route
  registered : ∀ (i : Nat) (inside : i < routes.length), routes[i].order = i
  fits : routes.length ≤ maxLength

theorem RouteTable.order_lt (table : RouteTable) {route : Route} (member : route ∈ table.routes) :
    route.order < usizeMax := by
  obtain ⟨i, inside, rfl⟩ := List.getElem_of_mem member
  have fits := table.fits
  rw [table.registered i inside]
  simp only [maxLength, usizeMax] at fits ⊢
  omega

/-! ### Patterns and methods -/

/-- `text.split('/')` -/
def segments (text : String) : List String := (text.toList.splitOn '/').map String.ofList

/-- `segment.strip_prefix(':')` -/
def parameterName (segment : String) : Option String :=
  match segment.toList with
  | ':' :: name => some (String.ofList name)
  | _ => none

/-- Every parameter has a name of its own, and no other segment has a colon. -/
def validSegments : List String → List String → Bool
  | [], _ => true
  | segment :: rest, names =>
    match parameterName segment with
    | some name =>
      !name.isEmpty && name.toList.all (fun ch => ch.isAlphanum || ch == '_') && !names.contains name
        && validSegments rest (name :: names)
    | none => !segment.toList.contains ':' && validSegments rest names

def validRoutePattern (pattern : String) : Bool :=
  if pattern.toList.head? != some '/' || pattern.toList.contains '?' || pattern.toList.contains '%'
      || pattern.toList.contains '\\' || pattern.toList.any isControl then false
  else validSegments (segments pattern) []

def methodMarks : List Char := ['!', '#', '$', '%', '&', '\x27', '*', '+', '-', '.', '^', '_', '\x60', '|', '~']

def validMethod (method : String) : Bool :=
  !method.isEmpty && method.toList.all fun ch => ch.isAlphanum || methodMarks.contains ch

/-! ### Selection -/

abbrev Parameters := AList fun _ : String => String

/-- The loop over the segments of a pattern and of a path: the parameters and the number of literals. -/
def bindSegments : List (String × String) → Parameters → Nat → Option (Nat × Parameters)
  | [], parameters, literals => some (literals, parameters)
  | (expected, found) :: rest, parameters, literals =>
    match parameterName expected with
    | some name =>
      if found.isEmpty then none else bindSegments rest (parameters.insert name found) literals
    | none => if expected ≠ found then none else bindSegments rest parameters (literals + 1)

structure Candidate where
  route : Route
  literals : Nat
  parameters : Parameters

def candidate (method path : String) (route : Route) : Option Candidate :=
  if !validRoutePattern route.pattern || !validMethod route.method || route.method ≠ method then none
  else
    let pattern := segments route.pattern
    let actual := segments path
    if pattern.length ≠ actual.length then none
    else (bindSegments (pattern.zip actual) ∅ 0).map fun found => ⟨route, found.1, found.2⟩

/-- The most literals, then the earliest route. -/
def Candidate.key (candidate : Candidate) : Nat ×ₗ Nat := toLex (candidate.literals, usizeMax - candidate.route.order)

def selectRoute (routes : List Route) (method path : String) : Option (Route × Parameters) :=
  (maxBy Candidate.key (routes.filterMap (candidate method path))).map fun best =>
    (best.route, best.parameters)

/-- Adjacent equal elements become one. -/
def dedup : List String → List String
  | [] => []
  | [method] => [method]
  | first :: second :: rest =>
    if first = second then dedup (second :: rest) else first :: dedup (second :: rest)

/-- The check of the listing: another number of segments, or a literal that differs. -/
def misfits (pattern actual : List String) : Bool :=
  pattern.length ≠ actual.length || (pattern.zip actual).any fun (expected, found) =>
    expected.toList.head? != some ':' && expected != found

def allowedMethod (path : String) (route : Route) : Option String :=
  if !validRoutePattern route.pattern || !validMethod route.method then none
  else if misfits (segments route.pattern) (segments path) then none
  else some route.method

def allowedMethods (routes : List Route) (path : String) : List String :=
  dedup ((routes.filterMap (allowedMethod path)).mergeSort fun first second => first ≤ second)

def routeForRequest (routes : List Route) (method path : String) : Option (Route × Parameters) :=
  (selectRoute routes method path).or
    (if method = "HEAD" then selectRoute routes "GET" path else none)

inductive RouteOutcome where
  | matched (route : Route) (parameters : Parameters)
  | notFound
  | methodNotAllowed (allowed : List String)

def dispatchRoute (routes : List Route) (method path : String) : RouteOutcome :=
  match routeForRequest routes method path with
  | some (route, parameters) => .matched route parameters
  | none =>
    let allowed := allowedMethods routes path
    if allowed.isEmpty then .notFound else .methodNotAllowed allowed

/-- `add_route` of an open server: only valid routes are registered, with the next number. -/
def RouteTable.addRoute (table : RouteTable) (method pattern : String)
    (room : table.routes.length < maxLength) : Except String RouteTable :=
  if !validMethod method || !validRoutePattern pattern then .error "invalid route"
  else
    .ok
      { routes := table.routes ++ [⟨method, pattern, table.routes.length⟩]
        registered := by
          intro i inside
          rw [List.length_append, List.length_singleton] at inside
          rcases Nat.lt_or_ge i table.routes.length with old | new
          · rw [List.getElem_append_left old]
            exact table.registered i old
          · obtain rfl : i = table.routes.length := by omega
            rw [List.getElem_concat_length rfl]
        fits := by
          rw [List.length_append, List.length_singleton]
          omega }

end BasicNext.Web
