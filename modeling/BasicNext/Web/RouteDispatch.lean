import BasicNext.Web.Routing

/-!
# The dispatch of a request

What an answer of `dispatch_route` should say about the routes of a table, and exactly when it does.
The listing of the allowed methods takes a parameter for a match even where its segment is empty, which
the selection does not.
-/

namespace BasicNext.Web

open Lib

/-! ### Matching -/

def Route.valid (route : Route) : Prop := validRoutePattern route.pattern = true ∧ validMethod route.method = true

/-- A parameter takes a segment that is not empty, a literal itself. -/
def SegmentMatches (expected found : String) : Prop :=
  match parameterName expected with
  | some _ => found ≠ ""
  | none => expected = found

def Route.Matches (route : Route) (path : String) : Prop :=
  List.Forall₂ SegmentMatches (segments route.pattern) (segments path)

/-- The route fits the path where parameters may also take an empty segment. -/
def Route.Fits (route : Route) (path : String) : Prop :=
  List.Forall₂ (fun expected found => (parameterName expected).isSome ∨ expected = found)
    (segments route.pattern) (segments path)

def Route.literals (route : Route) : Nat := (segments route.pattern).countP fun segment => (parameterName segment).isNone

def Serves (routes : List Route) (method path : String) (route : Route) : Prop :=
  route ∈ routes ∧ route.valid ∧ route.method = method ∧ route.Matches path

def Binds (parameters : Parameters) (route : Route) (path : String) : Prop :=
  ∀ pair ∈ (segments route.pattern).zip (segments path), ∀ name, parameterName pair.1 = some name →
    parameters.lookup name = some pair.2

/-- The route that a request is to reach among those of one method. -/
structure Best (routes : List Route) (method path : String) (route : Route) (parameters : Parameters) :
    Prop where
  serves : Serves routes method path route
  binds : Binds parameters route path
  mostLiterals : ∀ other, Serves routes method path other → other.literals ≤ route.literals
  earliest : ∀ other, Serves routes method path other → other.literals = route.literals → route.order ≤ other.order

/-! ### Selection -/

variable {parameters : Parameters} {pattern actual : List String} {literals : Nat}

theorem bindSegments_isSome :
    pattern.length = actual.length →
    ((bindSegments (pattern.zip actual) parameters literals).isSome ↔ List.Forall₂ SegmentMatches pattern actual) := by
  induction pattern generalizing actual parameters literals with
  | nil =>
    intro sameLength
    obtain rfl : actual = [] := List.length_eq_zero_iff.1 sameLength.symm
    simp [bindSegments]
  | cons expected pattern ih =>
    intro sameLength
    cases actual with
    | nil => cases sameLength
    | cons found actual =>
      have rest : pattern.length = actual.length := Nat.succ.inj sameLength
      rw [List.zip_cons_cons, bindSegments, List.forall₂_cons, SegmentMatches]
      cases name : parameterName expected with
      | some name =>
        by_cases empty : found = ""
        · simp [empty]
        · have notEmpty : found.isEmpty = false := by simpa using empty
          simp only [notEmpty, Bool.false_eq_true, if_false]
          simp [ih rest, empty]
      | none =>
        by_cases same : expected = found
        · simp [same, ih rest]
        · simp [same]

theorem bindSegments_literals {result : Nat × Parameters} (sameLength : pattern.length = actual.length)
    (found : bindSegments (pattern.zip actual) parameters literals = some result) :
    result.1 = literals + pattern.countP fun segment => (parameterName segment).isNone := by
  induction pattern generalizing actual parameters literals with
  | nil =>
    cases found
    rfl
  | cons expected pattern ih =>
    cases actual with
    | nil => cases sameLength
    | cons segment actual =>
      have rest : pattern.length = actual.length := Nat.succ.inj sameLength
      rw [List.zip_cons_cons, bindSegments] at found
      cases name : parameterName expected with
      | some name =>
        rw [name] at found
        dsimp only at found
        split at found
        · cases found
        · rw [ih rest found, List.countP_cons]
          simp [name]
      | none =>
        rw [name] at found
        dsimp only at found
        split at found
        · cases found
        · rw [ih rest found, List.countP_cons]
          simp [name]
          omega

theorem bindSegments_binds {pattern actual names : List String}
    {result : Nat × Parameters} (valid : validSegments pattern names = true)
    (found : bindSegments (pattern.zip actual) parameters literals = some result) :
    (∀ name ∈ names, result.2.lookup name = parameters.lookup name) ∧
      ∀ pair ∈ pattern.zip actual, ∀ name, parameterName pair.1 = some name → result.2.lookup name = some pair.2 := by
  induction pattern generalizing actual names parameters literals with
  | nil =>
    cases found
    exact ⟨fun _ _ => rfl, fun _ member => nomatch member⟩
  | cons expected pattern ih =>
    cases actual with
    | nil =>
      cases found
      exact ⟨fun _ _ => rfl, fun _ member => nomatch member⟩
    | cons segment actual =>
      rw [List.zip_cons_cons, bindSegments] at found
      rw [validSegments] at valid
      rw [List.zip_cons_cons, List.forall_mem_cons]
      cases named : parameterName expected with
      | some name =>
        rw [named] at found valid
        simp only [Bool.and_eq_true, Bool.not_eq_true'] at valid
        obtain ⟨⟨-, unused⟩, later⟩ := valid
        dsimp only at found
        split at found
        · cases found
        · obtain ⟨kept, bound⟩ := ih later found
          have here : result.2.lookup name = some segment := by
            rw [kept name List.mem_cons_self, AList.lookup_insert]
          refine ⟨fun other member => ?_, fun other same => ?_, bound⟩
          · have apart : other ≠ name := by
              rintro rfl
              simp [member] at unused
            rw [kept other (List.mem_cons_of_mem _ member), AList.lookup_insert_ne apart]
          · cases same
            exact here
      | none =>
        rw [named] at found valid
        simp only [Bool.and_eq_true] at valid
        dsimp only at found
        split at found
        · cases found
        · obtain ⟨kept, bound⟩ := ih valid.2 found
          exact ⟨kept, fun other same => (by cases same), bound⟩

theorem Route.valid_iff (route : Route) :
    (!validRoutePattern route.pattern || !validMethod route.method) = false ↔ route.valid := by
  simp [Route.valid]

variable {method path : String} {route : Route}

theorem candidate_eq_some {found : Candidate} :
    candidate method path route = some found → found.route = route ∧ route.valid ∧
      route.method = method ∧ route.Matches path ∧ found.literals = route.literals ∧ Binds found.parameters route path := by
  intro chosen
  rw [candidate] at chosen
  split at chosen
  · cases chosen
  · next accepted =>
    simp only [Bool.or_eq_true, Bool.not_eq_true', decide_eq_true_eq, not_or, ne_eq, Decidable.not_not,
      Bool.not_eq_false] at accepted
    obtain ⟨⟨validPattern, validMethod⟩, sameMethod⟩ := accepted
    dsimp only at chosen
    split at chosen
    · cases chosen
    · next sameLength =>
      have sameLength := Decidable.not_not.1 sameLength
      obtain ⟨result, walked, rfl⟩ := Option.map_eq_some_iff.1 chosen
      refine ⟨rfl, ⟨validPattern, validMethod⟩, sameMethod, ?_, ?_, ?_⟩
      · exact (bindSegments_isSome sameLength).1 (by rw [walked]; rfl)
      · exact (bindSegments_literals sameLength walked).trans (Nat.zero_add _)
      · rw [validRoutePattern] at validPattern
        split at validPattern
        · cases validPattern
        · exact (bindSegments_binds validPattern walked).2

theorem exists_candidate {path : String} (valid : route.valid)
    (fits : route.Matches path) : ∃ found, candidate route.method path route = some found := by
  have sameLength := fits.length_eq
  obtain ⟨result, walked⟩ := Option.isSome_iff_exists.1 ((bindSegments_isSome sameLength).2 fits)
  refine ⟨⟨route, result.1, result.2⟩, ?_⟩
  rw [candidate, if_neg (by simp [valid.1, valid.2])]
  dsimp only
  rw [if_neg (by simpa using sameLength), walked]
  rfl

variable {routes : List Route}

theorem selectRoute_eq_none :
    selectRoute routes method path = none ↔ ∀ route, ¬Serves routes method path route := by
  rw [selectRoute, Option.map_eq_none_iff, maxBy_eq_none, List.filterMap_eq_nil_iff]
  constructor
  · rintro unmatched route ⟨member, valid, rfl, fits⟩
    obtain ⟨found, chosen⟩ := exists_candidate valid fits
    rw [unmatched route member] at chosen
    cases chosen
  · intro unserved route member
    cases chosen : candidate method path route with
    | none => rfl
    | some found =>
      obtain ⟨-, valid, sameMethod, fits, -⟩ := candidate_eq_some chosen
      exact absurd ⟨member, valid, sameMethod, fits⟩ (unserved route)

theorem selectRoute_best (table : RouteTable) (selected : selectRoute table.routes method path = some (route, parameters)) :
    Best table.routes method path route parameters := by
  obtain ⟨best, greatest, same⟩ := Option.map_eq_some_iff.1 selected
  cases same
  obtain ⟨origin, member, chosen⟩ := List.mem_filterMap.1 (mem_of_maxBy greatest)
  obtain ⟨rfl, valid, sameMethod, fits, literals, binds⟩ := candidate_eq_some chosen
  have below : ∀ other, Serves table.routes method path other → toLex (other.literals, usizeMax - other.order) ≤
        toLex (best.route.literals, usizeMax - best.route.order) := by
    rintro other ⟨registered, valid', rfl, fits'⟩
    obtain ⟨found, chosen'⟩ := exists_candidate valid' fits'
    have le := le_of_maxBy greatest found (List.mem_filterMap.2 ⟨other, registered, chosen'⟩)
    obtain ⟨rfl, -, -, -, literals', -⟩ := candidate_eq_some chosen'
    rw [Candidate.key, Candidate.key, literals, literals'] at le
    exact le
  refine ⟨⟨member, valid, sameMethod, fits⟩, binds, fun other serves => ?_, fun other serves same => ?_⟩
  · rcases (Prod.Lex.le_iff.1 (below other serves)) with lt | ⟨eq, -⟩
    · exact Nat.le_of_lt lt
    · exact Nat.le_of_eq eq
  · rcases (Prod.Lex.le_iff.1 (below other serves)) with lt | ⟨-, le⟩
    · exact absurd same (Nat.ne_of_lt lt)
    · have first := table.order_lt member
      have second := table.order_lt serves.1
      simp only [ofLex_toLex] at le
      omega

/-! ### The allowed methods -/

theorem mem_dedup {method : String} {methods : List String} : method ∈ dedup methods ↔ method ∈ methods := by
  fun_induction dedup methods with
  | case1 => rfl
  | case2 => rfl
  | case3 first rest ih => simp [ih]
  | case4 first second rest apart ih => simp [ih]

theorem fits_of_matches {path : String} (fits : route.Matches path) : route.Fits path := by
  refine List.Forall₂.imp (fun expected found segment => ?_) fits
  rw [SegmentMatches] at segment
  cases name : parameterName expected with
  | some _ => exact .inl rfl
  | none =>
    rw [name] at segment
    exact .inr segment

theorem parameterName_isSome (segment : String) : (parameterName segment).isSome ↔ segment.toList.head? = some ':' := by
  rw [parameterName]
  split
  · next name spelled => simp [spelled]
  · next other =>
    cases spelled : segment.toList with
    | nil => simp
    | cons first rest =>
      have apart : first ≠ ':' := by
        rintro rfl
        exact other rest spelled
      simp [apart]

theorem misfits_eq_false :
    misfits pattern actual = false ↔ List.Forall₂ (fun expected found => (parameterName expected).isSome ∨ expected = found)
        pattern actual := by
  rw [misfits, List.forall₂_iff_zip]
  simp only [Bool.or_eq_false_iff, List.any_eq_false, decide_eq_false_iff_not, Decidable.not_not]
  refine and_congr_right fun _ => ?_
  constructor
  · intro fine expected found member
    have pair := fine (expected, found) member
    rw [parameterName_isSome]
    by_contra bad
    simp_all
  · rintro fine ⟨expected, found⟩ member
    have pair := fine member
    rw [parameterName_isSome] at pair
    rcases pair with parameter | same
    · simp [parameter]
    · simp [same]

theorem allowedMethod_eq_some {path method : String} :
    allowedMethod path route = some method ↔ route.valid ∧ route.method = method ∧ route.Fits path := by
  rw [allowedMethod, Route.Fits, ← misfits_eq_false]
  by_cases valid : route.valid
  · rw [if_neg (by simp [valid.1, valid.2])]
    cases misfits (segments route.pattern) (segments path) <;> simp [valid]
  · rw [if_pos (by rw [← Bool.not_eq_false, Route.valid_iff]; exact valid)]
    simp [valid]

theorem mem_allowedMethods {path method : String} :
    method ∈ allowedMethods routes path ↔ ∃ route ∈ routes, route.valid ∧ route.method = method ∧ route.Fits path := by
  rw [allowedMethods, mem_dedup, List.mem_mergeSort, List.mem_filterMap]
  simp only [allowedMethod_eq_some]

/-! ### The answer -/

def Answered (routes : List Route) (method path : String) : Prop :=
  (∃ route, Serves routes method path route) ∨ (method = "HEAD" ∧ ∃ route, Serves routes "GET" path route)

/-- What an answer says about the routes. -/
structure Consistent (routes : List Route) (method path : String) (outcome : RouteOutcome) : Prop where
  matched : (∃ route parameters, outcome = .matched route parameters) ↔ Answered routes method path
  best : ∀ route parameters, outcome = .matched route parameters → Best routes method path route parameters ∨
      (method = "HEAD" ∧ (∀ other, ¬Serves routes method path other) ∧ Best routes "GET" path route parameters)
  notAllowed : (∃ allowed, outcome = .methodNotAllowed allowed) ↔ ¬Answered routes method path ∧
      ∃ other route, other ≠ method ∧ Serves routes other path route
  allowed : ∀ allowed, outcome = .methodNotAllowed allowed →
    ∀ other, other ∈ allowed ↔ ∃ route, Serves routes other path route
  notFound : outcome = .notFound ↔ ¬Answered routes method path ∧ ∀ other route, ¬Serves routes other path route
  requested : ∀ allowed, outcome = .methodNotAllowed allowed → method ∉ allowed

/-- The request is answered, or every valid route that fits the path has a route of its method that
matches it: none is listed for a parameter on an empty segment alone. -/
def NoEmptyParameter (routes : List Route) (method path : String) : Prop :=
  Answered routes method path ∨
    ∀ route ∈ routes, route.valid → route.Fits path → ∃ other, Serves routes route.method path other

theorem routeForRequest_eq_none :
    routeForRequest routes method path = none ↔ ¬Answered routes method path := by
  rw [routeForRequest, Option.or_eq_none_iff, selectRoute_eq_none, Answered, not_or, not_exists]
  refine and_congr_right fun _ => ?_
  split
  · next head => simp [head, selectRoute_eq_none]
  · next other => simp [other]

theorem routeForRequest_best (table : RouteTable)
    (selected : routeForRequest table.routes method path = some (route, parameters)) :
    Best table.routes method path route parameters ∨ (method = "HEAD" ∧ (∀ other, ¬Serves table.routes method path other) ∧
        Best table.routes "GET" path route parameters) := by
  rw [routeForRequest] at selected
  cases own : selectRoute table.routes method path with
  | some found =>
    rw [own, Option.some_or] at selected
    cases selected
    exact .inl (selectRoute_best table own)
  | none =>
    rw [own, Option.none_or] at selected
    split at selected
    · next head => exact .inr ⟨head, selectRoute_eq_none.1 own, selectRoute_best table selected⟩
    · cases selected

theorem dispatchRoute_of_none (unanswered : ¬Answered routes method path) :
    dispatchRoute routes method path = if (allowedMethods routes path).isEmpty then .notFound
      else .methodNotAllowed (allowedMethods routes path) := by
  rw [dispatchRoute, routeForRequest_eq_none.2 unanswered]

theorem consistent_of_answered (table : RouteTable) (answered : Answered table.routes method path) :
    Consistent table.routes method path (dispatchRoute table.routes method path) := by
  obtain ⟨⟨route, parameters⟩, selected⟩ := Option.ne_none_iff_exists'.1 fun none => routeForRequest_eq_none.1 none answered
  have answer : dispatchRoute table.routes method path = .matched route parameters := by
    rw [dispatchRoute, selected]
  rw [answer]
  refine ⟨⟨fun _ => answered, fun _ => ⟨route, parameters, rfl⟩⟩, ?_, ?_, ?_, ?_, ?_⟩
  · rintro _ _ ⟨⟩
    exact routeForRequest_best table selected
  · exact ⟨fun ⟨_, wrong⟩ => (nomatch wrong), fun unanswered => absurd answered unanswered.1⟩
  · exact fun _ wrong => nomatch wrong
  · exact ⟨fun wrong => (nomatch wrong), fun unanswered => absurd answered unanswered.1⟩
  · exact fun _ wrong => nomatch wrong

/-- For every table, method and path: the dispatch is consistent exactly when no route is listed for a
parameter on an empty segment. -/
theorem dispatchRoute_consistent_iff (table : RouteTable) (method path : String) :
    Consistent table.routes method path (dispatchRoute table.routes method path) ↔
      NoEmptyParameter table.routes method path := by
  by_cases answered : Answered table.routes method path
  · exact ⟨fun _ => .inl answered, fun _ => consistent_of_answered table answered⟩
  rw [dispatchRoute_of_none answered]
  constructor
  · intro consistent
    refine .inr fun route member valid fits => ?_
    have listed : route.method ∈ allowedMethods table.routes path := mem_allowedMethods.2 ⟨route, member, valid, rfl, fits⟩
    have nonempty : (allowedMethods table.routes path).isEmpty = false := by
      cases listing : allowedMethods table.routes path with
      | nil =>
        rw [listing] at listed
        cases listed
      | cons => rfl
    rw [nonempty] at consistent
    exact (consistent.allowed _ rfl route.method).1 listed
  · rintro (wrong | listedMatch)
    · exact absurd wrong answered
    have allowed : ∀ other, other ∈ allowedMethods table.routes path ↔ ∃ route, Serves table.routes other path route := by
      intro other
      rw [mem_allowedMethods]
      constructor
      · rintro ⟨route, member, valid, rfl, fits⟩
        exact listedMatch route member valid fits
      · rintro ⟨route, member, valid, rfl, fits⟩
        exact ⟨route, member, valid, rfl, fits_of_matches fits⟩
    have otherMethod : ∀ {other route}, Serves table.routes other path route → other ≠ method := by
      rintro other route serves rfl
      exact answered (.inl ⟨route, serves⟩)
    cases listing : allowedMethods table.routes path with
    | nil =>
      rw [listing] at allowed
      have none_serves : ∀ other route, ¬Serves table.routes other path route :=
        fun other route serves => nomatch (allowed other).2 ⟨route, serves⟩
      refine ⟨?_, ?_, ?_, ?_, ?_, ?_⟩
      · exact ⟨fun ⟨_, _, wrong⟩ => (nomatch wrong), fun wrong => absurd wrong answered⟩
      · exact fun _ _ wrong => nomatch wrong
      · exact ⟨fun ⟨_, wrong⟩ => (nomatch wrong),
          fun ⟨_, other, route, _, serves⟩ => absurd serves (none_serves other route)⟩
      · exact fun _ wrong => nomatch wrong
      · exact ⟨fun _ => ⟨answered, none_serves⟩, fun _ => rfl⟩
      · exact fun _ wrong => nomatch wrong
    | cons first rest =>
      rw [listing] at allowed
      obtain ⟨witness, serves⟩ := (allowed first).1 List.mem_cons_self
      refine ⟨?_, ?_, ?_, ?_, ?_, ?_⟩
      · exact ⟨fun ⟨_, _, wrong⟩ => (nomatch wrong), fun wrong => absurd wrong answered⟩
      · exact fun _ _ wrong => nomatch wrong
      · exact ⟨fun _ => ⟨answered, first, witness, otherMethod serves, serves⟩, fun _ => ⟨_, rfl⟩⟩
      · rintro _ ⟨⟩
        exact allowed
      · exact ⟨fun wrong => (nomatch wrong), fun unserved => absurd serves (unserved.2 first witness)⟩
      · rintro _ ⟨⟩ member
        obtain ⟨route, own⟩ := (allowed method).1 member
        exact otherMethod own rfl

/-- The requested method is listed as allowed, and as the only one. -/
theorem emptyParameter_not_consistent :
    let routes : List Route := [⟨"GET", "/users/:id", 0⟩]
    dispatchRoute routes "GET" "/users/" = .methodNotAllowed ["GET"] ∧
      ¬Consistent routes "GET" "/users/" (dispatchRoute routes "GET" "/users/") := by
  have listing : allowedMethods [⟨"GET", "/users/:id", 0⟩] "/users/" = ["GET"] := by
    rw [allowedMethods, show List.filterMap _ _ = ["GET"] by decide, List.mergeSort_singleton, dedup]
  have answer : dispatchRoute [⟨"GET", "/users/:id", 0⟩] "GET" "/users/" = .methodNotAllowed ["GET"] := by
    rw [dispatchRoute, show routeForRequest _ _ _ = none by rfl]
    simp [listing]
  refine ⟨answer, fun consistent => ?_⟩
  rw [answer] at consistent
  exact consistent.requested ["GET"] rfl List.mem_cons_self

/-! ### Registration -/

theorem RouteTable.order_inj (table : RouteTable) {one other : Route} (first : one ∈ table.routes) (second : other ∈ table.routes)
    (same : one.order = other.order) : one = other := by
  obtain ⟨i, inside, rfl⟩ := List.getElem_of_mem first
  obtain ⟨j, inside', rfl⟩ := List.getElem_of_mem second
  rw [table.registered, table.registered] at same
  subst same
  rfl

theorem addRoute_ok {table table' : RouteTable} {registered pattern : String} {room : table.routes.length < maxLength}
    (added : table.addRoute registered pattern room = .ok table') :
    table'.routes = table.routes ++ [⟨registered, pattern, table.routes.length⟩] := by
  rw [RouteTable.addRoute] at added
  split at added
  · cases added
  · cases added
    rfl

/-- A registration leaves no request without the route that it had, unless the new route has more literals. -/
theorem addRoute_keeps {table table' : RouteTable} {registered pattern : String} {room : table.routes.length < maxLength}
    (added : table.addRoute registered pattern room = .ok table')
    (selected : selectRoute table.routes method path = some (route, parameters)) :
    ∃ route' parameters', selectRoute table'.routes method path = some (route', parameters') ∧
      (route' = route ∨ route' = ⟨registered, pattern, table.routes.length⟩ ∧ route.literals < route'.literals) := by
  have routes := addRoute_ok added
  have best := selectRoute_best table selected
  obtain ⟨member, served⟩ := best.serves
  have kept : Serves table'.routes method path route := ⟨by simp [routes, member], served⟩
  cases selected' : selectRoute table'.routes method path with
  | none => exact absurd kept (selectRoute_eq_none.1 selected' route)
  | some found =>
    obtain ⟨route', parameters'⟩ := found
    have best' := selectRoute_best table' selected'
    obtain ⟨member', served'⟩ := best'.serves
    have more := best'.mostLiterals route kept
    refine ⟨route', parameters', rfl, ?_⟩
    rw [routes] at member'
    obtain old | new := List.mem_append.1 member'
    · have equal := Nat.le_antisymm (best.mostLiterals route' ⟨old, served'⟩) more
      exact .inl (table.order_inj old member (Nat.le_antisymm (best'.earliest route kept equal.symm)
        (best.earliest route' ⟨old, served'⟩ equal)))
    · obtain rfl := List.mem_singleton.1 new
      refine .inr ⟨rfl, more.lt_of_ne fun equal => ?_⟩
      obtain ⟨i, inside, rfl⟩ := List.getElem_of_mem member
      have later := best'.earliest _ kept equal
      rw [table.registered] at later
      exact absurd inside (not_lt_of_ge later)

/-- A route with a literal takes `/users/me` over from one with a parameter. -/
theorem addRoute_keeps_literal : ∃ route' parameters', selectRoute [⟨"GET", "/users/:id", 0⟩, ⟨"GET", "/users/me", 1⟩]
    "GET" "/users/me" = some (route', parameters') ∧ (route' = ⟨"GET", "/users/:id", 0⟩ ∨
      route' = ⟨"GET", "/users/me", 1⟩ ∧ (⟨"GET", "/users/:id", 0⟩ : Route).literals < route'.literals) :=
  @addRoute_keeps _ "GET" "/users/me" _ ⟨[⟨"GET", "/users/:id", 0⟩], by decide, by decide⟩ _ "GET" "/users/me" (by decide) rfl rfl

end BasicNext.Web
