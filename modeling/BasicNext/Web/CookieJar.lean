import BasicNext.Lib.MaxBy
import Mathlib.Algebra.GroupWithZero.Nat
import Mathlib.Data.List.AList
import Mathlib.Data.List.Induction

/-!
# The cookie jar

`CookieJar`: cookies under their name, domain and path. `get` picks a key with the longest path among those that match
and looks at the expiry of that one alone. The map gives its keys in any order, instants are in nanoseconds, and every
operation reads the clock at most once.
-/

namespace BasicNext.Web.Cookies

open Lib

abbrev Text := List Char

/-- The bytes of a text. -/
def len (text : Text) : Nat := (text.map Char.utf8Size).sum

def toAsciiLowercase (text : Text) : Text := text.map Char.toLower

inductive SameSite where
  | strict | lax | none
deriving DecidableEq, Repr

structure CookieOptions where
  secure : Bool
  httpOnly : Bool
  sameSite : SameSite
deriving DecidableEq, Repr

def CookieOptions.default : CookieOptions := { secure := true, httpOnly := true, sameSite := .lax }

structure CookieKey where
  name : Text
  domain : Text
  path : Text
deriving DecidableEq, Repr

structure CookieEntry where
  value : Text
  expiry : Option Nat
  options : CookieOptions
deriving DecidableEq, Repr

structure CookieJar where
  values : AList fun _ : CookieKey => CookieEntry

def CookieEntry.expired (now : Nat) (entry : CookieEntry) : Bool := entry.expiry.any (· ≤ now)

/-- The key is of a cookie for this request; the domain is in lower case. -/
def CookieKey.applies (name domain path : Text) (key : CookieKey) : Bool :=
  key.name = name ∧ (key.domain = domain ∨ '.' :: key.domain <:+ domain) ∧
    (key.path = ['/'] ∨ path = key.path ∨ key.path ++ ['/'] <+: path)

/-- An order in which a map gives its keys. -/
structure Iteration where
  keys (jar : CookieJar) : List CookieKey
  perm (jar : CookieJar) : (keys jar).Perm jar.values.keys

namespace CookieJar

def new : CookieJar := ⟨∅⟩

def setWithOptions (jar : CookieJar) (name value domain path : Text) (maxAge : Nat) (options : CookieOptions)
    (now : Nat) : Except String CookieJar :=
  if name = [] ∨ 128 < len name ∨ 4096 < len value ∨ domain = [] ∨ path = [] then .error "invalid cookie bounds"
  else
    let key := { name, domain := toAsciiLowercase domain, path }
    if maxAge = 0 then .ok ⟨jar.values.erase key⟩
    else .ok ⟨jar.values.insert key { value, expiry := some (now + maxAge), options }⟩

def set (jar : CookieJar) (name value domain path : Text) (maxAge now : Nat) : Except String CookieJar :=
  jar.setWithOptions name value domain path maxAge .default now

def get (jar : CookieJar) (order : Iteration) (name domain path : Text) (now : Nat) : Option Text × CookieJar :=
  let domain := toAsciiLowercase domain
  match maxBy (fun key => len key.path) ((order.keys jar).filter (·.applies name domain path)) with
  | none => (none, jar)
  | some key =>
    if (jar.values.lookup key).any (·.expired now) then (none, ⟨jar.values.erase key⟩)
    else ((jar.values.lookup key).map (·.value), jar)

def delete (jar : CookieJar) (name domain path : Text) : CookieJar :=
  ⟨jar.values.erase { name, domain := toAsciiLowercase domain, path }⟩

end CookieJar

/-! ### Runs -/

inductive Operation where
  | set (name value domain path : Text) (maxAge : Nat) (options : CookieOptions)
  | get (order : Iteration) (name domain path : Text)
  | delete (name domain path : Text)

def next (jar : CookieJar) : Nat × Operation → CookieJar
  | (now, .set name value domain path maxAge options) =>
    match jar.setWithOptions name value domain path maxAge options now with
    | .ok jar => jar
    | .error _ => jar
  | (now, .get order name domain path) => (jar.get order name domain path now).2
  | (_, .delete name domain path) => jar.delete name domain path

def run (jar : CookieJar) (operations : List (Nat × Operation)) : CookieJar := operations.foldl next jar

/-! ### What a jar is for -/

/-- Of each key the cookie that was set last, until it is deleted. -/
abbrev CookieTable := CookieKey → Option CookieEntry

def change (cookies : CookieTable) : Nat × Operation → CookieTable
  | (now, .set name value domain path maxAge options) =>
    if name = [] ∨ 128 < len name ∨ 4096 < len value ∨ domain = [] ∨ path = [] then cookies
    else
      Function.update cookies { name, domain := toAsciiLowercase domain, path }
        (if maxAge = 0 then none else some { value, expiry := some (now + maxAge), options })
  | (_, .get _ _ _ _) => cookies
  | (_, .delete name domain path) => Function.update cookies { name, domain := toAsciiLowercase domain, path } none

def stored (operations : List (Nat × Operation)) : CookieTable := operations.foldl change fun _ => none

/-- An unexpired cookie for a request. -/
structure Candidate (cookies : CookieTable) (name domain path : Text) (now : Nat) (key : CookieKey)
    (entry : CookieEntry) : Prop where
  stored : cookies key = some entry
  unexpired : entry.expired now = false
  applies : key.applies name (toAsciiLowercase domain) path = true

/-- The jar answers a request with a candidate of the longest path, whatever the order of its map. -/
structure Selects (cookies : CookieTable) (jar : CookieJar) (name domain path : Text) (now : Nat) : Prop where
  isSome_iff : ∀ order, (jar.get order name domain path now).1.isSome ↔
    ∃ key entry, Candidate cookies name domain path now key entry
  longest : ∀ order value, (jar.get order name domain path now).1 = some value →
    ∃ key entry, Candidate cookies name domain path now key entry ∧ entry.value = value ∧
      ∀ other entry', Candidate cookies name domain path now other entry' → len other.path ≤ len key.path
  order_eq : ∀ order order', (jar.get order name domain path now).1 = (jar.get order' name domain path now).1

/-- Every `get` of a run selects. -/
def Sound (operations : List (Nat × Operation)) : Prop :=
  ∀ before now order name domain path later, operations = before ++ (now, .get order name domain path) :: later →
    Selects (stored before) (run .new before) name domain path now

/-! ### When it is -/

/-- A key of the jar for a request, with the longest path of all of them. -/
structure Longest (jar : CookieJar) (name domain path : Text) (key : CookieKey) (entry : CookieEntry) : Prop where
  found : jar.values.lookup key = some entry
  applies : key.applies name (toAsciiLowercase domain) path = true
  longest : ∀ other ∈ jar.values, other.applies name (toAsciiLowercase domain) path = true → len other.path ≤ len key.path

/-- All cookies for a request have expired, or none of those with the longest path has and they have one value. -/
def Unhidden (jar : CookieJar) (name domain path : Text) (now : Nat) : Prop :=
  (∀ key entry, jar.values.lookup key = some entry → key.applies name (toAsciiLowercase domain) path = true →
    entry.expired now = true) ∨
  ∃ value, ∀ key entry, Longest jar name domain path key entry → entry.expired now = false ∧ entry.value = value

def MeetsUnhidden (operations : List (Nat × Operation)) : Prop :=
  ∀ before now order name domain path later, operations = before ++ (now, .get order name domain path) :: later →
    Unhidden (run .new before) name domain path now

variable {jar : CookieJar} {cookies : CookieTable} {name domain path : Text} {now now' : Nat} {order : Iteration}
  {key : CookieKey} {entry : CookieEntry}

/-! ### One look at the jar -/

/-- The order that gives one key last. -/
def Iteration.lastly (key : CookieKey) : Iteration where
  keys jar := if key ∈ jar.values.keys then jar.values.keys.erase key ++ [key] else jar.values.keys
  perm jar := by
    split
    · next member => exact (List.perm_append_singleton key _).trans (List.perm_cons_erase member).symm
    · exact .refl _

theorem Iteration.mem_keys (order : Iteration) : key ∈ order.keys jar ↔ key ∈ jar.values :=
  (order.perm jar).mem_iff.trans AList.mem_keys.symm

def answer (jar : CookieJar) (now : Nat) (key : CookieKey) : Option Text :=
  ((jar.values.lookup key).filter (!·.expired now)).map (·.value)

theorem answer_eq_some {value : Text} : answer jar now key = some value ↔
    ∃ entry, jar.values.lookup key = some entry ∧ entry.expired now = false ∧ entry.value = value := by
  simp [answer, Option.map_eq_some_iff, Option.filter_eq_some_iff, and_assoc]

theorem get_none (none : maxBy (fun key => len key.path)
    ((order.keys jar).filter (·.applies name (toAsciiLowercase domain) path)) = none) :
    jar.get order name domain path now = (.none, jar) := by
  simp only [CookieJar.get, none]

theorem get_some (some : maxBy (fun key => len key.path)
    ((order.keys jar).filter (·.applies name (toAsciiLowercase domain) path)) = some key) :
    (jar.get order name domain path now).1 = answer jar now key := by
  simp only [CookieJar.get, some, answer]
  cases jar.values.lookup key with
  | none => rfl
  | some entry => cases expired : entry.expired now <;> simp [Option.filter_some, expired]

theorem get_longest (order : Iteration) (name domain path : Text) (now : Nat) :
    ((jar.get order name domain path now).1 = none ∧
      ∀ key ∈ jar.values, key.applies name (toAsciiLowercase domain) path = false) ∨
    ∃ key entry, Longest jar name domain path key entry ∧ (jar.get order name domain path now).1 = answer jar now key := by
  cases found : maxBy (fun key => len key.path)
      ((order.keys jar).filter (·.applies name (toAsciiLowercase domain) path)) with
  | none =>
    refine .inl ⟨by rw [get_none found], fun key member => ?_⟩
    have empty := List.filter_eq_nil_iff.1 (maxBy_eq_none.1 found) key (order.mem_keys.2 member)
    simpa using empty
  | some key =>
    have member := mem_of_maxBy found
    rw [List.mem_filter] at member
    obtain ⟨entry, lookup⟩ := Option.isSome_iff_exists.1 (AList.lookup_isSome.2 (order.mem_keys.1 member.1))
    refine .inr ⟨key, entry, ⟨lookup, member.2, fun other inside applies => ?_⟩, get_some found⟩
    exact le_of_maxBy found other (List.mem_filter.2 ⟨order.mem_keys.2 inside, applies⟩)

theorem get_lastly (longest : Longest jar name domain path key entry) (now : Nat) :
    (jar.get (.lastly key) name domain path now).1 = answer jar now key := by
  have inside : key ∈ jar.values := AList.lookup_isSome.1 (Option.isSome_of_mem longest.found)
  apply get_some
  simp only [Iteration.lastly, if_pos (AList.mem_keys.1 inside), List.filter_append, List.filter_cons_of_pos longest.applies,
    List.filter_nil]
  apply maxBy_append_singleton
  intro other member
  rw [List.mem_filter] at member
  exact longest.longest other (AList.mem_keys.2 (List.mem_of_mem_erase member.1)) member.2

/-! ### The jar against what was stored -/

def live (now : Nat) (found : Option CookieEntry) : Option CookieEntry := found.filter (!·.expired now)

theorem live_eq_some {found : Option CookieEntry} :
    live now found = some entry ↔ found = some entry ∧ entry.expired now = false := by
  simp [live, Option.filter_eq_some_iff]

theorem live_expired (expired : entry.expired now = true) : live now (some entry) = none := by
  simp [live, Option.filter_some, expired]

theorem expired_mono (earlier : now ≤ now') (expired : entry.expired now = true) : entry.expired now' = true := by
  unfold CookieEntry.expired at expired ⊢
  cases expiry : entry.expiry with
  | none =>
    rw [expiry] at expired
    cases expired
  | some instant =>
    rw [expiry] at expired
    simp only [Option.any_some, decide_eq_true_eq] at expired ⊢
    omega

theorem live_live (earlier : now ≤ now') (found : Option CookieEntry) : live now' (live now found) = live now' found := by
  cases found with
  | none => rfl
  | some entry =>
    cases expired : entry.expired now with
    | false => rw [live_eq_some.2 ⟨rfl, expired⟩]
    | true =>
      rw [live_expired expired, live_expired (expired_mono earlier expired)]
      rfl

def Agrees (now : Nat) (jar : CookieJar) (cookies : CookieTable) : Prop :=
  ∀ key, live now (jar.values.lookup key) = live now (cookies key)

theorem Agrees.mono (agrees : Agrees now jar cookies) (earlier : now ≤ now') : Agrees now' jar cookies := by
  intro key
  rw [← live_live earlier, agrees key, live_live earlier]

theorem Agrees.insert (agrees : Agrees now jar cookies) (key : CookieKey) (entry : CookieEntry) :
    Agrees now ⟨jar.values.insert key entry⟩ (Function.update cookies key (some entry)) := by
  intro other
  by_cases same : other = key
  · rw [same, AList.lookup_insert, Function.update_self]
  · rw [AList.lookup_insert_ne same, Function.update_of_ne same]
    exact agrees other

theorem Agrees.erase (agrees : Agrees now jar cookies) (key : CookieKey) :
    Agrees now ⟨jar.values.erase key⟩ (Function.update cookies key none) := by
  intro other
  by_cases same : other = key
  · rw [same, AList.lookup_erase, Function.update_self]
  · rw [AList.lookup_erase_ne same, Function.update_of_ne same]
    exact agrees other

theorem Agrees.forget (agrees : Agrees now jar cookies) (found : jar.values.lookup key = some entry)
    (expired : entry.expired now = true) : Agrees now ⟨jar.values.erase key⟩ cookies := by
  intro other
  by_cases same : other = key
  · rw [same, AList.lookup_erase, ← agrees key, found, live_expired expired]
    rfl
  · rw [AList.lookup_erase_ne same]
    exact agrees other

theorem Agrees.next (agrees : Agrees now jar cookies) (operation : Operation) :
    Agrees now (next jar (now, operation)) (change cookies (now, operation)) := by
  cases operation with
  | set name value domain path maxAge options =>
    simp only [Cookies.next, change, CookieJar.setWithOptions]
    by_cases refused : name = [] ∨ 128 < len name ∨ 4096 < len value ∨ domain = [] ∨ path = []
    · rw [if_pos refused, if_pos refused]
      exact agrees
    · rw [if_neg refused, if_neg refused]
      by_cases zero : maxAge = 0
      · rw [if_pos zero, if_pos zero]
        exact agrees.erase _
      · rw [if_neg zero, if_neg zero]
        exact agrees.insert _ _
  | get order name domain path =>
    simp only [Cookies.next, change, CookieJar.get]
    split
    · exact agrees
    · next key _ =>
      split
      · next expired =>
        obtain ⟨entry, found, expired⟩ := (Option.any_eq_true _ _).1 expired
        exact agrees.forget found expired
      · exact agrees
  | delete name domain path => exact agrees.erase _

theorem run_agrees (operations : List (Nat × Operation)) (times : operations.Pairwise fun one other => one.1 ≤ other.1) :
    ∀ now, (∀ operation ∈ operations, operation.1 ≤ now) → Agrees now (run .new operations) (stored operations) := by
  induction operations using List.reverseRecOn with
  | nil =>
    intro now _ key
    rfl
  | append_singleton operations last ih =>
    intro now upTo
    obtain ⟨earlier, -, ordered⟩ := List.pairwise_append.1 times
    have before := ih earlier last.1 fun operation member => ordered operation member last (List.mem_singleton_self last)
    rw [run, stored, List.foldl_append, List.foldl_append]
    exact (before.next last.2).mono (upTo last (by simp))

/-! ### Exact selection -/

theorem candidate_iff (agrees : Agrees now jar cookies) : Candidate cookies name domain path now key entry ↔
    jar.values.lookup key = some entry ∧ entry.expired now = false ∧
      key.applies name (toAsciiLowercase domain) path = true := by
  have same := agrees key
  constructor
  · rintro ⟨stored, unexpired, applies⟩
    rw [live_eq_some.2 ⟨stored, unexpired⟩, live_eq_some] at same
    exact ⟨same.1, same.2, applies⟩
  · rintro ⟨found, unexpired, applies⟩
    rw [live_eq_some.2 ⟨found, unexpired⟩] at same
    obtain ⟨stored, unexpired⟩ := live_eq_some.1 same.symm
    exact ⟨stored, unexpired, applies⟩

theorem answer_of_expired (expired : ∀ entry, jar.values.lookup key = some entry → entry.expired now = true) :
    answer jar now key = none := by
  rw [Option.eq_none_iff_forall_ne_some]
  intro value some
  obtain ⟨entry, found, unexpired, -⟩ := answer_eq_some.1 some
  rw [expired entry found] at unexpired
  cases unexpired

theorem selects_of_expired (agrees : Agrees now jar cookies) (expired : ∀ key entry, jar.values.lookup key = some entry →
      key.applies name (toAsciiLowercase domain) path = true → entry.expired now = true) :
    Selects cookies jar name domain path now := by
  have none : ∀ order, (jar.get order name domain path now).1 = none := by
    intro order
    rcases get_longest order name domain path now with ⟨none, -⟩ | ⟨key, entry, longest, same⟩
    · exact none
    · rw [same]
      exact answer_of_expired fun entry found => expired key entry found longest.applies
  have nothing : ¬∃ key entry, Candidate cookies name domain path now key entry := by
    rintro ⟨key, entry, candidate⟩
    obtain ⟨found, unexpired, applies⟩ := (candidate_iff agrees).1 candidate
    rw [expired key entry found applies] at unexpired
    cases unexpired
  refine ⟨fun order => ?_, fun order value some => ?_, fun order order' => ?_⟩
  · rw [none order]
    exact ⟨fun some => (nomatch some), fun some => (nothing some).elim⟩
  · rw [none order] at some
    cases some
  · rw [none order, none order']

theorem selects_of_longest (agrees : Agrees now jar cookies) {value : Text}
    (one : ∀ key entry, Longest jar name domain path key entry → entry.expired now = false ∧ entry.value = value) :
    Selects cookies jar name domain path now := by
  have found : ∀ {key entry}, Longest jar name domain path key entry → answer jar now key = some value :=
    fun longest => answer_eq_some.2 ⟨_, longest.found, one _ _ longest⟩
  refine ⟨fun order => ?_, fun order answered some => ?_, fun order order' => ?_⟩
  · rcases get_longest order name domain path now with ⟨none, nothing⟩ | ⟨key, entry, longest, same⟩
    · rw [none]
      refine ⟨fun some => (nomatch some), fun ⟨key, entry, candidate⟩ => ?_⟩
      obtain ⟨found, -, applies⟩ := (candidate_iff agrees).1 candidate
      rw [nothing key (AList.lookup_isSome.1 (Option.isSome_of_mem found))] at applies
      cases applies
    · rw [same, found longest]
      exact ⟨fun _ => ⟨key, entry, (candidate_iff agrees).2 ⟨longest.found, (one key entry longest).1, longest.applies⟩⟩,
        fun _ => rfl⟩
  · rcases get_longest order name domain path now with ⟨none, -⟩ | ⟨key, entry, longest, same⟩
    · rw [none] at some
      cases some
    · rw [same, found longest, Option.some.injEq] at some
      refine ⟨key, entry, (candidate_iff agrees).2 ⟨longest.found, (one key entry longest).1, longest.applies⟩,
        (one key entry longest).2.trans some, fun other entry' candidate => ?_⟩
      obtain ⟨found, -, applies⟩ := (candidate_iff agrees).1 candidate
      exact longest.longest other (AList.lookup_isSome.1 (Option.isSome_of_mem found)) applies
  · rcases get_longest order name domain path now with ⟨none, nothing⟩ | ⟨key, entry, longest, same⟩ <;>
      rcases get_longest order' name domain path now with ⟨none', nothing'⟩ | ⟨key', entry', longest', same'⟩
    · rw [none, none']
    · have applies := nothing key' (AList.lookup_isSome.1 (Option.isSome_of_mem longest'.found))
      rw [longest'.applies] at applies
      cases applies
    · have applies := nothing' key (AList.lookup_isSome.1 (Option.isSome_of_mem longest.found))
      rw [longest.applies] at applies
      cases applies
    · rw [same, same', found longest, found longest']

theorem selects_iff (agrees : Agrees now jar cookies) :
    Selects cookies jar name domain path now ↔ Unhidden jar name domain path now := by
  constructor
  · intro selects
    by_cases some : ∃ key entry, Candidate cookies name domain path now key entry
    · have ⟨key, _, _⟩ := some
      obtain ⟨value, answered⟩ := Option.isSome_iff_exists.1 ((selects.isSome_iff (.lastly key)).2 some)
      refine .inr ⟨value, fun other entry longest => ?_⟩
      have same := selects.order_eq (.lastly key) (.lastly other)
      rw [answered, get_lastly longest] at same
      obtain ⟨entry', found, unexpired, value⟩ := answer_eq_some.1 same.symm
      rw [longest.found, Option.some.injEq] at found
      rw [found]
      exact ⟨unexpired, value⟩
    · refine .inl fun key entry found applies => ?_
      by_contra unexpired
      exact some ⟨key, entry, (candidate_iff agrees).2 ⟨found, Bool.eq_false_iff.2 unexpired, applies⟩⟩
  · rintro (expired | ⟨value, one⟩)
    · exact selects_of_expired agrees expired
    · exact selects_of_longest agrees one

/-- Exactly the runs in which no `get` finds an expired cookie, or two values, at the longest path. -/
theorem jar_sound_iff (operations : List (Nat × Operation)) (times : operations.Pairwise fun one other => one.1 ≤ other.1) :
    Sound operations ↔ MeetsUnhidden operations := by
  have exactly : ∀ before now order name domain path later,
      operations = before ++ (now, .get order name domain path) :: later →
      (Selects (stored before) (run .new before) name domain path now ↔ Unhidden (run .new before) name domain path now) := by
    intro before now order name domain path later same
    rw [same] at times
    obtain ⟨earlier, -, ordered⟩ := List.pairwise_append.1 times
    exact selects_iff (run_agrees before earlier now fun operation member => ordered operation member _ List.mem_cons_self)
  constructor
  · intro sound before now order name domain path later same
    exact (exactly before now order name domain path later same).1 (sound before now order name domain path later same)
  · intro meets before now order name domain path later same
    exact (exactly before now order name domain path later same).2 (meets before now order name domain path later same)

def second : Nat := 1000000000

/-- A cookie for a whole site and one for an hour under `/v1`, asked for after some seconds. -/
def siteAndApi (seconds : Nat) : List (Nat × Operation) :=
  [(0, .set "sid".toList "root".toList "example.test".toList "/".toList (86400 * second) .default),
    (0, .set "sid".toList "api".toList "example.test".toList "/v1".toList (3600 * second) .default),
    (seconds * second, .get (.lastly ⟨[], [], []⟩) "sid".toList "example.test".toList "/v1/users".toList)]

theorem jar_sound_iff_siteAndApi : Sound (siteAndApi 60) ↔ MeetsUnhidden (siteAndApi 60) :=
  jar_sound_iff (siteAndApi 60) (by simp [siteAndApi])

/-- The cookie under `/v1` has expired, and hides that of the site. -/
theorem jar_not_sound : ¬∀ operations : List (Nat × Operation),
    (operations.Pairwise fun one other => one.1 ≤ other.1) → Sound operations := by
  intro all
  have selects := all (siteAndApi 7200) (by simp [siteAndApi]) (siteAndApi 7200).dropLast _ _ _ _ _ [] rfl
  have some := (selects.isSome_iff (.lastly ⟨[], [], []⟩)).2
    ⟨⟨"sid".toList, "example.test".toList, "/".toList⟩, ⟨"root".toList, some (86400 * second), .default⟩,
      by decide +kernel, by decide +kernel, by decide +kernel⟩
  exact absurd some (by decide +kernel)

end BasicNext.Web.Cookies
