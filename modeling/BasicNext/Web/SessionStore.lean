import BasicNext.Lib.Eviction
import BasicNext.Web.SessionRuns

/-!
# The session store

`SessionStore`: values under random identifiers, which expire when they are idle. `create` and `get` look at how long a
session has been idle, `set` and `delete` do not; `create` forgets a session and `rotate` its own before the entropy
source can fail. Instants are in nanoseconds, and the clock may advance within an operation.
-/

namespace BasicNext.Web.Stores

open Lib.Eviction
open Sessions (Id newSessionId newSessionId_injective)

/-- A value and when it was touched. -/
abbrev Values := Table Id (String × Nat)

def valueMax : Nat := 8192

/-- The bounds of a `SessionStore`. -/
structure SessionStore where
  capacity : Nat
  /-- In nanoseconds. -/
  idle : Nat
  someCapacity : 0 < capacity ∧ capacity ≤ 10000
  someIdle : 0 < idle ∧ idle ≤ 30 * 60 * 1000000000

def SessionStore.new (capacity : Int) (idle : Nat) : Except String SessionStore :=
  if bounded : 0 < capacity ∧ capacity ≤ 10000 then
    if some : 0 < idle ∧ idle ≤ 30 * 60 * 1000000000 then
      .ok { capacity := capacity.toNat, idle, someCapacity := by omega, someIdle := some }
    else .error "invalid session idle timeout"
  else .error "invalid session capacity"

/-- What the clock and the map answer to an operation. -/
structure Moment where
  /-- The clock when the idle time of a session is read. -/
  look (id : Id) : Nat
  /-- The clock when a session is touched. -/
  now : Nat
  /-- The place of a session in the iteration over the map. -/
  place (id : Id) : Nat
  look_le (id : Id) : look id ≤ now

def Moment.Before (one other : Moment) : Prop := ∀ id, one.now ≤ other.look id

/-- What the entropy source answers. -/
abbrev Entropy := Option (Vector UInt8 16)

namespace SessionStore

variable (store : SessionStore)

/-- `touched.elapsed() < self.idle` -/
def awake (moment : Moment) (id : Id) (entry : String × Nat) : Bool := moment.look id - entry.2 < store.idle

def create (moment : Moment) (entropy : Entropy) (value : String) (values : Values) : Except String Id × Values :=
  if valueMax < value.utf8ByteSize then (.error "session value too large", values)
  else
    let values := makeRoom store.capacity Prod.snd moment.place (retain (store.awake moment) values)
    match entropy with
    | none => (.error "session entropy provider failed", values)
    | some bytes => (.ok (newSessionId bytes), values.insert (newSessionId bytes) (value, moment.now))

def get (moment : Moment) (id : Id) (values : Values) : Option String × Values :=
  match values.lookup id with
  | none => (none, values)
  | some entry =>
    if store.awake moment id entry then (some entry.1, values.insert id (entry.1, moment.now))
    else (none, values.erase id)

def set (moment : Moment) (id : Id) (value : String) (values : Values) : Except String Unit × Values :=
  if valueMax < value.utf8ByteSize then (.error "session value too large", values)
  else
    match values.lookup id with
    | none => (.error "session not found", values)
    | some _ => (.ok (), values.insert id (value, moment.now))

def rotate (first second : Moment) (entropy : Entropy) (id : Id) (value : String) (values : Values) :
    Except String Id × Values :=
  match store.get first id values with
  | (none, values) => (.error "session not found", values)
  | (some _, values) => store.create second entropy value (values.erase id)

def delete (id : Id) (values : Values) : Except String Unit × Values :=
  match values.lookup id with
  | none => (.error "session not found", values)
  | some _ => (.ok (), values.erase id)

end SessionStore

/-! ### Runs -/

inductive Operation where
  | create (moment : Moment) (entropy : Entropy) (value : String)
  | get (moment : Moment) (id : Id)
  | set (moment : Moment) (id : Id) (value : String)
  | rotate (first second : Moment) (ordered : first.Before second) (entropy : Entropy) (id : Id) (value : String)
  | delete (moment : Moment) (id : Id)

namespace Operation

def first : Operation → Moment
  | create moment _ _ | get moment _ | set moment _ _ | rotate moment _ _ _ _ _ | delete moment _ => moment

def last : Operation → Moment
  | create moment _ _ | get moment _ | set moment _ _ | rotate _ moment _ _ _ _ | delete moment _ => moment

/-- The identifier that the operation is given. -/
def id? : Operation → Option Id
  | create _ _ _ => none
  | get _ id | set _ id _ | rotate _ _ _ _ id _ | delete _ id => some id

def entropy : Operation → Entropy
  | create _ entropy _ | rotate _ _ _ entropy _ _ => entropy
  | get _ _ | set _ _ _ | delete _ _ => none

end Operation

inductive Answer where
  /-- The identifier given is one of a session. -/
  | accepted
  /-- `None` -/
  | nothing
  | created (id : Id)
  | failed (message : String)
deriving DecidableEq, Repr

def Answer.of {α : Type} (answer : α → Answer) : Except String α → Answer
  | .ok result => answer result
  | .error message => .failed message

variable (store : SessionStore)

def step (values : Values) : Operation → Answer × Values
  | .create moment entropy value =>
    let result := store.create moment entropy value values
    (.of .created result.1, result.2)
  | .get moment id =>
    let result := store.get moment id values
    (if result.1.isSome then .accepted else .nothing, result.2)
  | .set moment id value =>
    let result := SessionStore.set moment id value values
    (.of (fun _ => .accepted) result.1, result.2)
  | .rotate first second _ entropy id value =>
    let result := store.rotate first second entropy id value values
    (.of (fun _ => .accepted) result.1, result.2)
  | .delete _ id =>
    let result := SessionStore.delete id values
    (.of (fun _ => .accepted) result.1, result.2)

def run (values : Values) (operations : List Operation) : Values :=
  operations.foldl (fun values operation => (step store values operation).2) values

/-- Every operation comes after those before it. -/
def Ordered (operations : List Operation) : Prop := operations.Pairwise fun one other => one.last.Before other.first

/-- The entropy source never gives the same bytes twice. -/
def Fresh (operations : List Operation) : Prop := (operations.filterMap Operation.entropy).Nodup

/-- A session whose idle time has elapsed. -/
def Elapsed (values : Values) (moment : Moment) (id : Id) : Prop :=
  ∃ entry, values.lookup id = some entry ∧ store.awake moment id entry = false

def Live (values : Values) (moment : Moment) (id : Id) (value : String) : Prop :=
  ∃ touched, values.lookup id = some (value, touched) ∧ store.awake moment id (value, touched) = true

/-- What a store promises of a run. -/
structure Sound (operations : List Operation) : Prop where
  capacity : ∀ before, before <+: operations → (run store ∅ before).keys.length ≤ store.capacity
  /-- An identifier whose idle time has elapsed is not accepted by this operation or a later one. -/
  elapsed : ∀ before operation after, operations = before ++ operation :: after → ∀ id,
    Elapsed store (run store ∅ before) operation.first id → ∀ next last rest, operation :: after = next ++ last :: rest →
      last.id? = some id → (step store (run store ∅ (before ++ next)) last).1 ≠ .accepted
  errors : ∀ before operation after, operations = before ++ operation :: after → ∀ message,
    (step store (run store ∅ before) operation).1 = .failed message → ∀ id value,
      Live store (run store ∅ before) operation.first id value →
        Live store (step store (run store ∅ before) operation).2 operation.first id value

/-- No check is missed, and nothing fails after a session was forgotten. -/
def Allowed (values : Values) : Operation → Prop
  | .create moment entropy value => value.utf8ByteSize ≤ valueMax → entropy = none →
    (retain (store.awake moment) values).keys.length < store.capacity
  | .get _ _ => True
  | .set moment id value => value.utf8ByteSize ≤ valueMax → ¬Elapsed store values moment id
  | .rotate first _ _ entropy id value => (∃ old, Live store values first id old) →
    value.utf8ByteSize ≤ valueMax ∧ entropy ≠ none
  | .delete moment id => ¬Elapsed store values moment id

def MeetsAllowed (operations : List Operation) : Prop :=
  ∀ before operation after, operations = before ++ operation :: after → Allowed store (run store ∅ before) operation

variable {store : SessionStore} {values values' : Values} {moment moment' : Moment} {id : Id} {entry : String × Nat}
  {value : String} {entropy : Entropy} {operation : Operation} {operations : List Operation}

/-! ### Each operation -/

theorem awake_mono (before : moment.Before moment') (asleep : store.awake moment id entry = false) :
    store.awake moment' id entry = false := by
  have looked := moment.look_le id
  have later := before id
  simp only [SessionStore.awake, decide_eq_false_iff_not, not_lt] at asleep ⊢
  omega

/-- What an operation leaves of a session is what it was. -/
def Leaves (id : Id) (values values' : Values) : Prop := ∀ entry, values'.lookup id = some entry → values.lookup id = some entry

theorem Leaves.refl : Leaves id values values := fun _ found => found

theorem Leaves.trans {values'' : Values} (first : Leaves id values values') (second : Leaves id values' values'') :
    Leaves id values values'' := fun entry found => first entry (second entry found)

theorem Leaves.erase (other : Id) : Leaves id values (values.erase other) := by
  intro entry found
  by_cases same : id = other
  · rw [same, AList.lookup_erase] at found
    cases found
  · rwa [AList.lookup_erase_ne same] at found

theorem Leaves.insert {other : Id} (different : id ≠ other) : Leaves id values (values.insert other entry) := by
  intro entry found
  rwa [AList.lookup_insert_ne different] at found

theorem Leaves.create (different : ∀ bytes, entropy = some bytes → id ≠ newSessionId bytes) :
    Leaves id values (store.create moment entropy value values).2 := by
  unfold SessionStore.create
  split
  · exact .refl
  · have room : Leaves id values (makeRoom store.capacity Prod.snd moment.place (retain (store.awake moment) values)) :=
      fun entry found => (lookup_retain_eq_some.1 (lookup_of_makeRoom found)).1
    cases entropy with
    | none => exact room
    | some bytes => exact room.trans (.insert (different bytes rfl))

theorem Leaves.get {other : Id} (different : id ≠ other) : Leaves id values (store.get moment other values).2 := by
  unfold SessionStore.get
  split
  · exact .refl
  · split
    · exact .insert different
    · exact .erase other

/-- No session has the identifier, or its idle time has elapsed. -/
def Gone (store : SessionStore) (values : Values) (moment : Moment) (id : Id) : Prop :=
  ∀ entry, values.lookup id = some entry → store.awake moment id entry = false

theorem Gone.mono (gone : Gone store values moment id) (before : moment.Before moment') :
    Gone store values moment' id := fun entry found => awake_mono before (gone entry found)

theorem Gone.leaves (gone : Gone store values moment id) (leaves : Leaves id values values') :
    Gone store values' moment id := fun entry found => gone entry (leaves entry found)

theorem Elapsed.gone (elapsed : Elapsed store values moment id) : Gone store values moment id := by
  obtain ⟨entry, found, asleep⟩ := elapsed
  intro other found'
  rw [found, Option.some.injEq] at found'
  rwa [← found']

theorem Gone.lookup (gone : Gone store values moment id) (awake : ¬Elapsed store values moment id) :
    values.lookup id = none := by
  rw [Option.eq_none_iff_forall_ne_some]
  intro entry found
  exact awake ⟨entry, found, gone entry found⟩

theorem get_gone (gone : Gone store values moment id) :
    (store.get moment id values).1 = none ∧ Leaves id values (store.get moment id values).2 := by
  unfold SessionStore.get
  cases found : values.lookup id with
  | none => exact ⟨rfl, .refl⟩
  | some entry =>
    simp only [gone entry found]
    exact ⟨rfl, .erase id⟩

theorem Leaves.rotate {first second : Moment} {other : Id} (different : id ≠ other)
    (fresh : ∀ bytes, entropy = some bytes → id ≠ newSessionId bytes) :
    Leaves id values (store.rotate first second entropy other value values).2 := by
  have leaves := @Leaves.get store values first id other different
  unfold SessionStore.rotate
  generalize store.get first other values = result at leaves ⊢
  obtain ⟨_ | _, values'⟩ := result
  · exact leaves
  · exact (leaves.trans (.erase other)).trans (.create fresh)

theorem rotate_gone {first second : Moment} (gone : Gone store values first id) :
    store.rotate first second entropy id value values = (.error "session not found", (store.get first id values).2) := by
  have none := (get_gone gone).1
  unfold SessionStore.rotate
  generalize store.get first id values = result at none ⊢
  obtain ⟨answer, values'⟩ := result
  subst none
  rfl

theorem set_missing (missing : values.lookup id = none) : ∃ message,
    SessionStore.set moment id value values = (.error message, values) := by
  unfold SessionStore.set
  split
  · exact ⟨_, rfl⟩
  · rw [missing]
    exact ⟨_, rfl⟩

theorem delete_missing (missing : values.lookup id = none) :
    SessionStore.delete id values = (.error "session not found", values) := by
  simp only [SessionStore.delete, missing]

theorem Leaves.set {other : Id} (different : id ≠ other) :
    Leaves id values (SessionStore.set moment other value values).2 := by
  unfold SessionStore.set
  split
  · exact .refl
  · split
    · exact .refl
    · exact .insert different

theorem Leaves.delete (other : Id) : Leaves id values (SessionStore.delete other values).2 := by
  unfold SessionStore.delete
  split
  · exact .refl
  · exact .erase other

theorem Leaves.step (other : operation.id? ≠ some id)
    (different : ∀ bytes, operation.entropy = some bytes → id ≠ newSessionId bytes) :
    Leaves id values (step store values operation).2 := by
  cases operation with
  | create moment entropy value => exact .create different
  | get moment given => exact .get fun same => other (congrArg some same.symm)
  | set moment given value => exact .set fun same => other (congrArg some same.symm)
  | rotate first second ordered entropy given value =>
    exact .rotate (fun same => other (congrArg some same.symm)) different
  | delete moment given => exact .delete given

theorem step_gone (gone : Gone store values operation.first id) (allowed : Allowed store values operation)
    (given : operation.id? = some id) :
    (step store values operation).1 ≠ .accepted ∧ Leaves id values (step store values operation).2 := by
  cases operation with
  | create moment entropy value => cases given
  | get moment other =>
    cases given
    obtain ⟨none, leaves⟩ := @get_gone store values moment id gone
    simp only [step, none]
    exact ⟨fun accepted => (nomatch accepted), leaves⟩
  | set moment other value =>
    cases given
    by_cases large : valueMax < value.utf8ByteSize
    · simp only [step, SessionStore.set, if_pos large]
      exact ⟨fun accepted => (nomatch accepted), .refl⟩
    · obtain ⟨message, failed⟩ := @set_missing values moment id value (gone.lookup (allowed (by omega)))
      simp only [step, failed]
      exact ⟨fun accepted => (nomatch accepted), .refl⟩
  | rotate first second ordered entropy other value =>
    cases given
    have refused := @rotate_gone store values id value entropy first second gone
    simp only [step, refused]
    exact ⟨fun accepted => (nomatch accepted), (get_gone gone).2⟩
  | delete moment other =>
    cases given
    simp only [step, delete_missing (gone.lookup allowed)]
    exact ⟨fun accepted => (nomatch accepted), .refl⟩

/-! ### The size of the map -/

theorem length_create (within : values.keys.length ≤ store.capacity) :
    (store.create moment entropy value values).2.keys.length ≤ store.capacity := by
  unfold SessionStore.create
  split
  · exact within
  · have swept : (retain (store.awake moment) values).keys.length ≤ store.capacity :=
      (length_keys_le fun _ kept => mem_retain kept).trans within
    have room := @length_makeRoom _ _ Prod.snd moment.place _ _ _ store.someCapacity.1 swept
    cases entropy with
    | none => exact room.le
    | some bytes => exact length_insert_le.trans room

theorem length_erase_le (within : values.keys.length ≤ store.capacity) (id : Id) :
    (values.erase id).keys.length ≤ store.capacity :=
  (length_keys_le fun _ kept => (AList.mem_erase.1 kept).2).trans within

theorem length_get (within : values.keys.length ≤ store.capacity) :
    (store.get moment id values).2.keys.length ≤ store.capacity := by
  unfold SessionStore.get
  cases found : values.lookup id with
  | none => exact within
  | some entry =>
    dsimp only
    split
    · exact (length_insert_of_mem (AList.lookup_isSome.1 (Option.isSome_of_mem found))).trans within
    · exact length_erase_le within id

theorem length_step (within : values.keys.length ≤ store.capacity) (operation : Operation) :
    (step store values operation).2.keys.length ≤ store.capacity := by
  cases operation with
  | create moment entropy value => exact length_create within
  | get moment id => exact length_get within
  | set moment id value =>
    simp only [step, SessionStore.set]
    split
    · exact within
    · cases found : values.lookup id with
      | none => exact within
      | some entry => exact (length_insert_of_mem (AList.lookup_isSome.1 (Option.isSome_of_mem found))).trans within
  | rotate first second ordered entropy id value =>
    have looked := @length_get store values first id within
    simp only [step, SessionStore.rotate]
    generalize store.get first id values = result at looked ⊢
    obtain ⟨_ | _, values'⟩ := result
    · exact looked
    · exact length_create (length_erase_le looked id)
  | delete moment id =>
    simp only [step, SessionStore.delete]
    cases values.lookup id with
    | none => exact within
    | some entry => exact length_erase_le within id

theorem length_run (operations : List Operation) : (run store ∅ operations).keys.length ≤ store.capacity := by
  have every : ∀ (operations : List Operation) (values : Values), values.keys.length ≤ store.capacity →
      (run store values operations).keys.length ≤ store.capacity := by
    intro operations
    induction operations with
    | nil => exact fun _ within => within
    | cons operation rest ih => exact fun values within => ih _ (length_step within operation)
  exact every operations ∅ (Nat.zero_le _)

/-! ### Errors -/

theorem get_live {old : String} (live : Live store values moment id old) : (store.get moment id values).1 = some old := by
  obtain ⟨touched, found, awake⟩ := live
  simp only [SessionStore.get, found, if_pos awake]

theorem Live.erase {old : String} {other : Id} (live : Live store values moment id old) (different : id ≠ other) :
    Live store (values.erase other) moment id old := by
  obtain ⟨touched, found, awake⟩ := live
  exact ⟨touched, by rwa [AList.lookup_erase_ne different], awake⟩

theorem step_errors (allowed : Allowed store values operation) {message : String}
    (failed : (step store values operation).1 = .failed message) {old : String}
    (live : Live store values operation.first id old) :
    Live store (step store values operation).2 operation.first id old := by
  cases operation with
  | create moment entropy value =>
    simp only [step, SessionStore.create] at failed ⊢
    split
    · exact live
    · next small =>
      cases entropy with
      | none =>
        obtain ⟨touched, found, awake⟩ := live
        rw [makeRoom_of_lt (allowed (by omega) rfl)]
        exact ⟨touched, lookup_retain_eq_some.2 ⟨found, awake⟩, awake⟩
      | some bytes =>
        rw [if_neg small] at failed
        cases failed
  | get moment other =>
    simp only [step] at failed
    split at failed <;> cases failed
  | set moment other value =>
    simp only [step, SessionStore.set] at failed ⊢
    split
    · exact live
    · next small =>
      rw [if_neg small] at failed
      cases found : values.lookup other with
      | none => exact live
      | some entry =>
        rw [found] at failed
        cases failed
  | rotate first second ordered entropy other value =>
    simp only [step, SessionStore.rotate] at failed ⊢
    by_cases awake : ∃ old, Live store values first other old
    · obtain ⟨small, some⟩ := allowed awake
      obtain ⟨bytes, rfl⟩ := Option.ne_none_iff_exists'.1 some
      obtain ⟨value, live⟩ := awake
      have looked := get_live live
      generalize store.get first other values = result at looked failed
      obtain ⟨answer, values'⟩ := result
      subst looked
      simp only [SessionStore.create, if_neg (Nat.not_lt.2 small)] at failed
      cases failed
    · cases found : values.lookup other with
      | none =>
        simp only [SessionStore.get, found]
        exact live
      | some entry =>
        have asleep : store.awake first other entry = false := by
          rw [Bool.eq_false_iff]
          exact fun yes => awake ⟨entry.1, entry.2, found, yes⟩
        simp only [SessionStore.get, found, asleep]
        refine live.erase fun same => awake ?_
        exact ⟨old, same ▸ live⟩
  | delete moment other =>
    simp only [step, SessionStore.delete] at failed ⊢
    cases found : values.lookup other with
    | none => exact live
    | some entry =>
      rw [found] at failed
      cases failed

theorem allowed_of_keeps (elapsed : ∀ id, Elapsed store values operation.first id → operation.id? = some id →
      (step store values operation).1 ≠ .accepted)
    (errors : ∀ message, (step store values operation).1 = .failed message → ∀ id old,
      Live store values operation.first id old → Live store (step store values operation).2 operation.first id old) :
    Allowed store values operation := by
  cases operation with
  | create moment entropy value =>
    rintro small rfl
    by_contra full
    obtain ⟨id, member, same⟩ := @makeRoom_of_le _ _ Prod.snd moment.place _ _ _ store.someCapacity.1 (not_lt.1 full)
    obtain ⟨⟨old, touched⟩, kept⟩ := Option.isSome_iff_exists.1 (AList.lookup_isSome.2 member)
    obtain ⟨found, awake⟩ := lookup_retain_eq_some.1 kept
    simp only [step, SessionStore.create, if_neg (Nat.not_lt.2 small), same] at errors
    obtain ⟨touched', found', -⟩ := errors _ rfl id old ⟨touched, found, awake⟩
    rw [AList.lookup_erase] at found'
    cases found'
  | get moment id => trivial
  | set moment id value =>
    intro small asleep
    have refused := elapsed id asleep rfl
    obtain ⟨entry, found, -⟩ := asleep
    simp only [step, SessionStore.set, if_neg (Nat.not_lt.2 small), found] at refused
    exact refused rfl
  | rotate first second ordered entropy id value =>
    rintro ⟨old, live⟩
    have looked := get_live live
    simp only [step, SessionStore.rotate] at errors
    generalize store.get first id values = result at looked errors
    obtain ⟨answer, values'⟩ := result
    subst looked
    by_contra fails
    rcases Nat.lt_or_ge valueMax value.utf8ByteSize with large | small
    · simp only [SessionStore.create, if_pos large] at errors
      obtain ⟨touched, found, -⟩ := errors _ rfl id old live
      rw [AList.lookup_erase] at found
      cases found
    · have none : entropy = none := by
        by_contra some
        exact fails ⟨small, some⟩
      have leaves : Leaves id (values'.erase id) (store.create second entropy value (values'.erase id)).2 :=
        .create fun bytes drawn => by rw [none] at drawn; cases drawn
      obtain ⟨touched, found, -⟩ := errors "session entropy provider failed"
        (by simp only [SessionStore.create, if_neg (Nat.not_lt.2 small), none]; rfl) id old live
      have missing := leaves _ found
      rw [AList.lookup_erase] at missing
      cases missing
  | delete moment id =>
    intro asleep
    have refused := elapsed id asleep rfl
    obtain ⟨entry, found, -⟩ := asleep
    simp only [step, SessionStore.delete, found] at refused
    exact refused rfl

/-! ### Runs -/

theorem run_append (values : Values) (before after : List Operation) :
    run store values (before ++ after) = run store (run store values before) after := List.foldl_append

theorem allowed_of_missing (missing : values.lookup id = none) (given : operation.id? = some id) :
    Allowed store values operation := by
  have none : ∀ moment, ¬Elapsed store values moment id := by
    rintro moment ⟨entry, found, -⟩
    rw [missing] at found
    cases found
  cases operation with
  | create moment entropy value => cases given
  | get moment other => trivial
  | set moment other value =>
    cases given
    exact fun _ => none moment
  | rotate first second ordered entropy other value =>
    cases given
    rintro ⟨old, touched, found, -⟩
    rw [missing] at found
    cases found
  | delete moment other =>
    cases given
    exact none moment

theorem mem_run_drawn (operations : List Operation) (member : id ∈ run store ∅ operations) :
    ∃ operation ∈ operations, ∃ bytes, operation.entropy = some bytes ∧ newSessionId bytes = id := by
  by_contra undrawn
  simp only [not_exists, not_and] at undrawn
  have every : ∀ (operations : List Operation) (values : Values),
      (∀ operation ∈ operations, ∀ bytes, operation.entropy = some bytes → newSessionId bytes ≠ id) →
        values.lookup id = none → (run store values operations).lookup id = none := by
    intro operations
    induction operations with
    | nil => exact fun _ _ missing => missing
    | cons operation rest ih =>
      intro values undrawn missing
      have leaves : Leaves id values (step store values operation).2 := by
        by_cases given : operation.id? = some id
        · have gone : Gone store values operation.first id := fun entry found => by rw [missing] at found; cases found
          exact (step_gone gone (allowed_of_missing missing given) given).2
        · exact .step given fun bytes drawn made => undrawn operation List.mem_cons_self bytes drawn made.symm
      refine ih _ (fun other member => undrawn other (List.mem_cons_of_mem _ member)) ?_
      rw [Option.eq_none_iff_forall_ne_some]
      intro entry found
      have before := leaves entry found
      rw [missing] at before
      cases before
  exact AList.lookup_eq_none.1 (every operations ∅ undrawn (AList.lookup_empty id)) member

theorem before_of_last {one other : Operation} (before : one.last.Before other.first) : one.first.Before other.first := by
  cases one with
  | rotate first second ordered entropy id value =>
    exact fun name => ((ordered name).trans (second.look_le name)).trans (before name)
  | _ => exact before

theorem run_gone : ∀ (operations : List Operation) (values : Values), Ordered operations →
    (∀ operation ∈ operations.head?, Gone store values operation.first id) →
    (∀ before operation after, operations = before ++ operation :: after → Allowed store (run store values before) operation) →
    (∀ operation ∈ operations, ∀ bytes, operation.entropy = some bytes → id ≠ newSessionId bytes) →
    ∀ before last after, operations = before ++ last :: after → last.id? = some id →
      (step store (run store values before) last).1 ≠ .accepted := by
  intro operations
  induction operations with
  | nil =>
    intro values _ _ _ _ before last after same
    simp at same
  | cons operation rest ih =>
    intro values ordered gone allowed different before last after same given
    obtain ⟨earlier, ordered⟩ := List.pairwise_cons.1 ordered
    have here := gone operation rfl
    have permitted := allowed [] operation rest rfl
    cases before with
    | nil =>
      obtain ⟨rfl, rfl⟩ := List.cons.inj same
      exact (step_gone here permitted given).1
    | cons first before =>
      obtain ⟨rfl, rfl⟩ := List.cons.inj same
      have leaves : Leaves id values (step store values operation).2 := by
        by_cases own : operation.id? = some id
        · exact (step_gone here permitted own).2
        · exact .step own (different operation List.mem_cons_self)
      refine ih _ ordered (fun other head => ?_) (fun before' other after' same => ?_)
        (fun other member => different other (List.mem_cons_of_mem _ member)) before last after rfl given
      · exact (here.leaves leaves).mono (before_of_last (earlier other (List.mem_of_mem_head? head)))
      · exact allowed (operation :: before') other after' (congrArg _ same)

/-- Exactly the runs in which every operation is allowed. -/
theorem store_sound_iff (operations : List Operation) (ordered : Ordered operations) (fresh : Fresh operations) :
    Sound store operations ↔ MeetsAllowed store operations := by
  constructor
  · intro sound before operation after same
    exact allowed_of_keeps (fun id elapsed given => by simpa using sound.elapsed before operation after same id elapsed [] operation after rfl given)
      (sound.errors before operation after same)
  · intro meets
    refine ⟨fun before _ => length_run before, ?_, fun before operation after same message failed id old live =>
      step_errors (meets before operation after same) failed live⟩
    intro before operation after same id elapsed next last rest parts given
    rw [run_append]
    refine run_gone (operation :: after) _ ?_ ?_ ?_ ?_ next last rest parts given
    · rw [same] at ordered
      exact (List.pairwise_append.1 ordered).2.1
    · intro other head
      cases head
      exact elapsed.gone
    · intro before' other after' split
      rw [← run_append]
      exact meets (before ++ before') other after' (by rw [same, split, List.append_assoc])
    · intro other member bytes drawn again
      obtain ⟨entry, found, -⟩ := elapsed
      obtain ⟨earlier, member', bytes', drawn', made⟩ := mem_run_drawn before (AList.lookup_isSome.1 (Option.isSome_of_mem found))
      have repeated : bytes' = bytes := newSessionId_injective (made.trans again)
      rw [Fresh, same, List.filterMap_append] at fresh
      exact (List.nodup_append.1 fresh).2.2 bytes' (List.mem_filterMap.2 ⟨earlier, member', drawn'⟩) bytes
        (List.mem_filterMap.2 ⟨other, member, drawn⟩) repeated

/-- An operation in an instant. -/
def Moment.at (now : Nat) : Moment := { look := fun _ => now, now, place := fun _ => 0, look_le := fun _ => le_rfl }

def second : Nat := 1000000000

def smallStore : SessionStore := { capacity := 1, idle := 60 * second, someCapacity := by decide, someIdle := by decide }

example : SessionStore.new 1 (60 * second) = .ok smallStore := rfl

def createThenSet (seconds : Nat) : List Operation :=
  [.create (.at 0) (some (.replicate 16 0)) "one", .set (.at (seconds * second)) (newSessionId (.replicate 16 0)) "two"]

theorem store_sound_iff_createThenSet : Sound smallStore (createThenSet 30) ↔ MeetsAllowed smallStore (createThenSet 30) :=
  store_sound_iff (createThenSet 30) (by simp [Ordered, createThenSet, Moment.Before, Moment.at, Operation.last, Operation.first])
    (List.nodup_singleton _)

/-- A value for a session whose idle time has elapsed is accepted. -/
theorem store_not_sound : ¬∀ store operations, Ordered operations → Fresh operations → Sound store operations := by
  intro all
  have sound := all smallStore (createThenSet 120)
    (by simp [Ordered, createThenSet, Moment.Before, Moment.at, Operation.last, Operation.first])
    (List.nodup_singleton _)
  refine sound.elapsed [_] _ [] rfl (newSessionId (.replicate 16 0)) ⟨("one", 0), ?_, ?_⟩ [] _ [] rfl rfl ?_ <;>
    decide +kernel

end BasicNext.Web.Stores
