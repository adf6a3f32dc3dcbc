import BasicNext.Web.Sessions

/-!
# Runs of session operations

The sessions of a table are never more than its capacity, and an identifier that left the table never comes back. A
rotation hands all values to a new identifier; it loses them when the entropy source fails after the old identifier was
removed.
-/

namespace BasicNext.Web.Sessions

open Lib SessionTable
open Eviction (retain makeRoom mem_retain mem_makeRoom length_keys_le length_makeRoom length_insert_le)

variable {world : World} {table : SessionTable} {state state' state'' start : State} {request : Nat} {α β : Type}

/-! ### One look at the table -/

def isLive (world : World) (table : SessionTable) (state : State) (id : Id) : Bool :=
  (state.sessions.lookup id).any (awake world table state.looks id)

theorem lock_run : lock.run.run state = (.ok state.looks, { state with looks := state.looks + 1 }) := rfl

theorem draw_run : (draw world).run.run state = (.ok (world.entropy state.draws), { state with draws := state.draws + 1 }) :=
  rfl

theorem write_run (change : Table → Table) :
    (write change).run.run state = (.ok (), { state with sessions := change state.sessions }) := rfl

theorem live_run (id : Id) : (live world table id).run.run state = (.ok (isLive world table state id), { state with
        looks := state.looks + 1
        sessions := match state.sessions.lookup id with
          | some entry =>
            if awake world table state.looks id entry then
              state.sessions.insert id { entry with touched := world.now state.looks }
            else state.sessions.erase id
          | none => state.sessions }) := by
  unfold isLive
  simp only [live, StateExcept.run_bind, lock_run, StateExcept.run_get]
  cases state.sessions.lookup id with
  | none => rfl
  | some entry =>
    dsimp only [Option.any_some]
    split
    · next awake =>
      rw [awake]
      rfl
    · next asleep =>
      rw [Bool.not_eq_true] at asleep
      rw [asleep]
      rfl

theorem create_run (values : Values) : (create world table values).run.run state = match world.entropy state.draws with
    | none => (.error "session entropy provider unavailable", { state with draws := state.draws + 1 })
    | some bytes =>
      (.ok (newSessionId bytes), { state with
          draws := state.draws + 1
          looks := state.looks + 1
          sessions := (makeRoom table.capacity Entry.touched (world.place state.looks)
            (retain (awake world table state.looks) state.sessions)).insert (newSessionId bytes)
              { values, touched := world.now state.looks } }) := by
  simp only [create, StateExcept.run_bind, draw_run]
  cases world.entropy state.draws with
  | none => rfl
  | some bytes =>
    simp only [StateExcept.run_bind, lock_run, write_run]
    rfl

theorem remove_run (id : Id) : (SessionTable.remove id).run.run state = (.ok ((state.sessions.lookup id).map (·.values)),
      { state with looks := state.looks + 1, sessions := state.sessions.erase id }) := rfl

theorem len_run : (len world table).run.run state =
    (.ok (retain (awake world table state.looks) state.sessions).keys.length,
      { state with looks := state.looks + 1, sessions := retain (awake world table state.looks) state.sessions }) := rfl

/-! ### Identifiers -/

/-- The source never gives the same bytes twice. -/
def World.Fresh (world : World) : Prop := ∀ i j bytes, world.entropy i = some bytes → world.entropy j = some bytes → i = j

/-- An identifier from a draw between two. -/
def Drawn (world : World) (first last : Nat) (id : Id) : Prop :=
  ∃ draw bytes, first ≤ draw ∧ draw < last ∧ world.entropy draw = some bytes ∧ newSessionId bytes = id

theorem newSessionId_injective {bytes bytes' : Vector UInt8 16} (same : newSessionId bytes = newSessionId bytes') :
    bytes = bytes' := by
  have hex : Compress.Hex.encodeHex bytes.toList = Compress.Hex.encodeHex bytes'.toList := by
    simpa [newSessionId, String.append_right_inj] using same
  have decoded := congrArg Compress.Hex.decodeHex hex
  rw [Compress.Hex.decodeHex_encodeHex, Compress.Hex.decodeHex_encodeHex, Option.some.injEq] at decoded
  exact Vector.toList_inj.1 decoded

theorem Drawn.mono {first last first' last' : Nat} {id : Id} (drawn : Drawn world first last id) (lower : first' ≤ first)
    (upper : last ≤ last') : Drawn world first' last' id := by
  obtain ⟨draw, bytes, after, before, given, same⟩ := drawn
  exact ⟨draw, bytes, by omega, by omega, given, same⟩

theorem Drawn.disjoint (fresh : world.Fresh) {first middle last : Nat} {id : Id} (early : Drawn world first middle id)
    (late : Drawn world middle last id) : False := by
  obtain ⟨draw, bytes, -, before, given, rfl⟩ := early
  obtain ⟨draw', bytes', after, -, given', same⟩ := late
  have repeated := fresh draw draw' bytes given (newSessionId_injective same ▸ given')
  omega

/-! ### What every operation keeps -/

/-- What may change from a state to a later one. -/
structure Follows (world : World) (table : SessionTable) (state state' : State) : Prop where
  draws : state.draws ≤ state'.draws
  sessions : ∀ id ∈ state'.sessions, id ∈ state.sessions ∨ Drawn world state.draws state'.draws id
  requests : ∀ request id, (state'.requests request).id = some id →
    (state.requests request).id = some id ∨ id ∈ state.sessions ∨ Drawn world state.draws state'.draws id
  capacity : state.sessions.keys.length ≤ table.capacity → state'.sessions.keys.length ≤ table.capacity

namespace Follows

theorem refl : Follows world table state state :=
  ⟨le_rfl, fun _ member => .inl member, fun _ _ same => .inl same, fun within => within⟩

theorem trans (first : Follows world table state state') (second : Follows world table state' state'') :
    Follows world table state state'' := by
  have known : ∀ id, id ∈ state'.sessions ∨ Drawn world state'.draws state''.draws id →
      id ∈ state.sessions ∨ Drawn world state.draws state''.draws id := by
    rintro id (member | drawn)
    · exact (first.sessions id member).imp_right fun drawn => drawn.mono le_rfl second.draws
    · exact .inr (drawn.mono first.draws le_rfl)
  refine ⟨first.draws.trans second.draws, fun id member => known id (second.sessions id member), fun request id same => ?_,
    fun within => second.capacity (first.capacity within)⟩
  rcases second.requests request id same with before | elsewhere
  · rcases first.requests request id before with earlier | member | drawn
    · exact .inl earlier
    · exact .inr (.inl member)
    · exact .inr (.inr (drawn.mono le_rfl second.draws))
  · exact .inr (known id elsewhere)

theorem of_subset (draws : state.draws ≤ state'.draws) (requests : state'.requests = state.requests)
    (subset : ∀ id ∈ state'.sessions, id ∈ state.sessions) : Follows world table state state' where
  draws := draws
  sessions id member := .inl (subset id member)
  requests request id same := .inl (by rwa [requests] at same)
  capacity within := (length_keys_le subset).trans within

end Follows

/-- A program that only does what may be done. -/
def Keeps (world : World) (table : SessionTable) (start : State) (act : Act α) : Prop :=
  Triple (Follows world table start) act (fun _ => Follows world table start) fun _ => Follows world table start

theorem mem_insert_of_lookup {sessions : Table} {id other : Id} {entry entry' : Entry}
    (found : sessions.lookup id = some entry) (member : other ∈ sessions.insert id entry') : other ∈ sessions := by
  rcases (AList.mem_insert _).1 member with rfl | kept
  · exact AList.lookup_isSome.1 (Option.isSome_of_mem found)
  · exact kept

theorem live_keeps (id : Id) : Triple (Follows world table start) (live world table id)
    (fun yes state => Follows world table start state ∧ (yes = true → id ∈ state.sessions))
    (fun _ => Follows world table start) := by
  intro state follows
  rw [live_run]
  refine ⟨follows.trans (.of_subset le_rfl rfl fun other member => ?_), fun yes => ?_⟩
  · dsimp only at member
    split at member
    · next entry found =>
      split at member
      · exact mem_insert_of_lookup found member
      · exact (AList.mem_erase.1 member).2
    · exact member
  · unfold isLive at yes
    dsimp only
    split
    · next entry found =>
      rw [found, Option.any_some] at yes
      rw [if_pos yes]
      exact (AList.mem_insert _).2 (.inl rfl)
    · next missing =>
      rw [missing] at yes
      cases yes

theorem create_keeps (values : Values) : Triple (Follows world table start) (create world table values)
    (fun id state => Follows world table start state ∧ Drawn world start.draws state.draws id)
    (fun _ => Follows world table start) := by
  intro state follows
  rw [create_run]
  cases given : world.entropy state.draws with
  | none => exact follows.trans (.of_subset (Nat.le_succ _) rfl fun _ member => member)
  | some bytes =>
    have drawn : Drawn world state.draws (state.draws + 1) (newSessionId bytes) :=
      ⟨state.draws, bytes, le_rfl, Nat.lt_succ_self _, given, rfl⟩
    refine ⟨follows.trans ⟨Nat.le_succ _, fun id member => ?_, fun _ _ same => .inl same, fun within => ?_⟩,
      drawn.mono follows.draws le_rfl⟩
    · rcases (AList.mem_insert _).1 member with rfl | kept
      · exact .inr drawn
      · exact .inl (mem_retain (mem_makeRoom kept))
    · have swept : (retain (awake world table state.looks) state.sessions).keys.length ≤ table.capacity :=
        (length_keys_le fun _ kept => mem_retain kept).trans within
      have room := @length_makeRoom _ _ Entry.touched (world.place state.looks) _ _ _ table.someCapacity.1 swept
      exact length_insert_le.trans room

theorem withEntry_keeps (id : Id) (operation : Values → Except String (β × Values)) :
    Keeps world table start (withEntry world table id operation) := by
  intro state follows
  have looked : Follows world table state { state with looks := state.looks + 1 } :=
    .of_subset le_rfl rfl fun _ member => member
  simp only [withEntry, StateExcept.run_bind, lock_run, StateExcept.run_get]
  cases found : state.sessions.lookup id with
  | none => exact follows.trans looked
  | some entry =>
    have written : ∀ entry', Follows world table state
        { state with looks := state.looks + 1, sessions := state.sessions.insert id entry' } := fun entry' =>
      .of_subset le_rfl rfl fun _ member => mem_insert_of_lookup found member
    dsimp only
    by_cases yes : awake world table state.looks id entry = true
    · rw [if_pos yes]
      cases operation entry.values with
      | error message => exact follows.trans (written _)
      | ok result => exact follows.trans (written _)
    · rw [if_neg yes]
      exact follows.trans looked

theorem remove_keeps (id : Id) : Keeps world table start (SessionTable.remove id) := by
  intro state follows
  rw [remove_run]
  exact follows.trans (.of_subset le_rfl rfl fun _ member => (AList.mem_erase.1 member).2)

theorem len_keeps : Keeps world table start (len world table) := by
  intro state follows
  rw [len_run]
  exact follows.trans (.of_subset le_rfl rfl fun _ member => mem_retain member)

theorem filterLive_keeps (id : Option Id) : Triple (Follows world table start) (RequestSession.filterLive world table id)
    (fun found state => Follows world table start state ∧ ∀ id, found = some id → id ∈ state.sessions)
    (fun _ => Follows world table start) := by
  cases id with
  | none => exact Triple.pure fun _ follows => ⟨follows, fun _ none => nomatch none⟩
  | some id =>
    refine Triple.bind (live_keeps id) fun yes => Triple.ite (fun isLive => ?_) fun _ => ?_
    · refine Triple.pure fun state held => ⟨held.1, fun other same => ?_⟩
      cases same
      exact held.2 isLive
    · exact Triple.pure fun state held => ⟨held.1, fun _ none => nomatch none⟩

theorem become_keeps (request : Nat) (id : Option Id) (cookie : CookieChange) :
    Triple (fun state => Follows world table start state ∧
        ∀ other, id = some other → other ∈ state.sessions ∨ Drawn world start.draws state.draws other)
      (RequestSession.become request id cookie) (fun _ => Follows world table start)
      (fun _ => Follows world table start) := by
  refine Triple.modify fun state held => ⟨held.1.draws, held.1.sessions, fun other name same => ?_, held.1.capacity⟩
  dsimp only at same
  by_cases here : other = request
  · subst here
    rw [Function.update_self] at same
    rcases held.2 name same with member | drawn
    · exact .inr (held.1.sessions name member)
    · exact .inr (.inr drawn)
  · rw [Function.update_of_ne here] at same
    exact held.1.requests other name same

theorem begin_keeps (cookie : Option Id) : Keeps world table start (RequestSession.begin world table request cookie) := by
  refine Triple.bind (filterLive_keeps cookie) fun found => ?_
  exact (become_keeps request found .keep).mono (fun _ held => ⟨held.1, fun id same => .inl (held.2 id same)⟩)
    (fun _ _ kept => kept) (fun _ _ kept => kept)

theorem current_keeps : Keeps world table start (RequestSession.current world table request) := by
  refine Triple.get_bind fun state => ?_
  exact (filterLive_keeps (state.requests request).id).mono (fun _ held => held.2) (fun _ _ kept => kept.1)
    (fun _ _ kept => kept)

theorem id_keeps : Keeps world table start (RequestSession.id world table request) := by
  refine Triple.get_bind fun state => ?_
  refine Triple.bind ((filterLive_keeps (state.requests request).id).mono (fun _ held => held.2) (fun _ _ kept => kept.1)
    (fun _ _ kept => kept)) fun found => ?_
  cases found with
  | some id => exact Triple.pure fun _ kept => kept
  | none =>
    refine Triple.bind (create_keeps ∅) fun id => ?_
    refine Triple.bind ((become_keeps request (some id) .set).mono (fun state held => ⟨held.1, fun other same => ?_⟩)
      (fun _ _ kept => kept) (fun _ _ kept => kept)) fun _ => Triple.pure fun _ kept => kept
    cases same
    exact .inr held.2

theorem get_keeps (key : String) : Keeps world table start (RequestSession.get world table request key) := by
  refine Triple.bind current_keeps fun found => ?_
  cases found with
  | none => exact Triple.pure fun _ kept => kept
  | some id => exact withEntry_keeps id _

theorem set_keeps (key value : String) : Keeps world table start (RequestSession.set world table request key value) := by
  have rest : Keeps world table start (RequestSession.id world table request >>= fun id =>
      withEntry world table id fun values =>
        if key ∉ values ∧ keysMax ≤ values.keys.length then .error "session key limit exceeded"
        else .ok ((), values.insert key value)) :=
    Triple.bind id_keeps fun id => withEntry_keeps id _
  exact Triple.ite (fun _ => Triple.throw fun _ kept => kept) fun _ => rest

theorem removeKey_keeps (key : String) : Keeps world table start (RequestSession.remove world table request key) := by
  refine Triple.bind current_keeps fun found => ?_
  cases found with
  | none => exact Triple.pure fun _ kept => kept
  | some id => exact withEntry_keeps id _

theorem rotate_keeps : Keeps world table start (RequestSession.rotate world table request) := by
  refine Triple.bind id_keeps fun old => Triple.bind (remove_keeps old) fun values => ?_
  refine Triple.bind (create_keeps (values.getD ∅)) fun id => ?_
  refine Triple.bind ((become_keeps request (some id) .set).mono (fun state held => ⟨held.1, fun other same => ?_⟩)
    (fun _ _ kept => kept) (fun _ _ kept => kept)) fun _ => Triple.pure fun _ kept => kept
  cases same
  exact .inr held.2

theorem end_keeps : Keeps world table start (RequestSession.end' request) := by
  have ends : Triple (Follows world table start) (RequestSession.become request none .clear)
      (fun _ => Follows world table start) (fun _ => Follows world table start) :=
    (become_keeps request none .clear).mono (fun _ kept => ⟨kept, fun _ none => nomatch none⟩) (fun _ _ kept => kept)
      (fun _ _ kept => kept)
  refine Triple.get_bind fun state => ?_
  refine Triple.mono (P := Follows world table start) ?_ (fun _ held => held.2) (fun _ _ kept => kept) (fun _ _ kept => kept)
  cases (state.requests request).id with
  | none => exact ends
  | some id => exact Triple.bind (remove_keeps id) fun _ => ends

theorem Keeps.left {act : Act α} (keeps : Keeps world table state act) : Follows world table state (left act state) := by
  have held := keeps state .refl
  unfold Sessions.left
  generalize act.run.run state = result at held
  obtain ⟨_ | _, _⟩ := result <;> exact held

theorem next_follows (operation : Operation) : Follows world table state (next world table state operation) := by
  cases operation with
  | begin request cookie => exact (begin_keeps cookie).left
  | id request => exact id_keeps.left
  | get request key => exact (get_keeps key).left
  | set request key value => exact (set_keeps key value).left
  | remove request key => exact (removeKey_keeps key).left
  | rotate request => exact rotate_keeps.left
  | end' request => exact end_keeps.left
  | len => exact len_keeps.left

theorem run_follows (operations : List Operation) : Follows world table state (run world table state operations) := by
  induction operations generalizing state with
  | nil => exact .refl
  | cons operation operations ih => exact (next_follows operation).trans ih

end BasicNext.Web.Sessions
