import BasicNext.Web.SessionRuns

/-!
# Rotating a session

`rotate` removes the old identifier and then creates a session with its values, which draws entropy. A run of operations
keeps what a rotation promises if and only if no draw fails in the rotation of a live session.
-/

namespace BasicNext.Web.Sessions

open Lib SessionTable

variable {world : World} {table : SessionTable} {state : State} {request : Nat} {operations : List Operation}

/-- The values of the live session with an identifier. -/
def valuesAt (world : World) (table : SessionTable) (state : State) (id : Option Id) : Option Values :=
  id.bind fun id => ((state.sessions.lookup id).filter (awake world table state.looks id)).map (·.values)

def valuesOf (world : World) (table : SessionTable) (state : State) (request : Nat) : Option Values :=
  valuesAt world table state (state.requests request).id

/-- What a rotation promises, where `later` is what follows it. -/
structure RotationSound (world : World) (table : SessionTable) (state : State) (request : Nat)
    (later : List Operation) : Prop where
  /-- No session had the new identifier before, and it has all values. -/
  keeps : ∀ new after, (RequestSession.rotate world table request).run.run state = (.ok new, after) →
    ¬Drawn world 0 state.draws new ∧ (after.requests request).id = some new ∧
      ∃ entry, after.sessions.lookup new = some entry ∧ entry.values = (valuesOf world table state request).getD ∅
  forgets : ∀ new after, (RequestSession.rotate world table request).run.run state = (.ok new, after) →
    ∀ old, (state.requests request).id = some old → ∀ next, next <+: later → old ∉ (run world table after next).sessions
  stays : ∀ message after, (RequestSession.rotate world table request).run.run state = (.error message, after) →
    ∀ old values, (state.requests request).id = some old → valuesOf world table state request = some values →
      (after.requests request).id = some old ∧ ∃ entry, after.sessions.lookup old = some entry ∧ entry.values = values

/-- In a run from an empty table, the sessions are within the capacity, and rotations keep their promise. -/
structure Sound (world : World) (table : SessionTable) (operations : List Operation) : Prop where
  capacity : ∀ before, before <+: operations → (run world table initial before).sessions.keys.length ≤ table.capacity
  rotations : ∀ before request later, operations = before ++ .rotate request :: later →
    RotationSound world table (run world table initial before) request later

/-- The entropy source answers where a live session is rotated. -/
def EntropyAnswers (world : World) (table : SessionTable) (state : State) (request : Nat) : Prop :=
  (valuesOf world table state request).isSome → (world.entropy state.draws).isSome

def AnswersRotations (world : World) (table : SessionTable) (operations : List Operation) : Prop :=
  ∀ before request later, operations = before ++ .rotate request :: later →
    EntropyAnswers world table (run world table initial before) request

/-! ### Exact steps -/

theorem filterLive_spec (id : Option Id) : Triple (· = state) (RequestSession.filterLive world table id)
    (fun found after => after.draws = state.draws ∧ after.requests = state.requests ∧
      (found = none → valuesAt world table state id = none ∧ ∀ previous, id = some previous → previous ∉ after.sessions) ∧
      ∀ current, found = some current → id = some current ∧
        ∃ entry, after.sessions.lookup current = some entry ∧ valuesAt world table state id = some entry.values)
    (fun _ _ => False) := by
  cases id with
  | none =>
    refine Triple.pure fun after same => ?_
    subst same
    exact ⟨rfl, rfl, fun _ => ⟨rfl, fun _ none => nomatch none⟩, fun _ none => nomatch none⟩
  | some id =>
    rintro state rfl
    simp only [RequestSession.filterLive, StateExcept.run_bind, live_run, isLive, valuesAt, Option.bind_some]
    cases found : state.sessions.lookup id with
    | none =>
      refine ⟨rfl, rfl, fun _ => ⟨rfl, fun previous same => ?_⟩, fun _ none => nomatch none⟩
      cases same
      exact AList.lookup_eq_none.1 found
    | some entry =>
      simp only [Option.any_some, Option.filter_some]
      by_cases yes : awake world table state.looks id entry = true
      · simp only [yes, if_true, Option.map_some]
        refine ⟨rfl, rfl, fun none => (nomatch none), fun current same => ?_⟩
        cases same
        exact ⟨rfl, _, AList.lookup_insert _, rfl⟩
      · simp only [yes]
        refine ⟨rfl, rfl, fun _ => ⟨rfl, fun previous same member => ?_⟩, fun _ none => nomatch none⟩
        cases same
        exact (AList.mem_erase.1 member).1 rfl

theorem create_spec (values : Values) : Triple (· = state) (create world table values)
    (fun id after => (∃ entry, after.sessions.lookup id = some entry ∧ entry.values = values) ∧
      (∀ other ∈ after.sessions, other = id ∨ other ∈ state.sessions) ∧ after.requests = state.requests ∧
        Drawn world state.draws after.draws id ∧ (world.entropy state.draws).isSome)
    (fun _ after => after.sessions = state.sessions ∧ world.entropy state.draws = none) := by
  rintro state rfl
  rw [create_run]
  cases given : world.entropy state.draws with
  | none => exact ⟨rfl, rfl⟩
  | some bytes =>
    refine ⟨⟨_, AList.lookup_insert _, rfl⟩, fun other member => ?_, rfl,
      ⟨state.draws, bytes, le_rfl, Nat.lt_succ_self _, given, rfl⟩, rfl⟩
    exact ((AList.mem_insert _).1 member).imp_right fun kept =>
      Eviction.mem_retain (Eviction.mem_makeRoom kept)

/-- The session that a request has, or a new one. -/
structure Identified (world : World) (table : SessionTable) (state : State) (request : Nat) (old : Id)
    (after : State) : Prop where
  values : ∃ entry, after.sessions.lookup old = some entry ∧ entry.values = (valuesOf world table state request).getD ∅
  previous : ∀ previous, (state.requests request).id = some previous → previous = old ∨ previous ∉ after.sessions
  same : (valuesOf world table state request).isSome → (state.requests request).id = some old ∧ after.draws = state.draws
  draws : state.draws ≤ after.draws

theorem id_spec : Triple (· = state) (RequestSession.id world table request) (Identified world table state request)
    (fun _ _ => valuesOf world table state request = none) := by
  rintro state rfl
  have filtered := @filterLive_spec world table state (state.requests request).id state rfl
  simp only [RequestSession.id, StateExcept.run_bind, StateExcept.run_get]
  generalize (RequestSession.filterLive world table (state.requests request).id).run.run state = result at filtered ⊢
  obtain ⟨_ | found, middle⟩ := result
  · exact filtered.elim
  obtain ⟨draws, requests, noSession, session⟩ := filtered
  cases found with
  | some old =>
    obtain ⟨current, entry, found, values⟩ := session old rfl
    refine ⟨⟨entry, found, ?_⟩, fun previous same => .inl ?_, fun _ => ⟨current, draws⟩, draws.ge⟩
    · rw [valuesOf, values]
      rfl
    · rw [current, Option.some.injEq] at same
      exact same.symm
  | none =>
    obtain ⟨noValues, gone⟩ := noSession rfl
    have created := @create_spec world table middle ∅ middle rfl
    simp only [StateExcept.run_bind]
    generalize (create world table ∅).run.run middle = result at created ⊢
    obtain ⟨_ | new, after⟩ := result
    · exact noValues
    obtain ⟨⟨entry, found, values⟩, sessions, -, ⟨draw, -, lower, upper, -, -⟩, -⟩ := created
    refine ⟨⟨entry, found, ?_⟩, fun previous same => ?_, fun some => ?_, ?_⟩
    · rw [valuesOf, noValues, values]
      rfl
    · by_cases here : previous = new
      · exact .inl here
      · exact .inr fun member => gone previous same ((sessions previous member).resolve_left here)
    · rw [valuesOf, noValues] at some
      cases some
    · change state.draws ≤ after.draws
      omega

/-- What a rotation leaves. -/
structure Rotated (world : World) (table : SessionTable) (state : State) (request : Nat) (new : Id)
    (after : State) : Prop where
  values : ∃ entry, after.sessions.lookup new = some entry ∧ entry.values = (valuesOf world table state request).getD ∅
  current : (after.requests request).id = some new
  drawn : Drawn world state.draws after.draws new
  previous : ∀ previous, (state.requests request).id = some previous → previous = new ∨ previous ∉ after.sessions
  answers : EntropyAnswers world table state request

theorem rotate_spec : Triple (· = state) (RequestSession.rotate world table request) (Rotated world table state request)
    (fun _ after => (valuesOf world table state request).isSome → world.entropy state.draws = none ∧
      ∀ previous, (state.requests request).id = some previous → previous ∉ after.sessions) := by
  rintro state rfl
  have identified := @id_spec world table state request state rfl
  simp only [RequestSession.rotate, StateExcept.run_bind]
  generalize (RequestSession.id world table request).run.run state = result at identified ⊢
  obtain ⟨_ | old, middle⟩ := result
  · intro some
    rw [show valuesOf world table state request = none from identified] at some
    cases some
  obtain ⟨⟨entry, found, values⟩, others, same, draws⟩ := identified
  simp only [remove_run, found, Option.map_some, Option.getD_some]
  generalize removed : ({ middle with looks := middle.looks + 1, sessions := middle.sessions.erase old } : State) = rest
  have created := @create_spec world table rest entry.values rest rfl
  generalize (create world table entry.values).run.run rest = result at created ⊢
  subst removed
  obtain ⟨_ | new, after⟩ := result
  · obtain ⟨sessions, unanswered⟩ := created
    intro some
    obtain ⟨current, drawn⟩ := same some
    refine ⟨drawn ▸ unanswered, fun previous earlier member => ?_⟩
    rw [current, Option.some.injEq] at earlier
    rw [sessions, ← earlier] at member
    exact (AList.mem_erase.1 member).1 rfl
  · obtain ⟨⟨entry', found', values'⟩, sessions, -, drawn, answered⟩ := created
    refine ⟨⟨entry', found', values'.trans values⟩, ?_, drawn.mono draws le_rfl, fun previous earlier => ?_, fun some => ?_⟩
    · change (Function.update after.requests request { id := some new, cookie := .set } request).id = some new
      rw [Function.update_self]
    · by_cases here : previous = new
      · exact .inl here
      · refine .inr fun member => ?_
        have kept := AList.mem_erase.1 ((sessions previous member).resolve_left here)
        exact (others previous earlier).elim kept.1 fun gone => gone kept.2
    · rw [← (same some).2]
      exact answered

/-! ### Runs -/

theorem not_mem_run (fresh : world.Fresh) {id : Id} (drawn : Drawn world 0 state.draws id) (gone : id ∉ state.sessions) :
    id ∉ (run world table state operations).sessions := by
  intro member
  rcases (run_follows operations).sessions id member with before | again
  · exact gone before
  · exact drawn.disjoint fresh again

theorem requests_drawn {id : Id} (same : ((run world table initial operations).requests request).id = some id) :
    Drawn world 0 (run world table initial operations).draws id := by
  rcases (run_follows operations).requests request id same with none | member | drawn
  · cases none
  · exact absurd member (AList.notMem_empty id)
  · exact drawn

theorem capacity_run : (run world table initial operations).sessions.keys.length ≤ table.capacity :=
  (run_follows operations).capacity (Nat.zero_le _)

theorem rotationSound_iff (fresh : world.Fresh) {later : List Operation}
    (drawn : ∀ id, (state.requests request).id = some id → Drawn world 0 state.draws id) :
    RotationSound world table state request later ↔ EntropyAnswers world table state request := by
  have spec := (@rotate_spec world table state request).result rfl
  constructor
  · intro sound some
    generalize ends : (RequestSession.rotate world table request).run.run state = result
    obtain ⟨message | new, after⟩ := result
    · obtain ⟨values, found⟩ := Option.isSome_iff_exists.1 some
      cases current : (state.requests request).id with
      | none =>
        rw [valuesOf, current] at found
        cases found
      | some old =>
        obtain ⟨-, entry, kept, -⟩ := sound.stays message after ends old values current found
        have gone := (spec.2 message after ends some).2 old current
        exact absurd (AList.lookup_isSome.1 (Option.isSome_of_mem kept)) gone
    · exact (spec.1 new after ends).answers some
  · intro answers
    refine ⟨fun new after ends => ?_, fun new after ends old current next _ => ?_,
      fun message after ends old values _ some => ?_⟩
    · have rotated := spec.1 new after ends
      exact ⟨fun early => early.disjoint fresh rotated.drawn, rotated.current, rotated.values⟩
    · have rotated := spec.1 new after ends
      have early := drawn old current
      obtain ⟨draw, bytes, lower, upper, given, same⟩ := rotated.drawn
      have gone : old ∉ after.sessions := by
        rcases rotated.previous old current with rfl | gone
        · exact (early.disjoint fresh rotated.drawn).elim
        · exact gone
      exact not_mem_run fresh (early.mono le_rfl (by omega)) gone
    · have live : (valuesOf world table state request).isSome := by rw [some]; rfl
      have unanswered := (spec.2 message after ends live).1
      have answered := answers live
      rw [unanswered] at answered
      cases answered

/-- Exactly the runs in which the entropy source answers every rotation of a live session. -/
theorem sound_iff (fresh : world.Fresh) : Sound world table operations ↔ AnswersRotations world table operations := by
  have exactly := fun before request later =>
    @rotationSound_iff world table (run world table initial before) request fresh later fun _ same => requests_drawn same
  constructor
  · intro sound before request later same
    exact (exactly before request later).1 (sound.rotations before request later same)
  · intro answers
    exact ⟨fun before _ => capacity_run, fun before request later same =>
      (exactly before request later).2 (answers before request later same)⟩

/-- A source that answers once for each of some texts. -/
def answering (bytes : List (Vector UInt8 16)) : World where
  entropy draw := bytes[draw]?
  clock _ _ := 0
  now _ := 0
  place _ _ := 0

theorem fresh_answering {bytes : List (Vector UInt8 16)} (nodup : bytes.Nodup) : (answering bytes).Fresh := by
  intro i j value first second
  exact (List.getElem?_inj (List.getElem?_eq_some_iff.1 first).1 nodup).1 (first.trans second.symm)

def smallTable : SessionTable := { capacity := 2, idle := 60000000000, someCapacity := by omega, someIdle := by omega }

example : SessionTable.new 2 60000 = .ok smallTable := rfl

theorem sound_iff_login :
    Sound (answering [.replicate 16 0, .replicate 16 1]) smallTable [.set 0 "user" "ana", .rotate 0] ↔
      AnswersRotations (answering [.replicate 16 0, .replicate 16 1]) smallTable [.set 0 "user" "ana", .rotate 0] :=
  sound_iff (fresh_answering (by decide))

/-- The entropy source fails when the session of a login is rotated. -/
theorem not_sound : ¬∀ world table operations, World.Fresh world → Sound world table operations := by
  intro all
  have fresh : (answering [.replicate 16 0]).Fresh := fresh_answering (by decide)
  have sound := all (answering [.replicate 16 0]) smallTable [.set 0 "user" "ana", .rotate 0] fresh
  have answers := (rotationSound_iff fresh fun _ same => requests_drawn same).1
    (sound.rotations [.set 0 "user" "ana"] 0 [] rfl)
  exact absurd (answers (by rfl)) (by decide)

end BasicNext.Web.Sessions
