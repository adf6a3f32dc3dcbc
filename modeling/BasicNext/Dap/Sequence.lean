import BasicNext.Dap.Session

/-!
# Sequence numbers

The request loop draws the number of a response before it locks the output, the event thread draws the
number of an event under the lock. The numbers on the output are consecutive in a run exactly when every
message is written in turn: no smaller number is drawn and not written, be it that the other thread still
holds it or that its message was lost, and the counter has not wrapped.
-/

namespace BasicNext.Dap

open Lib.System (Visits Takes visits_iff_takes)

variable {state state' : State} {label : Label}

/-! ### Numbers in flight -/

/-- The number a thread holds. -/
def RequestLoop.drawn : RequestLoop → List Nat
  | .numbered seq _ | .writing seq _ => [seq]
  | _ => []

def EventThread.drawn : EventThread → List Nat
  | .numbered seq _ _ => [seq]
  | _ => []

/-- A thread that has ended draws no number. -/
def RequestLoop.room : RequestLoop → Nat
  | .returned _ => 0
  | _ => 1

def EventThread.room : EventThread → Nat
  | .ended => 0
  | _ => 1

namespace State

/-- The numbers that are drawn and not on the output. -/
def drawn (state : State) : List Nat := state.requestLoop.drawn ++ state.eventThread.drawn ++ state.lost

def writes (state : State) (label : Label) : Option Nat :=
  match label, state.requestLoop, state.eventThread with
  | .writeResponse (.ok ()), .writing seq _, _ => some seq
  | .writeEvent (.ok ()), _, .numbered seq _ _ => some seq
  | _, _, _ => none

/-- The numbers on the output are `1, 2, 3, …`. -/
def Consecutive (state : State) : Prop := state.output.map Message.seq = List.range' 1 state.output.length

/-- What the step writes is the smallest number in flight, and the counter has not wrapped. -/
def InTurn (state : State) (label : Label) : Prop :=
  ∀ seq ∈ state.writes label, seq < 2 ^ 64 ∧ ∀ other ∈ state.drawn, seq ≤ other

/-! ### What a step does to the numbers -/

/-- A step keeps the numbers, draws one, or writes one. -/
inductive Numbering (state state' : State) : Option Nat → Prop
  | keeps : state'.output = state.output → state'.sequence = state.sequence →
      state'.drawn.Perm state.drawn → Numbering state state' none
  | draws : state'.output = state.output → state'.sequence = state.sequence + 1 →
      state'.drawn.Perm (state.sequence :: state.drawn) → Numbering state state' none
  | writes {seq : Nat} {content : Response ⊕ Event} :
      state'.output = state.output ++ [⟨seq % 2 ^ 64, content⟩] → state'.sequence = state.sequence →
      state.drawn.Perm (seq :: state'.drawn) → Numbering state state' (some seq)

theorem handle_keeps (state : State) (request : Request) : (state.handle request).output = state.output
      ∧ (state.handle request).sequence = state.sequence
      ∧ (state.handle request).eventThread = state.eventThread
      ∧ (state.handle request).lost = state.lost
      ∧ (state.handle request).requestLoop.drawn = [] := by
  unfold handle
  split
  case h_1 arguments =>
    split
    · split <;> exact ⟨rfl, rfl, rfl, rfl, rfl⟩
    · exact ⟨rfl, rfl, rfl, rfl, rfl⟩
  case h_2 => split <;> exact ⟨rfl, rfl, rfl, rfl, rfl⟩
  all_goals exact ⟨rfl, rfl, rfl, rfl, rfl⟩

theorem receive_numbering {input : Except String (Option Request)}
    (h : state.receive input = some state') : Numbering state state' none := by
  unfold receive at h
  split at h
  · next reading =>
    split at h <;> cases h
    · next request =>
      obtain ⟨output, sequence, events, lost, idle⟩ := state.handle_keeps request
      refine .keeps output sequence ?_
      simp only [drawn, events, lost, idle, reading]
      exact .refl _
    · exact .keeps rfl rfl (by simp [drawn, reading, RequestLoop.drawn])
    · exact .keeps rfl rfl (by simp [drawn, reading, RequestLoop.drawn, returnWith, record])
  · cases h

theorem writeResponse_numbering {result : Except String Unit} (h : state.writeResponse result = some state') :
    Numbering state state' (state.writes (.writeResponse result)) := by
  unfold writeResponse at h
  split at h
  · next seq response loop =>
    split at h <;> cases h
    · rw [show state.writes (.writeResponse (.ok ())) = some seq by simp [writes, loop]]
      refine .writes rfl rfl ?_
      have idle : (if response.isLast then RequestLoop.ending else .reading).drawn = [] := by
        split <;> rfl
      simp only [drawn, loop, idle, write, List.nil_append]
      exact .refl _
    · refine .keeps rfl rfl ?_
      simp only [drawn, loop, RequestLoop.drawn, returnWith, record, List.nil_append, List.singleton_append]
      exact List.perm_middle
  · cases h

theorem writeEvent_numbering {result : Except String Unit} (h : state.writeEvent result = some state') :
    Numbering state state' (state.writes (.writeEvent result)) := by
  unfold writeEvent at h
  split at h
  · next seq event rest thread =>
    split at h <;> cases h
    · rw [show state.writes (.writeEvent (.ok ())) = some seq by simp [writes, thread]]
      refine .writes rfl rfl ?_
      simp only [drawn, thread, EventThread.drawn, write, record, List.append_nil]
      rw [List.append_assoc]
      exact List.perm_middle
    · refine .keeps rfl rfl ?_
      simp [drawn, thread, EventThread.drawn]
  · cases h

theorem next_numbering (h : state.next label = some state') :
    Numbering state state' (state.writes label) := by
  cases label with
  | receive input => exact receive_numbering h
  | writeResponse result => exact writeResponse_numbering h
  | writeEvent result => exact writeEvent_numbering h
  | resume =>
    simp only [next, resume] at h
    split at h <;> cases h
    next loop => exact .keeps rfl rfl (by simp [drawn, loop, RequestLoop.drawn, resumeSession, queue, record])
  | numberResponse =>
    simp only [next, numberResponse] at h
    split at h <;> cases h
    next loop => exact .draws rfl rfl (by simp [drawn, loop, RequestLoop.drawn, draw])
  | lockResponse =>
    simp only [next, lockResponse] at h
    split at h <;> cases h
    next loop _ => exact .keeps rfl rfl (by simp [drawn, loop, RequestLoop.drawn])
  | leave =>
    simp only [next, leave] at h
    split at h <;> cases h
    next loop =>
      exact .keeps rfl rfl (by simp [drawn, loop, RequestLoop.drawn, terminateSession, record])
  | join =>
    simp only [next, join] at h
    split at h <;> cases h <;>
      next loop _ => exact .keeps rfl rfl (by simp [drawn, loop, RequestLoop.drawn, returnWith, record])
  | takeEvents =>
    simp only [next, takeEvents] at h
    split at h <;> cases h
    next thread => exact .keeps rfl rfl (by simp [drawn, thread, EventThread.drawn])
  | lockEvents =>
    simp only [next, lockEvents] at h
    split at h <;> cases h
    next thread _ => exact .keeps rfl rfl (by simp [drawn, thread, EventThread.drawn])
  | numberEvent =>
    simp only [next, numberEvent] at h
    split at h <;> cases h
    next thread =>
      refine .draws rfl rfl ?_
      simp only [drawn, thread, EventThread.drawn, draw, List.append_nil]
      rw [List.append_assoc]
      exact List.perm_middle
  | unlockEvents =>
    simp only [next, unlockEvents] at h
    split at h <;> cases h
    next thread => exact .keeps rfl rfl (by simp [drawn, thread, EventThread.drawn])
  | control frame =>
    simp only [next, control] at h
    split at h <;> cases h <;> exact .keeps rfl rfl (.refl _)
  | wake =>
    simp only [next, wake] at h
    split at h <;> cases h
    exact .keeps rfl rfl (.refl _)
  | execute =>
    simp only [next, execute] at h
    split at h <;> cases h
    exact .keeps rfl rfl (.refl _)
  | transfer =>
    simp only [next, transfer] at h
    split at h <;> cases h
    exact .keeps rfl rfl (.refl _)
  | finish result =>
    simp only [next, finish] at h
    split at h <;> cases h <;> exact .keeps rfl rfl (.refl _)
  | isolated =>
    simp only [next, isolated] at h
    split at h <;> cases h
    exact .keeps rfl rfl (.refl _)

/-! ### Two threads, two numbers -/

def room (state : State) : Nat := state.requestLoop.room + state.eventThread.room

theorem drawn_length_le (state : State) :
    state.drawn.length ≤ state.room + state.lost.length := by
  have loop : state.requestLoop.drawn.length ≤ state.requestLoop.room := by
    cases state.requestLoop <;> simp [RequestLoop.drawn, RequestLoop.room]
  have thread : state.eventThread.drawn.length ≤ state.eventThread.room := by
    cases state.eventThread <;> simp [EventThread.drawn, EventThread.room]
  rw [drawn, List.length_append, List.length_append, room]
  omega

theorem handle_room (state : State) (request : Request) : (state.handle request).requestLoop.room = 1 := by
  unfold handle
  split
  case h_1 arguments =>
    split
    · split <;> rfl
    · rfl
  case h_2 => split <;> rfl
  all_goals rfl

theorem next_room (h : state.next label = some state') :
    state'.room + state'.lost.length ≤ state.room + state.lost.length := by
  cases label with
  | receive input =>
    simp only [next, receive] at h
    split at h
    · next reading =>
      split at h <;> cases h
      · next request =>
        obtain ⟨-, -, events, lost, -⟩ := state.handle_keeps request
        simp only [room, events, lost, reading, state.handle_room request]
        exact Nat.le_refl _
      · simp [room, reading, RequestLoop.room]
      · simp [room, reading, RequestLoop.room, returnWith, record]
    · cases h
  | writeResponse result =>
    simp only [next, writeResponse] at h
    split at h
    · next seq response loop =>
      split at h <;> cases h
      · have reads : (if response.isLast then RequestLoop.ending else .reading).room = 1 := by
          split <;> rfl
        simp only [room, loop, reads, write]
        exact Nat.le_refl _
      · simp [room, RequestLoop.room, loop, returnWith, record]
        omega
    · cases h
  | writeEvent result =>
    simp only [next, writeEvent] at h
    split at h
    · next seq event rest thread =>
      split at h <;> cases h
      · simp [room, EventThread.room, thread, write, record]
      · simp [room, EventThread.room, thread]
        omega
    · cases h
  | resume =>
    simp only [next, resume] at h
    split at h <;> cases h
    next loop => simp [room, RequestLoop.room, loop, resumeSession, queue, record]
  | numberResponse =>
    simp only [next, numberResponse] at h
    split at h <;> cases h
    next loop => simp [room, RequestLoop.room, loop, draw]
  | lockResponse =>
    simp only [next, lockResponse] at h
    split at h <;> cases h
    next loop _ => simp [room, RequestLoop.room, loop]
  | leave =>
    simp only [next, leave] at h
    split at h <;> cases h
    next loop => simp [room, RequestLoop.room, loop, terminateSession, record]
  | join =>
    simp only [next, join] at h
    split at h <;> cases h <;> next loop _ => simp [room, RequestLoop.room, loop, returnWith, record]
  | takeEvents =>
    simp only [next, takeEvents] at h
    split at h <;> cases h
    next thread => simp [room, EventThread.room, thread]
  | lockEvents =>
    simp only [next, lockEvents] at h
    split at h <;> cases h
    next thread _ => simp [room, EventThread.room, thread]
  | numberEvent =>
    simp only [next, numberEvent] at h
    split at h <;> cases h
    next thread => simp [room, EventThread.room, thread, draw]
  | unlockEvents =>
    simp only [next, unlockEvents] at h
    split at h <;> cases h
    next thread => simp [room, EventThread.room, thread]
  | control frame =>
    simp only [next, control] at h
    split at h <;> cases h <;> exact Nat.le_refl _
  | wake =>
    simp only [next, wake] at h
    split at h <;> cases h
    exact Nat.le_refl _
  | execute =>
    simp only [next, execute] at h
    split at h <;> cases h
    exact Nat.le_refl _
  | transfer =>
    simp only [next, transfer] at h
    split at h <;> cases h
    exact Nat.le_refl _
  | finish result =>
    simp only [next, finish] at h
    split at h <;> cases h <;> exact Nat.le_refl _
  | isolated =>
    simp only [next, isolated] at h
    split at h <;> cases h
    exact Nat.le_refl _

/-! ### Consecutive numbers -/

/-- The numbers in flight follow those on the output; at most two are in flight. -/
structure Numbered (state : State) : Prop where
  inFlight : state.drawn.Perm (List.range' (state.output.length + 1) state.drawn.length)
  sequence : state.sequence = state.output.length + 1 + state.drawn.length
  room : state.room + state.lost.length ≤ 2

theorem Numbered.keeps (numbered : state.Numbered) (h : state.next label = some state')
    (output : state'.output = state.output) (sequence : state'.sequence = state.sequence)
    (drawn : state'.drawn.Perm state.drawn) : state'.Numbered where
  inFlight := by
    rw [output, drawn.length_eq]
    exact drawn.trans numbered.inFlight
  sequence := by rw [output, sequence, drawn.length_eq, numbered.sequence]
  room := Nat.le_trans (next_room h) numbered.room

theorem Numbered.draws (numbered : state.Numbered) (h : state.next label = some state')
    (output : state'.output = state.output) (sequence : state'.sequence = state.sequence + 1)
    (drawn : state'.drawn.Perm (state.sequence :: state.drawn)) : state'.Numbered where
  inFlight := by
    rw [output, drawn.length_eq, List.length_cons, List.range'_1_concat]
    refine drawn.trans ((numbered.inFlight.cons _).trans ?_)
    rw [numbered.sequence]
    exact (List.perm_append_singleton _ _).symm
  sequence := by
    rw [output, sequence, drawn.length_eq, List.length_cons, numbered.sequence]
    omega
  room := Nat.le_trans (next_room h) numbered.room

theorem Numbered.bounds (numbered : state.Numbered) {seq : Nat} (member : seq ∈ state.drawn) :
    state.output.length + 1 ≤ seq ∧ seq < state.output.length + 1 + state.drawn.length := by
  have inRange := numbered.inFlight.mem_iff.1 member
  rw [List.mem_range'_1] at inRange
  exact inRange

theorem Numbered.few (numbered : state.Numbered) : state.drawn.length ≤ 2 :=
  Nat.le_trans state.drawn_length_le numbered.room

theorem Consecutive.write_iff (consecutive : state.Consecutive) {seq : Nat}
    {content : Response ⊕ Event} (output : state'.output = state.output ++ [⟨seq % 2 ^ 64, content⟩]) :
    state'.Consecutive ↔ seq % 2 ^ 64 = state.output.length + 1 := by
  rw [Consecutive] at consecutive
  rw [Consecutive, output, List.map_append, List.length_append, List.map_singleton,
    List.length_singleton, List.range'_1_concat, consecutive, List.append_cancel_left_eq,
    List.singleton_inj, Nat.add_comm 1]

theorem Numbered.next_iff (numbered : state.Numbered) {seq : Nat} (member : seq ∈ state.drawn) :
    seq % 2 ^ 64 = state.output.length + 1
      ↔ seq < 2 ^ 64 ∧ ∀ other ∈ state.drawn, seq ≤ other := by
  have bounds := numbered.bounds member
  have few := numbered.few
  constructor
  · intro isNext
    have : seq = state.output.length + 1 ∧ seq < 2 ^ 64 := by omega
    refine ⟨this.2, fun other inFlight => ?_⟩
    rw [this.1]
    exact (numbered.bounds inFlight).1
  · rintro ⟨small, least⟩
    have first : state.output.length + 1 ∈ state.drawn := by
      rw [numbered.inFlight.mem_iff, List.mem_range'_1]
      omega
    have := least _ first
    rw [Nat.mod_eq_of_lt small]
    omega

theorem Numbered.writes (numbered : state.Numbered) (h : state.next label = some state') {seq : Nat}
    {content : Response ⊕ Event} (output : state'.output = state.output ++ [⟨seq % 2 ^ 64, content⟩])
    (sequence : state'.sequence = state.sequence) (drawn : state.drawn.Perm (seq :: state'.drawn))
    (isNext : seq = state.output.length + 1) : state'.Numbered where
  inFlight := by
    have inFlight := drawn.symm.trans numbered.inFlight
    rw [drawn.length_eq, List.length_cons, List.range'_succ, ← isNext] at inFlight
    rw [output, List.length_append, List.length_singleton, ← isNext]
    exact inFlight.cons_inv
  sequence := by
    rw [output, List.length_append, List.length_singleton, sequence, numbered.sequence, drawn.length_eq, List.length_cons]
    omega
  room := Nat.le_trans (next_room h) numbered.room

theorem Numbered.next (numbered : state.Numbered) (consecutive : state.Consecutive) (h : state.next label = some state') :
    (state'.Consecutive ↔ state.InTurn label) ∧ (state.InTurn label → state'.Numbered) := by
  have step := next_numbering h
  generalize written : state.writes label = number at step
  have silent : number = none → state.InTurn label := by
    rintro rfl seq member
    rw [written] at member
    cases member
  cases step with
  | keeps output sequence drawn =>
    refine ⟨iff_of_true ?_ (silent rfl), fun _ => numbered.keeps h output sequence drawn⟩
    rw [Consecutive, output]
    exact consecutive
  | draws output sequence drawn =>
    refine ⟨iff_of_true ?_ (silent rfl), fun _ => numbered.draws h output sequence drawn⟩
    rw [Consecutive, output]
    exact consecutive
  | @writes seq content output sequence drawn =>
    have inTurn : state.InTurn label ↔ seq < 2 ^ 64 ∧ ∀ other ∈ state.drawn, seq ≤ other := by
      simp only [InTurn, written, Option.mem_some_iff, forall_eq']
    have isNext := numbered.next_iff (drawn.mem_iff.2 List.mem_cons_self)
    rw [consecutive.write_iff output, inTurn]
    refine ⟨isNext, fun allowed => numbered.writes h output sequence drawn ?_⟩
    rw [← isNext.2 allowed, Nat.mod_eq_of_lt allowed.1]

theorem numbered_initial : ({} : State).Numbered where
  inFlight := .refl _
  sequence := rfl
  room := Nat.le_refl _

end State

/-! ### Runs -/

/-- In a run the numbers on the output are consecutive throughout exactly when every message is written
in turn. -/
theorem sequence_consecutive_iff (labels : List Label) (run : (labels.foldlM State.next {}).isSome) :
    (∀ state, Visits State.next {} labels state → state.Consecutive)
      ↔ ∀ state label, Takes State.next {} labels state label → state.InTurn label :=
  visits_iff_takes (fun _ _ _ numbered consecutive move => numbered.next consecutive move)
    State.numbered_initial rfl run

/-- A client that asks to initialise and then to continue. -/
def initializeSession : List Label :=
  [.receive (.ok (some ⟨1, .initializeRequest⟩)), .numberResponse, .lockResponse, .writeResponse (.ok ())]

theorem sequence_consecutive_initialize : (initializeSession.foldlM State.next {}).isSome = true
      ∧ ((∀ state, Visits State.next {} initializeSession state → state.Consecutive)
        ↔ ∀ state label, Takes State.next {} initializeSession state label → state.InTurn label) :=
  ⟨rfl, sequence_consecutive_iff initializeSession rfl⟩

/-- The event thread writes the `continued` of a request whose response has its number already. -/
def overtakenResponse : List Label :=
  [.receive (.ok (some ⟨1, .continue⟩)), .numberResponse, .takeEvents, .lockEvents, .numberEvent, .writeEvent (.ok ())]

theorem sequence_not_consecutive :
    ¬ ∀ (labels : List Label) (state : State), labels.foldlM State.next {} = some state → state.Consecutive := by
  intro all
  have broken : ¬ ∃ state, overtakenResponse.foldlM State.next ({} : State) = some state
      ∧ state.output.map Message.seq = [2] := by
    rintro ⟨state, run, numbers⟩
    have consecutive := all overtakenResponse state run
    rw [State.Consecutive, ← List.length_map (f := Message.seq), numbers] at consecutive
    exact absurd consecutive (by decide)
  exact broken ⟨_, rfl, rfl⟩

end BasicNext.Dap
