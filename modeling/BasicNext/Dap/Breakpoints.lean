import BasicNext.Dap.Session
import Mathlib.Data.List.Induction

/-!
# Breakpoints

The breakpoints of a source are those that its latest `setBreakpoints` has accepted (`breakpoint_response` of `bn_dap`). The
hook looks for the line of the next instruction among those of one source, the program that was launched.
-/

namespace BasicNext.Dap

open State

/-- A statement that the program executes. -/
structure Statement where
  /-- The file of its module. -/
  file : String
  frame : DebugFrame
  /-- Whether the hook is asked before it: a `RETURN` without a value is a terminator only, and a callback that runs isolated
  has no hook. -/
  asked : Bool

def Label.accepted : Label → Option (String × List Nat)
  | .receive (.ok (some ⟨_, .setBreakpoints source requested executable⟩)) =>
    let requested := ((requested.filter (0 < ·)).take 1024).eraseDups
    some (source, requested.filter fun line => executable.all (·.contains line))
  | _ => none

/-- The lines of the latest request for one of some sources. -/
def acceptedLines (sources : String → Bool) (labels : List Label) : List Nat :=
  (((labels.filterMap Label.accepted).reverse.find? (sources ·.1)).map (·.2)).getD []

def State.Stops (state : State) (statement : Statement) : Prop :=
  statement.asked = true ∧ ∃ state', state.control statement.frame = some state' ∧
    state'.session.events = state.session.events ++ [.stopped .breakpoint]

/-- The latest requests for the program as it was launched and for the statement's own file, in whatever spelling, agree about
the line, and the hook is asked if both have it. -/
def Matched (resolve : String → String) (labels : List Label) (program : String) (statement : Statement) : Prop :=
  if statement.frame.line ∈ acceptedLines (resolve · == statement.file) labels then
    statement.asked = true ∧ statement.frame.line ∈ acceptedLines (· == program) labels
  else statement.asked = true → statement.frame.line ∉ acceptedLines (· == program) labels

variable {state state' : State} {label : Label} {labels : List Label} {statement : Statement} {resolve : String → String}

theorem handle_breakpoints (request : Request) :
    (state.handle request).breakpoints = (Label.receive (.ok (some request))).accepted.toList ++ state.breakpoints := by
  obtain ⟨seq, command⟩ := request
  cases command with
  | launch arguments =>
    simp only [handle]
    split
    · split <;> rfl
    · rfl
  | configurationDone =>
    simp only [handle]
    split <;> rfl
  | _ => rfl

theorem next_breakpoints (h : state.next label = some state') :
    state'.breakpoints = label.accepted.toList ++ state.breakpoints := by
  cases label with
  | receive input =>
    simp only [next, receive] at h
    split at h
    · split at h <;> cases h
      · exact handle_breakpoints _
      · rfl
      · rfl
    · cases h
  | writeResponse result =>
    simp only [next, writeResponse] at h
    split at h
    · split at h <;> cases h <;> rfl
    · cases h
  | writeEvent result =>
    simp only [next, writeEvent] at h
    split at h
    · split at h <;> cases h <;> rfl
    · cases h
  | control frame =>
    simp only [next, State.control] at h
    split at h <;> cases h <;> rfl
  | wake | execute | finish | resume | numberResponse | lockResponse | leave | join | takeEvents | lockEvents | numberEvent
  | unlockEvents | transfer | isolated =>
    simp only [next, wake, execute, finish, resume, numberResponse, lockResponse, leave, join, takeEvents, lockEvents,
      numberEvent, unlockEvents, transfer, isolated] at h
    split at h <;> cases h <;> rfl

theorem run_breakpoints (run : labels.foldlM State.next {} = some state) :
    state.breakpoints = (labels.filterMap Label.accepted).reverse := by
  induction labels using List.reverseRecOn generalizing state with
  | nil =>
    cases run
    rfl
  | append_singleton labels label ih =>
    rw [List.foldlM_append] at run
    obtain ⟨before, ran, step⟩ := Option.bind_eq_some_iff.1 run
    have moved : before.next label = some state := by simpa using step
    rw [next_breakpoints moved, ih ran, List.filterMap_append, List.reverse_append]
    congr 1
    cases accepted : label.accepted <;> simp [accepted]

theorem lookup_eq_find (entries : List (String × List Nat)) (key : String) :
    entries.lookup key = (entries.find? (·.1 == key)).map (·.2) := by
  induction entries with
  | nil => rfl
  | cons entry entries ih =>
    obtain ⟨source, lines⟩ := entry
    rw [List.lookup_cons, List.find?_cons, BEq.comm, ih]
    cases source == key <;> rfl

theorem atBreakpoint_iff (run : labels.foldlM State.next {} = some state) (frame : DebugFrame) :
    state.atBreakpoint frame = true ↔ frame.line ∈ acceptedLines (· == state.program) labels := by
  rw [atBreakpoint, run_breakpoints run, lookup_eq_find, List.contains_iff_mem]
  rfl

theorem stops_iff (run : labels.foldlM State.next {} = some state) (running : state.debuggee = .running) :
    state.Stops statement ↔ statement.asked = true ∧ statement.frame.line ∈ acceptedLines (· == state.program) labels := by
  rw [← atBreakpoint_iff run, Stops]
  refine and_congr_right fun _ => ?_
  have asked : state.control statement.frame = some (state.queue
      (state.session.control (state.atBreakpoint statement.frame) statement.frame)
      ((state.session.stopReason (state.atBreakpoint statement.frame) statement.frame).toList.map Event.stopped)).settle := by
    rw [State.control, running]
  have queued : (∃ state', state.control statement.frame = some state' ∧
      state'.session.events = state.session.events ++ [.stopped .breakpoint]) ↔
      (state.session.control (state.atBreakpoint statement.frame) statement.frame).events =
        state.session.events ++ [.stopped .breakpoint] := by
    rw [asked]
    exact ⟨fun ⟨_, same, events⟩ => by cases same; exact events, fun events => ⟨_, rfl, events⟩⟩
  rw [queued]
  cases state.atBreakpoint statement.frame with
  | true =>
    have reason_eq : state.session.stopReason true statement.frame = some .breakpoint := by
      rw [SessionState.stopReason, if_pos (by simp)]
      rfl
    simp only [SessionState.control, reason_eq]
  | false =>
    simp only [SessionState.control, Bool.false_eq_true, iff_false]
    cases reason_eq : state.session.stopReason false statement.frame with
    | none => simp
    | some reason =>
      have other : reason ≠ .breakpoint := by
        rintro rfl
        rw [SessionState.stopReason] at reason_eq
        split at reason_eq
        · rw [if_neg Bool.false_ne_true] at reason_eq
          split at reason_eq
          · cases reason_eq
          · split at reason_eq <;> cases reason_eq
        · cases reason_eq
      simpa using other

/-- In every run, the hook stops for a breakpoint exactly where the statement's own file has one if and only if the requests
match. -/
theorem breakpoints_exact_iff (run : labels.foldlM State.next {} = some state) (running : state.debuggee = .running) :
    (state.Stops statement ↔ statement.frame.line ∈ acceptedLines (resolve · == statement.file) labels) ↔
      Matched resolve labels state.program statement := by
  rw [stops_iff run running, Matched]
  split
  · next own => simp only [own, iff_true]
  · next other => simp only [other, iff_false, not_and]

/-- A breakpoint on line 2 of the program, which is then launched. -/
def breakpointSession : List Label :=
  [.receive (.ok (some ⟨1, .setBreakpoints "main.bn" [2] (some [1, 2])⟩)), .numberResponse, .lockResponse,
    .writeResponse (.ok ()), .receive (.ok (some ⟨2, .launch ⟨.ok (), "main.bn", false⟩⟩))]

theorem breakpoints_exact_main : ∃ state, breakpointSession.foldlM State.next {} = some state ∧
    (state.Stops ⟨"main.bn", ⟨"Start", 0, 2⟩, true⟩ ↔ 2 ∈ acceptedLines (id · == "main.bn") breakpointSession) := by
  refine ⟨_, rfl, (breakpoints_exact_iff rfl rfl).2 ?_⟩
  rw [Matched, if_pos (by decide)]
  exact ⟨rfl, by decide⟩

/-- The hook stops in another module, whose file has no breakpoint. -/
theorem breakpoints_not_exact : ∃ state, breakpointSession.foldlM State.next {} = some state ∧
    ¬(state.Stops ⟨"lib.bn", ⟨"#1.Help", 1, 2⟩, true⟩ ↔ 2 ∈ acceptedLines (id · == "lib.bn") breakpointSession) := by
  refine ⟨_, rfl, fun exact_ => ?_⟩
  have stopped : 2 ∈ acceptedLines (id · == "lib.bn") breakpointSession := exact_.1 ⟨rfl, _, rfl, rfl⟩
  exact absurd stopped (by decide)

end BasicNext.Dap
