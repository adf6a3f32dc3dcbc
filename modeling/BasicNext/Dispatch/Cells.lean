import BasicNext.Dispatch.Queue

/-!
# What a step does to a ticket

What a step of one thread can do to the cell of a ticket is one of a few changes, whichever function the
thread is in; what follows from that is proved of these changes.
-/

namespace BasicNext.Dispatch

variable {thread other : Thread} {shared shared' : Shared} {point point' : Point} {action : Action}
  {ticket : TicketId} {cell cell' : Cell}

/-! ### Moves -/

/-- The call makes a ticket terminal whose job may be running. -/
def Call.endsJob (ticket : TicketId) : Call → Bool
  | .closeTicket other | .markCompleted other | .markFailed other _ _ => other == ticket
  | _ => false

/-- The ticket lock is held, and a notification of the queue comes next. -/
def Point.settled : Point → Bool
  | .close (.cancelNotify _ _) | .ticket _ | .worker (.notify _) => true
  | _ => false

/-- A step of a thread: where it was, what it did, and where it is now. -/
structure Move where
  thread : Thread
  point : Point
  action : Action
  next : Point

/-- The step is one that may end the job of a ticket. -/
def Move.EndsJob (move : Move) (ticket : TicketId) : Prop :=
  move.point = .worker (.complete ticket) ∨ move.point = .worker (.panicked ticket)
    ∨ ∃ call, move.action = .call call ∧ call.endsJob ticket = true

variable {move : Move}

/-! ### The life of one ticket -/

/-- `PENDING` to `RUNNING` to `COMPLETED` or `FAILED`, or `PENDING` to `CANCELLED`. -/
inductive Status.Moves : Status → Status → Prop
  | stay (status : Status) : Moves status status
  | start : Moves .pending .running
  | complete : Moves .running .completed
  | fail : Moves .running .failed
  | cancel : Moves .pending .cancelled

/-- The end of a job. -/
inductive Finishes (state : TicketState) : TicketState → Prop
  | complete {state' : TicketState} : state.markCompleted = some state' → Finishes state state'
  | fail {code : Int} {message : String} {state' : TicketState} :
      state.markFailed code message = some state' → Finishes state state'

/-- What a move can do to the cell of a ticket. -/
inductive CellStep (move : Move) (ticket : TicketId) (cell : Cell) : Cell → Prop
  | same : CellStep move ticket cell cell
  | unlock : CellStep move ticket cell { cell with locked := false }
  | close : move.action = .call (.closeTicket ticket) → CellStep move ticket cell { cell with state := cell.state.close }
  | start {state : TicketState} : cell.state.markRunning = some state → CellStep move ticket cell
        { cell with state, runs := cell.runs + 1, runner := some move.thread }
  | finish {state : TicketState} : Finishes cell.state state → move.EndsJob ticket →
      move.next.settled = true → CellStep move ticket cell { cell with state, locked := true }
  | cancelPending {state : TicketState} : cell.state.cancelPending = some state →
      move.next.settled = true → CellStep move ticket cell { cell with state, locked := true }
  | cancel {state : TicketState} : cell.state.cancel = some (state, true) → move.next.settled = true →
      CellStep move ticket cell { cell with state, locked := true, cancelled := true }

/-- The job ran once when the status says that it was started, and never otherwise; a ticket whose
`cancel` returned true is cancelled; there is an error when the ticket failed. -/
structure Cell.Sound (cell : Cell) : Prop where
  runs : cell.runs = if cell.state.status = .pending ∨ cell.state.status = .cancelled then 0 else 1
  runner : cell.runner.isSome = true ↔ cell.runs = 1
  cancelled : cell.cancelled = true → cell.state.status = .cancelled
  error : cell.state.error.isSome = true ↔ cell.state.status = .failed

theorem Cell.sound_empty : Cell.Sound {} := by
  constructor <;> simp

theorem TicketState.markRunning_eq_some {state state' : TicketState} :
    state.markRunning = some state' ↔
      state.closed = false ∧ state.status = .pending ∧ state' = { state with status := .running } := by
  unfold markRunning
  split
  · next refused =>
    simp only [reduceCtorEq, false_iff, not_and]
    intro isOpen pending
    simp [isOpen, pending] at refused
  · next accepted =>
    simp only [not_or, Bool.not_eq_true, ne_eq, not_not] at accepted
    simp [accepted, eq_comm]

theorem TicketState.cancel_eq_some {state state' : TicketState} :
    state.cancel = some (state', true) ↔
      state.closed = false ∧ state.status = .pending ∧ state' = { state with status := .cancelled } := by
  unfold cancel
  split
  · next closed => simp [closed]
  · next isOpen =>
    split
    · next pending => simp [pending, isOpen, eq_comm]
    · next settled => simp [settled]

theorem TicketState.cancelPending_eq_some {state state' : TicketState} :
    state.cancelPending = some state' ↔ state.status = .pending ∧ state' = { state with status := .cancelled } := by
  unfold cancelPending
  split
  · next pending => simp [pending, eq_comm]
  · next settled => simp [settled]

theorem Finishes.status {state state' : TicketState} (h : Finishes state state') :
    state.status = .running
      ∧ (state'.status = .completed ∧ state'.error = state.error
        ∨ state'.status = .failed ∧ state'.error.isSome) := by
  cases h with
  | complete taken =>
    unfold TicketState.markCompleted at taken
    split at taken
    · next running => obtain rfl := Option.some.inj taken; simp [running]
    · cases taken
  | fail taken =>
    unfold TicketState.markFailed at taken
    split at taken
    · next running => obtain rfl := Option.some.inj taken; simp [running]
    · cases taken

theorem Finishes.isTerminal {state state' : TicketState} (h : Finishes state state') :
    state'.isTerminal = true := by
  obtain ⟨-, ⟨completed, -⟩ | ⟨failed, -⟩⟩ := h.status
  · simp [TicketState.isTerminal, completed, Status.isDone]
  · simp [TicketState.isTerminal, failed, Status.isDone]

namespace CellStep

theorem moves (h : CellStep move ticket cell cell') : cell.state.status.Moves cell'.state.status := by
  cases h with
  | same => exact .stay _
  | unlock => exact .stay _
  | close => exact .stay _
  | start taken =>
    obtain ⟨-, pending, rfl⟩ := TicketState.markRunning_eq_some.1 taken
    show cell.state.status.Moves .running
    rw [pending]
    exact .start
  | finish finishes =>
    show cell.state.status.Moves _
    obtain ⟨running, ⟨completed, -⟩ | ⟨failed, -⟩⟩ := finishes.status
    · rw [running, completed]
      exact .complete
    · rw [running, failed]
      exact .fail
  | cancelPending taken =>
    obtain ⟨pending, rfl⟩ := TicketState.cancelPending_eq_some.1 taken
    show cell.state.status.Moves .cancelled
    rw [pending]
    exact .cancel
  | cancel taken =>
    obtain ⟨-, pending, rfl⟩ := TicketState.cancel_eq_some.1 taken
    show cell.state.status.Moves .cancelled
    rw [pending]
    exact .cancel

theorem sound (h : CellStep move ticket cell cell') (sound : cell.Sound) : cell'.Sound := by
  obtain ⟨runs, runner, cancelled, error⟩ := sound
  cases h with
  | same => exact ⟨runs, runner, cancelled, error⟩
  | unlock => exact ⟨runs, runner, cancelled, error⟩
  | close => exact ⟨runs, runner, cancelled, error⟩
  | start taken =>
    obtain ⟨-, pending, rfl⟩ := TicketState.markRunning_eq_some.1 taken
    constructor <;> simp_all
  | finish finishes =>
    obtain ⟨before, ⟨after, stored⟩ | ⟨after, stored⟩⟩ := finishes.status
    all_goals constructor <;> simp_all
  | cancelPending taken =>
    obtain ⟨pending, rfl⟩ := TicketState.cancelPending_eq_some.1 taken
    constructor <;> simp_all
  | cancel taken =>
    obtain ⟨-, pending, rfl⟩ := TicketState.cancel_eq_some.1 taken
    constructor <;> simp_all

theorem terminal (h : CellStep move ticket cell cell') (terminal : cell.state.isTerminal = true) :
    cell'.state.isTerminal = true := by
  cases h with
  | same => exact terminal
  | unlock => exact terminal
  | close => simp [TicketState.isTerminal, TicketState.close]
  | start taken =>
    obtain ⟨isOpen, pending, rfl⟩ := TicketState.markRunning_eq_some.1 taken
    simp [TicketState.isTerminal, isOpen, pending, Status.isDone] at terminal
  | finish finishes => exact finishes.isTerminal
  | cancelPending taken =>
    obtain ⟨-, rfl⟩ := TicketState.cancelPending_eq_some.1 taken
    simp [TicketState.isTerminal, Status.isDone]
  | cancel taken =>
    obtain ⟨-, -, rfl⟩ := TicketState.cancel_eq_some.1 taken
    simp [TicketState.isTerminal, Status.isDone]

theorem becomes_terminal (h : CellStep move ticket cell cell')
    (before : cell.state.isTerminal = false) (after : cell'.state.isTerminal = true) :
    move.action = .call (.closeTicket ticket) ∨ move.next.settled = true := by
  cases h with
  | same => exact absurd (before.symm.trans after) (by simp)
  | unlock => exact absurd (before.symm.trans after) (by simp)
  | close called => exact .inl called
  | start taken =>
    obtain ⟨isOpen, pending, rfl⟩ := TicketState.markRunning_eq_some.1 taken
    simp [TicketState.isTerminal, isOpen, Status.isDone] at after
  | finish _ _ settled => exact .inr settled
  | cancelPending _ settled => exact .inr settled
  | cancel _ settled => exact .inr settled

theorem of_running (h : CellStep move ticket cell cell') (running : cell.state.status = .running) :
    cell'.state = cell.state ∨ move.EndsJob ticket := by
  cases h with
  | same => exact .inl rfl
  | unlock => exact .inl rfl
  | close called => exact .inr (.inr (.inr ⟨_, called, by simp [Call.endsJob]⟩))
  | start taken =>
    obtain ⟨-, pending, -⟩ := TicketState.markRunning_eq_some.1 taken
    exact absurd (pending.symm.trans running) (by simp)
  | finish _ ends => exact .inr ends
  | cancelPending taken =>
    obtain ⟨pending, -⟩ := TicketState.cancelPending_eq_some.1 taken
    exact absurd (pending.symm.trans running) (by simp)
  | cancel taken =>
    obtain ⟨-, pending, -⟩ := TicketState.cancel_eq_some.1 taken
    exact absurd (pending.symm.trans running) (by simp)

theorem keeps_running (h : CellStep move ticket cell cell') (running : cell.state.status = .running) :
    cell'.state.status = .running ∨ move.next.settled = true := by
  cases h with
  | same => exact .inl running
  | unlock => exact .inl running
  | close => exact .inl running
  | start taken =>
    obtain ⟨-, -, rfl⟩ := TicketState.markRunning_eq_some.1 taken
    exact .inl rfl
  | finish _ _ settled => exact .inr settled
  | cancelPending _ settled => exact .inr settled
  | cancel _ settled => exact .inr settled

theorem cancelled (h : CellStep move ticket cell cell') (cancelled : cell.cancelled = true) :
    cell'.cancelled = true := by
  cases h with
  | cancel => rfl
  | _ => exact cancelled

theorem runs_le (h : CellStep move ticket cell cell') : cell.runs ≤ cell'.runs := by
  cases h with
  | start => exact Nat.le_succ _
  | _ => exact Nat.le_refl _

theorem runner (h : CellStep move ticket cell cell') (sound : cell.Sound)
    (runs : cell.runner = some other) : cell'.runner = some other := by
  cases h with
  | start taken =>
    obtain ⟨-, pending, -⟩ := TicketState.markRunning_eq_some.1 taken
    have once := sound.runner.1 (by rw [runs]; rfl)
    rw [sound.runs, pending, if_pos (.inl rfl)] at once
    omega
  | _ => exact runs

end CellStep

end BasicNext.Dispatch
