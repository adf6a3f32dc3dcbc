import BasicNext.Dispatch.Steps

/-!
# Tickets under every interleaving

The life of a ticket over every run: its status only moves forward, its job runs once, and a ticket
whose `cancel` returned true never runs.
-/

namespace BasicNext.Dispatch

open BasicNext.Lib (Program Config)

variable {thread other : Thread} {shared shared' : Shared} {point point' : Point} {action : Action}
  {ticket : TicketId} {cell cell' : Cell} {move : Move} {workers limit : Nat}
  {config config' : Config Thread Shared Point}

/-! ### Where a step can lead -/

theorem joinStep_point {point : JoinPoint} (h : joinStep thread shared point action = some (shared', point')) :
    point' = .idle ∨ ∃ next, point' = .join next := by
  unfold joinStep at h
  grind

theorem closeStep_point {point : ClosePoint} (h : closeStep thread shared point action = some (shared', point')) :
    point' = .idle ∨ ∃ next, point' = .close next := by
  unfold closeStep at h
  grind

theorem submitStep_point {point : SubmitPoint} (h : submitStep thread shared point action = some (shared', point')) :
    point' = .idle ∨ ∃ next, point' = .submit next := by
  unfold submitStep at h
  grind

theorem callStep_point {call : Call} (h : callStep thread shared call = some (shared', point')) :
    point' = .idle ∨ point' = .join .lock ∨ point' = .close .lock ∨ point' = .submit .lock
      ∨ ∃ ticket, point' = .ticket ticket := by
  unfold callStep at h
  grind

theorem workerStep_point {point : WorkerPoint} (h : workerStep thread shared point action = some (shared', point')) :
    ∃ next, point' = .worker next := by
  unfold workerStep at h
  grind

theorem act_job (h : act thread shared point action = some (shared', .worker (.job ticket))) :
    (shared.cell ticket).state.status = .pending
      ∧ (shared'.cell ticket).state.status = .running
      ∧ (shared'.cell ticket).state.closed = false
      ∧ (shared'.cell ticket).runs = (shared.cell ticket).runs + 1 := by
  unfold act at h
  split at h
  · split at h
    · simpa using callStep_point h
    · cases h
  · simpa using joinStep_point h
  · simpa using closeStep_point h
  · simpa using submitStep_point h
  · simp at h
  · unfold workerStep at h
    split at h
    case h_2 =>
      split at h
      · cases h
      · split at h
        · next state taken =>
          cases h
          obtain ⟨isOpen, pending, rfl⟩ := TicketState.markRunning_eq_some.1 taken
          simp [Shared.setCell, pending, isOpen]
        · cases h
    all_goals grind
  · cases h

/-- What `cell` can become in any number of steps. -/
structure Cell.Later (cell later : Cell) : Prop where
  done : cell.state.status.isDone = true → later.state.status = cell.state.status
  cancelled : cell.cancelled = true → later.cancelled = true
  runs : cell.runs ≤ later.runs

theorem Cell.Later.refl : Cell.Later cell cell := ⟨fun _ => rfl, id, Nat.le_refl _⟩

theorem Status.Moves.of_isDone {status status' : Status} (moves : status.Moves status')
    (done : status.isDone = true) : status' = status := by
  cases moves with
  | stay => rfl
  | start => cases done
  | complete => cases done
  | fail => cases done
  | cancel => cases done

theorem Cell.Later.step {later later' : Cell} (before : Cell.Later cell later)
    (step : CellStep move ticket later later') : Cell.Later cell later' where
  done done := by
    have same := before.done done
    rw [step.moves.of_isDone (same ▸ done), same]
  cancelled cancelled := step.cancelled (before.cancelled cancelled)
  runs := Nat.le_trans before.runs step.runs_le

/-- What is promised about the tickets of a queue. -/
structure TicketLife (config : Config Thread Shared Point) : Prop where
  /-- The job ran at most once, only if the status became `RUNNING`, and never when a `cancel`
  returned true; an error is stored when the status is `FAILED`. -/
  cell : ∀ ticket, (config.shared.cell ticket).Sound
  /-- Two threads are never in the job of one ticket. -/
  job : ∀ thread ticket, config.locals thread = .worker (.job ticket) → (config.shared.cell ticket).runner = some thread
  moves : ∀ label config', program.next config label = some config' → ∀ ticket,
    (config.shared.cell ticket).state.status.Moves (config'.shared.cell ticket).state.status
  /-- The job is entered from `PENDING`, and counted. -/
  starts : ∀ thread action config' ticket, program.next config (thread, action) = some config' →
    config'.locals thread = .worker (.job ticket) →
    (config.shared.cell ticket).state.status = .pending
      ∧ (config'.shared.cell ticket).state.status = .running
      ∧ (config'.shared.cell ticket).runs = (config.shared.cell ticket).runs + 1
  later : ∀ (labels : List (Thread × Action)) config', labels.foldlM program.next config = some config' → ∀ ticket,
    (config.shared.cell ticket).Later (config'.shared.cell ticket)

theorem reachable_restrict (reached : (queue workers limit).Reachable config) :
    ((queue workers limit).restrict fun _ _ => True).Reachable config := by
  induction reached with
  | initial start => exact .initial start
  | step _ move ih => exact ih.step ⟨trivial, move⟩

theorem next_cell (reached : (queue workers limit).Reachable config) {label : Thread × Action}
    (step : program.next config label = some config') (ticket : TicketId) :
    ∃ move, CellStep move ticket (config.shared.cell ticket) (config'.shared.cell ticket) := by
  have holds := holds_of_reachable (reachable_restrict reached)
  obtain ⟨state, act, -, -⟩ := Program.next_locals step
  exact ⟨_, (act_establishes holds.shared (holds.thread label.1) act).guarantee.cell ticket⟩

theorem later_of_run {labels : List (Thread × Action)} (reached : (queue workers limit).Reachable config)
    (run : labels.foldlM program.next config = some config') (ticket : TicketId) :
    (config.shared.cell ticket).Later (config'.shared.cell ticket) := by
  have kept := Lib.System.foldlM_keeps
    (P := fun middle => (queue workers limit).Reachable middle
      ∧ (config.shared.cell ticket).Later (middle.shared.cell ticket))
    (fun middle label next before step =>
      ⟨before.1.step step, before.2.step (next_cell before.1 step ticket).choose_spec⟩)
    ⟨reached, .refl⟩ run
  exact kept.2

/-- In every interleaving the tickets live as promised. -/
theorem tickets_live (reached : (queue workers limit).Reachable config) : TicketLife config := by
  have holds := holds_of_reachable (reachable_restrict reached)
  refine ⟨holds.shared.cell, fun thread ticket inside => ?_, fun label config' move ticket => ?_,
    fun thread action config' ticket move inside => ?_, fun labels config' run ticket => ?_⟩
  · have here := holds.thread thread
    rw [inside] at here
    exact here.2
  · obtain ⟨_, step⟩ := next_cell reached move ticket
    exact step.moves
  · obtain ⟨state, act, self, -⟩ := Program.next_locals move
    obtain rfl : state = .worker (.job ticket) := self.symm.trans inside
    obtain ⟨pending, running, -, runs⟩ := act_job act
    exact ⟨pending, running, runs⟩
  · exact later_of_run reached run ticket

/-- A job is submitted and run to its end. -/
def submitAndRun : List (Thread × Action) :=
  (.user 0, .call .submit) :: List.replicate 4 (.user 0, .proceed)
    ++ List.replicate 6 (.worker 0, .proceed)

theorem tickets_live_submitAndRun : ∃ config, (queue 1 1).Reachable config
    ∧ (config.shared.cell 0).state.status = .completed ∧ (config.shared.cell 0).runs = 1
    ∧ TicketLife config := by
  obtain ⟨config, run, completed, runs⟩ : ∃ config, submitAndRun.foldlM program.next (newQueue 1 1) = some config
        ∧ (config.shared.cell 0).state.status = .completed ∧ (config.shared.cell 0).runs = 1 :=
    ⟨_, rfl, rfl, rfl⟩
  have reached : (queue 1 1).Reachable config := (Lib.System.Reachable.initial rfl).foldlM run
  exact ⟨config, reached, completed, runs, tickets_live reached⟩

end BasicNext.Dispatch
