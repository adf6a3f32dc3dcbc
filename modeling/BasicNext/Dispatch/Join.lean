import BasicNext.Dispatch.Tickets

/-!
# What `Queue::join` waits for

`join` returns when every ticket of the queue is terminal. A ticket is terminal when its job has come to
an end, but also when it was closed, or marked completed or failed, while a worker is in the job. In the
runs in which no thread does that, no job that was submitted before the join is running when it returns.
-/

namespace BasicNext.Dispatch

open BasicNext.Lib (Program Config)

variable {thread worker : Thread} {shared shared' : Shared} {action : Action} {ticket : TicketId}
  {workers limit : Nat} {config config' : Config Thread Shared Point}

/-- The step is no call that makes a ticket terminal while a worker is in its job. -/
def SparesJobs (config : Config Thread Shared Point) (label : Thread × Action) : Prop :=
  ∀ call ticket, label.2 = .call call → call.endsJob ticket = true → ∀ worker, config.locals worker ≠ .worker (.job ticket)

theorem keeps_job {point : Point} {point' : Point} (sound : shared.Sound)
    (here : Local thread shared point) (differs : worker ≠ thread)
    (h : act thread shared point action = some (shared', point'))
    (spares : ∀ call, action = .call call → call.endsJob ticket = false)
    (runner : (shared.cell ticket).runner = some worker)
    (running : (shared.cell ticket).state.status = .running) :
    (shared'.cell ticket).state = (shared.cell ticket).state := by
  have step := (act_establishes sound here h).guarantee.cell ticket
  -- the two points of a worker after the job belong to the runner of the ticket
  have other : (shared.cell ticket).runner ≠ some thread := by
    intro same
    rw [runner] at same
    exact differs (Option.some.inj same)
  rcases step.of_running running with same | complete | panicked | ⟨call, called, ends⟩
  · exact same
  · obtain rfl : point = .worker (.complete ticket) := complete
    exact absurd here.2 other
  · obtain rfl : point = .worker (.panicked ticket) := panicked
    exact absurd here.2 other
  · exact absurd ((spares call called).symm.trans ends) (by simp)

theorem running_of_job (reached : ((queue workers limit).restrict SparesJobs).Reachable config) :
    ∀ worker ticket, config.locals worker = .worker (.job ticket) → (config.shared.cell ticket).state.status = .running
        ∧ (config.shared.cell ticket).state.closed = false := by
  induction reached with
  | initial start =>
    intro worker ticket inside
    obtain rfl := start
    rcases newQueue_locals workers limit worker with rest | rest <;> cases rest.symm.trans inside
  | @step config label config' reached move ih =>
    obtain ⟨thread, action⟩ := label
    obtain ⟨spares, move⟩ := move
    have holds := holds_of_reachable reached
    obtain ⟨state, act, self, rest⟩ := Program.next_locals move
    intro worker ticket inside
    by_cases same : worker = thread
    · rw [same, self] at inside
      rw [inside] at act
      obtain ⟨-, running, isOpen, -⟩ := act_job act
      exact ⟨running, isOpen⟩
    · -- a notification does not move a worker out of its job or into it
      have before : config.locals worker = .worker (.job ticket) := by
        rw [rest worker same] at inside
        split at inside
        · have inside : wake (config.locals worker) = .worker (.job ticket) := inside
          unfold wake at inside
          split at inside
          · cases inside
          · cases inside
          · exact inside
        · exact inside
      obtain ⟨running, isOpen⟩ := ih worker ticket before
      have mine := holds.thread worker
      rw [before] at mine
      have kept := keeps_job holds.shared (holds.thread thread) same act
        (fun call called => by
          have spared := spares call ticket called
          by_contra ends
          exact spared (Bool.of_not_eq_false ends) worker before)
        mine.2 running
      rw [kept]
      exact ⟨running, isOpen⟩

/-- In every run in which no call makes a ticket terminal while its job runs, `join` returns `Ok` only
when no job submitted before the join is running. -/
theorem join_waits (reached : ((queue workers limit).restrict SparesJobs).Reachable config)
    (returning : config.locals thread = .join (.check []))
    (returns : program.next config (thread, .proceed) = some config') :
    ∀ ticket ∈ config.shared.before thread, ∀ worker, config'.locals worker ≠ .worker (.job ticket) := by
  intro ticket member worker inside
  have checked := (holds_of_reachable reached).thread thread
  rw [returning] at checked
  have terminal : config.shared.terminal ticket = true := (checked.2.2 ticket member).resolve_right List.not_mem_nil
  -- the return gives back the lock and changes no ticket
  obtain ⟨state, returned, -, -⟩ := Program.next_locals returns
  rw [returning] at returned
  have same : config'.shared.cell = config.shared.cell := by
    obtain ⟨shared, -⟩ := Prod.mk.inj (Option.some.inj returned)
    rw [← shared]
  have spares : SparesJobs config (thread, .proceed) := by
    rintro call ticket ⟨⟩
  have after : ((queue workers limit).restrict SparesJobs).Reachable config' := reached.step ⟨spares, returns⟩
  obtain ⟨running, isOpen⟩ := running_of_job after worker ticket inside
  rw [same] at running isOpen
  simp [Shared.terminal, TicketState.isTerminal, running, isOpen, Status.isDone] at terminal

def submitAndStart : List (Thread × Action) :=
  (.user 0, .call .submit) :: List.replicate 4 (.user 0, .proceed)
    ++ List.replicate 2 (.worker 0, .proceed)

/-- A join that has looked at the only ticket. -/
def joinAndExamine : List (Thread × Action) := [(.user 1, .call .join), (.user 1, .proceed), (.user 1, .examine 0)]

/-- The worker ends the job before the join looks. -/
def endAndJoin : List (Thread × Action) := submitAndStart ++ List.replicate 4 (.worker 0, .proceed) ++ joinAndExamine

/-- The step is no call that can end a job. -/
def endsNoJob (label : Thread × Action) : Bool :=
  match label.2 with
  | .call (.closeTicket _) | .call (.markCompleted _) | .call (.markFailed _ _ _) => false
  | _ => true

theorem spares_of_endsNoJob {label : Thread × Action} (h : endsNoJob label = true) :
    SparesJobs config label := by
  intro call ticket called ends
  unfold endsNoJob at h
  rw [called] at h
  cases call with
  | closeTicket other => cases h
  | markCompleted other => cases h
  | markFailed other => cases h
  | _ => exact absurd ends (by simp [Call.endsJob])

/-- The join returns when the worker has ended the job. -/
theorem join_waits_jobEnded : ∃ config config', ((queue 1 1).restrict SparesJobs).Reachable config
      ∧ config.locals (.user 1) = .join (.check [])
      ∧ program.next config (.user 1, .proceed) = some config'
      ∧ config.shared.before (.user 1) = [0]
      ∧ ∀ ticket ∈ config.shared.before (.user 1), ∀ worker, config'.locals worker ≠ .worker (.job ticket) := by
  obtain ⟨config, config', run, returning, returns, before⟩ : ∃ config config',
      endAndJoin.foldlM (fun config label => if endsNoJob label then program.next config label else none)
          (newQueue 1 1) = some config
        ∧ config.locals (.user 1) = .join (.check [])
        ∧ program.next config (.user 1, .proceed) = some config'
        ∧ config.shared.before (.user 1) = [0] :=
    ⟨_, _, rfl, rfl, rfl, rfl⟩
  have start : ((queue 1 1).restrict SparesJobs).Reachable (newQueue 1 1) := .initial rfl
  have reached := start.foldlM_restrict (fun _ _ => spares_of_endsNoJob) run
  exact ⟨config, config', reached, returning, returns, before, join_waits reached returning returns⟩

/-- The ticket is closed while the worker is in the job. -/
def closeAndJoin : List (Thread × Action) := submitAndStart ++ (.user 0, .call (.closeTicket 0)) :: joinAndExamine

/-- The join of a queue whose ticket was closed returns `Ok`, and the job is still running. -/
theorem join_returns_while_running : ∃ config config', (queue 1 1).Reachable config
      ∧ config.locals (.user 1) = .join (.check [])
      ∧ program.next config (.user 1, .proceed) = some config'
      ∧ 0 ∈ config.shared.before (.user 1)
      ∧ config'.locals (.worker 0) = .worker (.job 0) := by
  obtain ⟨config, config', run, returning, returns, before, inside⟩ : ∃ config config',
      closeAndJoin.foldlM program.next (newQueue 1 1) = some config
        ∧ config.locals (.user 1) = .join (.check [])
        ∧ program.next config (.user 1, .proceed) = some config'
        ∧ 0 ∈ config.shared.before (.user 1)
        ∧ config'.locals (.worker 0) = .worker (.job 0) :=
    ⟨_, _, rfl, rfl, rfl, List.mem_singleton_self _, rfl⟩
  exact ⟨config, config', (Lib.System.Reachable.initial rfl).foldlM run, returning, returns, before, inside⟩

end BasicNext.Dispatch
