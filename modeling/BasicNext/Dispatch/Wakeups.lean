import BasicNext.Dispatch.Tickets

/-!
# Wakeups of `Queue::join` and `Queue::close`

Both look at the tickets one by one under their own locks and then wait for the queue's condition
variable. A ticket operation notifies the condition variable without the queue's lock, so that the last
notification can come between the look and the wait; and `Ticket::close` makes a ticket terminal without
any notification. In the runs in which neither happens to a thread that will wait, no wakeup is lost.
-/

namespace BasicNext.Dispatch

open BasicNext.Lib (Program Config)

variable {thread other : Thread} {shared shared' : Shared} {point point' : Point} {action : Action}
  {ticket : TicketId} {move : Move} {workers limit : Nat} {config config' : Config Thread Shared Point}

/-! ### Threads that wait and threads that notify -/

/-- A ticket was not terminal, and the wait comes next. -/
def Point.inWindow : Point → Bool
  | .join .decide | .close .decide | .close .waitLocked => true
  | _ => false

def Point.isBlocked : Point → Bool
  | .join .wait | .close .wait => true
  | _ => false

def Point.Waits (point : Point) : Prop := point.inWindow = true ∨ point.isBlocked = true

/-- The thread will notify the queue. -/
def Notifies (shared : Shared) : Point → Prop
  | .close (.cancel _) | .close (.cancelNotify _ _) | .close .takeSender | .close .notify
  | .submit .notify | .ticket _ | .worker (.notify _) => True
  | .worker (.job ticket) | .worker (.returned ticket) | .worker (.panicked ticket)
  | .worker (.complete ticket) => (shared.cell ticket).state.status = .running
  | _ => False

/-- The notification that comes next is the last one the thread will make. -/
def Point.isLastNotification : Point → Bool
  | .close .notify | .submit .notify | .ticket _ | .worker (.notify _) => true
  | _ => false

/-- The ticket of a submitted job is not terminal. -/
def Unfinished (shared : Shared) : Prop := ∃ ticket ∈ shared.sent, shared.terminal ticket = false

/-- Every ticket of the queue is terminal, a thread is blocked in its wait, and none will notify it. -/
structure LostWakeup (config : Config Thread Shared Point) : Prop where
  terminal : ∀ ticket ∈ config.shared.tickets, config.shared.terminal ticket = true
  blocked : ∃ thread, (config.locals thread).isBlocked = true
  silent : ∀ thread, ¬ Notifies config.shared (config.locals thread)

/-- The last notification of a thread does not come while another one is about to wait, unless a ticket
is unfinished or another notification comes; and `Ticket::close` does not make a ticket terminal while a
thread waits or is about to, with the same exceptions. -/
structure Timely (config : Config Thread Shared Point) (label : Thread × Action) : Prop where
  notification : (config.locals label.1).isLastNotification = true → (∃ thread, (config.locals thread).inWindow = true) →
    Unfinished config.shared
      ∨ ∃ thread, thread ≠ label.1 ∧ Notifies config.shared (config.locals thread)
  close : ∀ ticket, label.2 = .call (.closeTicket ticket) → config.shared.terminal ticket = false →
    (∃ thread, (config.locals thread).Waits) →
    (∃ other ∈ config.shared.sent, other ≠ ticket ∧ config.shared.terminal other = false)
      ∨ ∃ thread, Notifies config.shared (config.locals thread)

/-! ### One step -/

theorem Notifies.of_settled (settled : point.settled = true) : Notifies shared point := by
  unfold Point.settled at settled
  split at settled
  · trivial
  · trivial
  · trivial
  · cases settled

theorem Notifies.stable (guarantee : Guarantee move shared shared') (notifies : Notifies shared point) :
    Notifies shared' point ∨ move.next.settled = true := by
  unfold Notifies at notifies
  split at notifies
  all_goals try exact .inl trivial
  all_goals try exact (guarantee.cell _).keeps_running notifies
  exact notifies.elim

theorem Unfinished.step (guarantee : Guarantee move shared shared') (open' : shared.terminal ticket = false)
    (sent : ticket ∈ shared.sent) :
    Unfinished shared' ∨ move.action = .call (.closeTicket ticket) ∨ move.next.settled = true := by
  by_cases terminal : shared'.terminal ticket = true
  · exact .inr ((guarantee.cell ticket).becomes_terminal open' terminal)
  · exact .inl ⟨ticket, guarantee.sent ticket sent, Bool.eq_false_iff.2 terminal⟩

theorem closeStep_notifies {point : ClosePoint} (notifies : Notifies shared (.close point))
    (h : closeStep thread shared point action = some (shared', point')) :
    Notifies shared' point' ∨ (Point.close point).isLastNotification = true := by
  unfold closeStep at h
  split at h
  -- `cancel`
  case h_2 =>
    refine .inl ?_
    split at h
    · split at h
      · cases h
        trivial
      · cases h
        trivial
    · cases h
  -- `cancelNotify`, the end of `cancel`, `takeSender`
  case h_3 =>
    cases h
    exact .inl trivial
  case h_4 =>
    cases h
    exact .inl trivial
  case h_5 =>
    cases h
    exact .inl trivial
  case h_6 => exact .inr rfl
  all_goals first | exact notifies.elim | cases h

theorem workerStep_notifies {point : WorkerPoint} (notifies : Notifies shared (.worker point))
    (h : workerStep thread shared point action = some (shared', point')) :
    Notifies shared' point' ∨ (Point.worker point).isLastNotification = true := by
  unfold workerStep at h
  split at h
  case h_3 =>
    cases h
    exact .inl notifies
  case h_4 =>
    cases h
    exact .inl notifies
  -- `returned`: the status is still `RUNNING`
  case h_5 =>
    have running : (shared.cell _).state.status = .running := notifies
    rw [if_pos running] at h
    split at h
    · cases h
    · cases h
      exact .inl notifies
  -- `complete` and `panicked` take effect
  case h_6 =>
    have running : (shared.cell _).state.status = .running := notifies
    rw [TicketState.markCompleted, if_pos running] at h
    split at h
    · cases h
    · cases h
      exact .inl trivial
  case h_7 =>
    have running : (shared.cell _).state.status = .running := notifies
    rw [TicketState.markFailed, if_pos running] at h
    split at h
    · cases h
    · cases h
      exact .inl trivial
  case h_8 => exact .inr rfl
  all_goals first | exact notifies.elim | cases h

theorem Notifies.step (notifies : Notifies shared point) (h : act thread shared point action = some (shared', point')) :
    Notifies shared' point' ∨ point.isLastNotification = true := by
  cases point with
  | idle => exact notifies.elim
  | join point => exact notifies.elim
  | close point => exact closeStep_notifies notifies h
  | submit point =>
    cases point with
    | notify => exact .inr rfl
    | lock => exact notifies.elim
    | retain rest => exact notifies.elim
    | send ticket => exact notifies.elim
  | ticket ticket => exact .inr rfl
  | worker point => exact workerStep_notifies notifies h

theorem signals_of_last (last : point.isLastNotification = true)
    (h : act thread shared point action = some (shared', point')) : signals point action = true := by
  unfold Point.isLastNotification at last
  split at last
  all_goals try cases last
  all_goals cases action <;> first | rfl | cases h

theorem proceed_of_signals (h : signals point action = true) : action = .proceed := by
  unfold signals at h
  split at h
  all_goals first | rfl | cases h

theorem not_waits (h : point.inWindow = false) (h' : point.isBlocked = false) : ¬ point.Waits := by
  simp [Point.Waits, h, h']

theorem not_waits_of_last (last : point.isLastNotification = true) : ¬ point.Waits := by
  unfold Point.isLastNotification at last
  split at last
  all_goals first | exact not_waits rfl rfl | cases last

theorem joinStep_waits {point : JoinPoint} (here : Local thread shared (.join point))
    (h : joinStep thread shared point action = some (shared', point')) (waits : point'.Waits) :
    (Point.join point).Waits ∨ Unfinished shared' := by
  unfold joinStep at h
  split at h
  -- `check`: the ticket the loop came to
  case h_2 rest ticket =>
    obtain ⟨held, inMap, -⟩ := here
    split at h
    · next found =>
      split at h
      · cases h
        exact absurd waits (not_waits rfl rfl)
      · next unfinished =>
        cases h
        exact .inr ⟨ticket, held.sent ticket (inMap ticket found.1), Bool.eq_false_iff.2 unfinished⟩
    · cases h
  case h_5 => exact .inl (.inl rfl)
  case h_1 =>
    split at h <;> cases h
    exact absurd waits (not_waits rfl rfl)
  case h_7 => cases h
  all_goals
    cases h
    exact absurd waits (not_waits rfl rfl)

theorem closeStep_waits {point : ClosePoint} (here : Local thread shared (.close point))
    (h : closeStep thread shared point action = some (shared', point')) (waits : point'.Waits) :
    (Point.close point).Waits ∨ Unfinished shared' := by
  unfold closeStep at h
  split at h
  -- `check`: the ticket the loop came to
  case h_8 rest ticket =>
    obtain ⟨⟨held, inMap⟩, -⟩ := here
    split at h
    · next found =>
      split at h
      · cases h
        exact absurd waits (not_waits rfl rfl)
      · next unfinished =>
        cases h
        exact .inr ⟨ticket, held.sent ticket (inMap ticket found.1), Bool.eq_false_iff.2 unfinished⟩
    · cases h
  -- `decide` and `waitLocked`
  case h_11 => exact .inl (.inl rfl)
  case h_12 => exact .inl (.inl rfl)
  case h_2 =>
    split at h
    · split at h <;> cases h
      all_goals exact absurd waits (not_waits rfl rfl)
    · cases h
  all_goals
    try split at h
    all_goals cases h
    all_goals exact absurd waits (not_waits rfl rfl)

theorem waits_of_unfinished (here : Local thread shared point)
    (h : act thread shared point action = some (shared', point')) (waits : point'.Waits) :
    point.Waits ∨ Unfinished shared' := by
  unfold act at h
  split at h
  · split at h
    · rcases callStep_point h with rfl | rfl | rfl | rfl | ⟨ticket, rfl⟩
      all_goals exact absurd waits (not_waits rfl rfl)
    · cases h
  · exact joinStep_waits here h waits
  · exact closeStep_waits here h waits
  · rcases submitStep_point h with rfl | ⟨next, rfl⟩
    all_goals exact absurd waits (not_waits rfl rfl)
  · cases h
    exact absurd waits (not_waits rfl rfl)
  · obtain ⟨next, rfl⟩ := workerStep_point h
    exact absurd waits (not_waits rfl rfl)
  · cases h

/-! ### Every timely run -/

def Awaited (config : Config Thread Shared Point) : Prop :=
  (∃ thread, (config.locals thread).Waits) →
    Unfinished config.shared ∨ ∃ thread, Notifies config.shared (config.locals thread)

theorem waits_of_wake (waits : (wake point).Waits) : point.Waits := by
  unfold wake at waits
  split at waits
  · exact absurd waits (not_waits rfl rfl)
  · exact absurd waits (not_waits rfl rfl)
  · exact waits

theorem inWindow_of_wake (waits : (wake point).Waits) : point.inWindow = true := by
  unfold wake at waits
  split at waits
  · exact absurd waits (not_waits rfl rfl)
  · exact absurd waits (not_waits rfl rfl)
  · next notJoin notClose =>
    refine waits.resolve_right fun blocked => ?_
    unfold Point.isBlocked at blocked
    split at blocked
    · exact notJoin rfl
    · exact notClose rfl
    · cases blocked

theorem Notifies.wake (notifies : Notifies shared point) : Notifies shared (wake point) := by
  unfold Dispatch.wake
  split
  · exact notifies.elim
  · exact notifies.elim
  · exact notifies

theorem other_thread {label : Thread × Action} (step : program.next config label = some config')
    (differs : other ≠ label.1) :
    ((config'.locals other).Waits → (config.locals other).Waits)
      ∧ (signals (config.locals label.1) label.2 = true → (config'.locals other).Waits →
        (config.locals other).inWindow = true)
      ∧ ∀ shared, Notifies shared (config.locals other) → Notifies shared (config'.locals other) := by
  obtain ⟨state, -, -, others⟩ := Program.next_locals step
  rw [others other differs]
  by_cases signalled : signals (config.locals label.1) label.2 = true
  · rw [if_pos (show program.signals _ _ = true from signalled)]
    exact ⟨waits_of_wake, fun _ => inWindow_of_wake, fun _ => Notifies.wake⟩
  · rw [if_neg (show ¬ program.signals _ _ = true from signalled)]
    exact ⟨id, fun signalled' => absurd signalled' signalled, fun _ => id⟩

theorem Awaited.step {label : Thread × Action} (holds : Program.Holds Shared.Sound Local config)
    (awaited : Awaited config) (timely : Timely config label)
    (step : program.next config label = some config') : Awaited config' := by
  obtain ⟨state, act, self, -⟩ := Program.next_locals step
  have establishes := act_establishes holds.shared (holds.thread label.1) act
  -- the thread that stepped notifies next
  have settled : state.settled = true →
      Unfinished config'.shared ∨ ∃ thread, Notifies config'.shared (config'.locals thread) := by
    intro settled
    rw [← self] at settled
    exact .inr ⟨label.1, .of_settled settled⟩
  -- another thread that will notify goes on to
  have notifier : ∀ other, other ≠ label.1 → Notifies config.shared (config.locals other) →
      Unfinished config'.shared ∨ ∃ thread, Notifies config'.shared (config'.locals thread) := by
    intro other differs notifies
    rcases notifies.stable establishes.guarantee with notifies | settles
    · exact .inr ⟨other, (other_thread step differs).2.2 _ notifies⟩
    · exact settled settles
  -- an unfinished ticket stays so, or it is closed, or the thread that stepped notifies next
  have unfinished : ∀ ticket ∈ config.shared.sent, config.shared.terminal ticket = false →
      (Unfinished config'.shared ∨ ∃ thread, Notifies config'.shared (config'.locals thread))
        ∨ label.2 = .call (.closeTicket ticket) := by
    intro ticket sent notTerminal
    rcases Unfinished.step establishes.guarantee notTerminal sent with still | closed | settles
    · exact .inl (.inl still)
    · exact .inr closed
    · exact .inl (settled settles)
  rintro ⟨waiter, waits⟩
  by_cases last : (config.locals label.1).isLastNotification = true
  · have signalled := signals_of_last last act
    by_cases mine : waiter = label.1
    · rw [mine, self] at waits
      rcases waits_of_unfinished (holds.thread label.1) act waits with before | still
      · exact absurd before (not_waits_of_last last)
      · exact .inl still
    · -- the blocked threads are woken, so this one is about to wait
      have window := (other_thread step mine).2.1 signalled waits
      rcases timely.notification last ⟨waiter, window⟩ with
        ⟨ticket, sent, notTerminal⟩ | ⟨other, differs, notifies⟩
      · rcases unfinished ticket sent notTerminal with done | closed
        · exact done
        · cases closed.symm.trans (proceed_of_signals signalled)
      · exact notifier other differs notifies
  · have anyNotifier : ∀ other, Notifies config.shared (config.locals other) →
        Unfinished config'.shared ∨ ∃ thread, Notifies config'.shared (config'.locals thread) := by
      intro other notifies
      by_cases mine : other = label.1
      · rw [mine] at notifies
        have goesOn := (notifies.step act).resolve_right last
        rw [← self] at goesOn
        exact .inr ⟨label.1, goesOn⟩
      · exact notifier other mine notifies
    have waited : (∃ thread, (config.locals thread).Waits) ∨ Unfinished config'.shared := by
      by_cases mine : waiter = label.1
      · rw [mine, self] at waits
        exact (waits_of_unfinished (holds.thread label.1) act waits).imp_left fun before => ⟨_, before⟩
      · exact .inl ⟨waiter, (other_thread step mine).1 waits⟩
    rcases waited with waited | still
    · rcases awaited waited with ⟨ticket, sent, notTerminal⟩ | ⟨other, notifies⟩
      · rcases unfinished ticket sent notTerminal with done | closed
        · exact done
        · rcases timely.close ticket closed notTerminal waited with
            ⟨other, sent', differs, notTerminal'⟩ | ⟨other, notifies⟩
          · rcases unfinished other sent' notTerminal' with done | closed'
            · exact done
            · cases closed.symm.trans closed'
              exact absurd rfl differs
          · exact anyNotifier other notifies
      · exact anyNotifier other notifies
    · exact .inl still

theorem awaited_of_reachable (reached : ((queue workers limit).restrict Timely).Reachable config) : Awaited config := by
  induction reached with
  | initial start =>
    obtain rfl := start
    rintro ⟨thread, waits⟩
    rcases newQueue_locals workers limit thread with rest | rest
    all_goals
      rw [rest] at waits
      exact absurd waits (not_waits rfl rfl)
  | step reached move ih => exact ih.step (holds_of_reachable reached) move.1 move.2

/-- In every timely run no wakeup is lost. -/
theorem no_lost_wakeup (reached : ((queue workers limit).restrict Timely).Reachable config) : ¬ LostWakeup config := by
  rintro ⟨terminal, ⟨thread, blocked⟩, silent⟩
  rcases awaited_of_reachable reached ⟨thread, .inr blocked⟩ with ⟨ticket, sent, notTerminal⟩ | ⟨other, notifies⟩
  · have kept := ((holds_of_reachable reached).shared.sent ticket sent).2
    have closed := kept.elim (terminal ticket) id
    exact absurd (notTerminal.symm.trans closed) (by simp)
  · exact silent other notifies

/-! ### A wakeup that is lost -/

/-- A job is submitted, and a join looks at its ticket and waits. -/
def submitAndWait : List (Thread × Action) :=
  (.user 0, .call .submit) :: List.replicate 4 (.user 0, .proceed)
    ++ [(.user 1, .call .join), (.user 1, .proceed), (.user 1, .examine 0), (.user 1, .proceed)]

/-- A check of a step that is enough for it to be timely. -/
def timely (config : Config Thread Shared Point) (label : Thread × Action) : Bool :=
  (!(config.locals label.1).isLastNotification
      || config.shared.sent.any fun ticket => !config.shared.terminal ticket)
    && match label.2 with
      | .call (.closeTicket _) => false
      | _ => true

theorem Timely.of_check {label : Thread × Action} (h : timely config label = true) :
    Timely config label := by
  obtain ⟨notification, close⟩ := Bool.and_eq_true_iff.1 h
  constructor
  · intro last _
    rw [last] at notification
    obtain ⟨ticket, sent, notTerminal⟩ := List.any_eq_true.1 notification
    exact .inl ⟨ticket, sent, by simpa using notTerminal⟩
  · intro ticket called
    rw [called] at close
    cases close

/-- A join that waits for a job which no worker has received. -/
theorem no_lost_wakeup_submitAndWait : ∃ config, ((queue 1 1).restrict Timely).Reachable config
      ∧ (config.locals (.user 1)).isBlocked = true
      ∧ config.shared.terminal 0 = false
      ∧ ¬ LostWakeup config := by
  obtain ⟨config, run, blocked, notTerminal⟩ : ∃ config, submitAndWait.foldlM
          (fun config label => if timely config label then program.next config label else none)
          (newQueue 1 1) = some config
        ∧ (config.locals (.user 1)).isBlocked = true
        ∧ config.shared.terminal 0 = false :=
    ⟨_, rfl, rfl, rfl⟩
  have start : ((queue 1 1).restrict Timely).Reachable (newQueue 1 1) := .initial rfl
  have reached := start.foldlM_restrict (fun _ _ => Timely.of_check) run
  exact ⟨config, reached, blocked, notTerminal, no_lost_wakeup reached⟩

/-- The worker ends the job between the look of the join and its wait. -/
def notifyInWindow : List (Thread × Action) :=
  (.user 0, .call .submit) :: List.replicate 4 (.user 0, .proceed)
    ++ List.replicate 2 (.worker 0, .proceed)
    ++ [(.user 1, .call .join), (.user 1, .proceed), (.user 1, .examine 0)]
    ++ List.replicate 4 (.worker 0, .proceed) ++ [(.user 1, .proceed)]

/-- The only ticket is completed, the join waits, and every other thread is at rest. -/
theorem notifyInWindow_lost : ∃ config, notifyInWindow.foldlM program.next (newQueue 1 1) = some config
    ∧ (queue 1 1).Reachable config ∧ LostWakeup config := by
  obtain ⟨config, run, tickets, terminal, worker, user, joiner⟩ : ∃ config,
      notifyInWindow.foldlM program.next (newQueue 1 1) = some config
        ∧ config.shared.tickets = [0] ∧ config.shared.terminal 0 = true
        ∧ config.locals (.worker 0) = .worker .receive ∧ config.locals (.user 0) = .idle
        ∧ config.locals (.user 1) = .join .wait :=
    ⟨_, rfl, rfl, rfl, rfl, rfl, rfl⟩
  have silent : ∀ thread, ¬ Notifies config.shared (config.locals thread) := by
    intro thread
    by_cases steps : thread ∈ notifyInWindow.map Prod.fst
    · simp only [notifyInWindow, List.map_append, List.map_cons, List.map_nil, List.map_replicate,
        List.mem_append, List.mem_cons, List.mem_replicate, List.not_mem_nil] at steps
      have steppers : thread = .user 0 ∨ thread = .worker 0 ∨ thread = .user 1 := by tauto
      rcases steppers with rfl | rfl | rfl
      · rw [user]
        exact id
      · rw [worker]
        exact id
      · rw [joiner]
        exact id
    · -- a thread that takes no step is where it started
      have rests := Program.locals_of_run (P := fun point => point = .idle ∨ point = .worker .receive)
        (fun point rests => by rcases rests with rfl | rfl <;> simp [program, wake])
        steps (newQueue_locals 1 1 thread) run
      rcases rests with rest | rest <;> rw [rest] <;> exact id
  refine ⟨config, run, (Lib.System.Reachable.initial rfl).foldlM run, ?_, ⟨.user 1, ?_⟩, silent⟩
  · rw [tickets]
    simpa using terminal
  · rw [joiner]
    rfl

end BasicNext.Dispatch
