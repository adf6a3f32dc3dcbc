import BasicNext.Dispatch.Cells

/-!
# What the threads of a queue may rely on

An invariant of the shared state and of every thread's program point: the holder of the queue's lock is
the only one to change the map, a worker inside a job is the one that started it, and the map holds every
sent ticket that is not terminal. Each step keeps it for the other threads and establishes it for its own.
-/

namespace BasicNext.Dispatch

open BasicNext.Lib (Program Config)

variable {thread other : Thread} {shared shared' : Shared} {point point' : Point} {action : Action}
  {ticket : TicketId} {cell cell' : Cell} {move : Move}

/-! ### What the other threads may rely on -/

/-- What a move does to the shared state, as far as the other threads can tell. -/
structure Guarantee (move : Move) (shared shared' : Shared) : Prop where
  cell : ∀ ticket, CellStep move ticket (shared.cell ticket) (shared'.cell ticket)
  before : ∀ other, other ≠ move.thread → shared'.before other = shared.before other
  sent : ∀ ticket ∈ shared.sent, ticket ∈ shared'.sent
  created : shared.created ≤ shared'.created
  closed : shared.closed = true → shared'.closed = true
  /-- Under the lock of another thread the queue's map and its flag stay. -/
  locked : ∀ other, other ≠ move.thread → shared.lock = some other →
    shared'.lock = some other ∧ shared'.tickets = shared.tickets ∧ shared'.sent = shared.sent
      ∧ shared'.closed = shared.closed

/-- The lock is held, and every ticket in the map is sent. -/
structure Held (thread : Thread) (shared : Shared) : Prop where
  lock : shared.lock = some thread
  sent : ∀ ticket ∈ shared.tickets, ticket ∈ shared.sent

/-- What holds of the shared state whichever steps were taken. -/
structure Shared.Sound (shared : Shared) : Prop where
  cell : ∀ ticket, (shared.cell ticket).Sound
  fresh : ∀ ticket, shared.created ≤ ticket → shared.cell ticket = {}
  nodup : shared.tickets.Nodup
  channel : ∀ ticket ∈ shared.channel, ticket ∈ shared.sent
  sent : ∀ ticket ∈ shared.sent, ticket < shared.created
    ∧ (ticket ∈ shared.tickets ∨ shared.terminal ticket = true)
  before : ∀ thread, ∀ ticket ∈ shared.before thread, ticket ∈ shared.sent
  sender : shared.senderOpen = false → shared.closed = true
  free : shared.lock = none → ∀ ticket ∈ shared.tickets, ticket ∈ shared.sent

/-- What holds at a thread's program point. -/
def Local (thread : Thread) (shared : Shared) : Point → Prop
  | .join (.check rest) =>
    Held thread shared ∧ (∀ ticket ∈ rest, ticket ∈ shared.tickets)
      ∧ ∀ ticket ∈ shared.before thread, shared.terminal ticket = true ∨ ticket ∈ rest
  | .join .decide => Held thread shared
  | .close .lock => True
  | .close (.cancel rest) | .close (.check rest) =>
    (Held thread shared ∧ ∀ ticket ∈ rest, ticket ∈ shared.tickets) ∧ shared.closed = true
  | .close (.cancelNotify ticket rest) =>
    (Held thread shared ∧ ∀ other ∈ ticket :: rest, other ∈ shared.tickets) ∧ shared.closed = true
  | .close .waitLocked => Held thread shared ∧ shared.closed = true
  | .close _ => shared.closed = true
  | .submit (.retain _) | .submit .notify => Held thread shared ∧ shared.closed = false
  | .submit (.send ticket) =>
    shared.lock = some thread ∧ shared.closed = false ∧ ticket ∉ shared.sent
      ∧ ticket < shared.created ∧ ticket ∈ shared.tickets
      ∧ ∀ other ∈ shared.tickets, other = ticket ∨ other ∈ shared.sent
  | .ticket ticket | .worker (.start ticket) | .worker (.notify ticket) => ticket ∈ shared.sent
  | .worker (.job ticket) | .worker (.returned ticket) | .worker (.panicked ticket)
  | .worker (.complete ticket) =>
    ticket ∈ shared.sent ∧ (shared.cell ticket).runner = some thread
  | _ => True

namespace Guarantee

theorem terminal (step : Guarantee move shared shared') (h : shared.terminal ticket = true) :
    shared'.terminal ticket = true :=
  (step.cell ticket).terminal h

theorem inMap (step : Guarantee move shared shared') (differs : other ≠ move.thread)
    (held : Held other shared) {rest : List TicketId} (inMap : ∀ ticket ∈ rest, ticket ∈ shared.tickets) :
    ∀ ticket ∈ rest, ticket ∈ shared'.tickets := by
  rw [(step.locked other differs held.lock).2.1]
  exact inMap

theorem held (step : Guarantee move shared shared') (differs : other ≠ move.thread)
    (held : Held other shared) : Held other shared' := by
  obtain ⟨lock, tickets, sent, -⟩ := step.locked other differs held.lock
  refine ⟨lock, fun ticket member => ?_⟩
  rw [sent]
  exact held.sent ticket (tickets ▸ member)

theorem stable (step : Guarantee move shared shared') (sound : shared.Sound)
    (differs : other ≠ move.thread) (here : Local other shared point) : Local other shared' point := by
  have jobs : ∀ ticket, ticket ∈ shared.sent ∧ (shared.cell ticket).runner = some other →
      ticket ∈ shared'.sent ∧ (shared'.cell ticket).runner = some other := fun ticket here =>
    ⟨step.sent ticket here.1, (step.cell ticket).runner (sound.cell ticket) here.2⟩
  cases point with
  | idle => trivial
  | join point =>
    cases point with
    | check rest =>
      obtain ⟨held, inMap, checked⟩ := here
      refine ⟨step.held differs held, step.inMap differs held inMap, fun ticket member => ?_⟩
      rw [step.before other differs] at member
      exact (checked ticket member).imp_left step.terminal
    | decide => exact step.held differs here
    | _ => trivial
  | close point =>
    cases point with
    | lock => trivial
    | waitLocked => exact ⟨step.held differs here.1, step.closed here.2⟩
    | cancel rest =>
      obtain ⟨⟨held, inMap⟩, closed⟩ := here
      exact ⟨⟨step.held differs held, step.inMap differs held inMap⟩, step.closed closed⟩
    | cancelNotify ticket rest =>
      obtain ⟨⟨held, inMap⟩, closed⟩ := here
      exact ⟨⟨step.held differs held, step.inMap differs held inMap⟩, step.closed closed⟩
    | check rest =>
      obtain ⟨⟨held, inMap⟩, closed⟩ := here
      exact ⟨⟨step.held differs held, step.inMap differs held inMap⟩, step.closed closed⟩
    | _ => exact step.closed here
  | submit point =>
    cases point with
    | lock => trivial
    | send ticket =>
      obtain ⟨lock, isOpen, unsent, small, inMap, others⟩ := here
      obtain ⟨lock', tickets, sent, closed⟩ := step.locked other differs lock
      refine ⟨lock', closed.trans isOpen, ?_, Nat.lt_of_lt_of_le small step.created, ?_, ?_⟩
      · rwa [sent]
      · rwa [tickets]
      · rwa [tickets, sent]
    | retain rest =>
      exact ⟨step.held differs here.1, (step.locked other differs here.1.lock).2.2.2.trans here.2⟩
    | notify =>
      exact ⟨step.held differs here.1, (step.locked other differs here.1.lock).2.2.2.trans here.2⟩
  | ticket ticket => exact step.sent ticket here
  | worker point =>
    cases point with
    | start ticket => exact step.sent ticket here
    | notify ticket => exact step.sent ticket here
    | job ticket => exact jobs ticket here
    | returned ticket => exact jobs ticket here
    | panicked ticket => exact jobs ticket here
    | complete ticket => exact jobs ticket here
    | _ => trivial

theorem exclusive (free : shared.lock = none ∨ shared.lock = some move.thread)
    (cell : ∀ ticket, CellStep move ticket (shared.cell ticket) (shared'.cell ticket))
    (before : shared'.before = shared.before) (sent : ∀ ticket ∈ shared.sent, ticket ∈ shared'.sent)
    (created : shared.created ≤ shared'.created)
    (closed : shared.closed = true → shared'.closed = true) : Guarantee move shared shared' where
  cell := cell
  before other _ := by rw [before]
  sent := sent
  created := created
  closed := closed
  locked other differs held := by
    rw [held] at free
    rcases free with free | own
    · cases free
    · exact absurd (Option.some.inj own) differs

theorem relock (free : shared.lock = none ∨ shared.lock = some move.thread) (lock : Option Thread) :
    Guarantee move shared { shared with lock } :=
  .exclusive free (fun _ => .same) rfl (fun _ member => member) (Nat.le_refl _) id

theorem refl : Guarantee move shared shared where
  cell _ := .same
  before _ _ := rfl
  sent _ member := member
  created := Nat.le_refl _
  closed closed := closed
  locked _ _ held := ⟨held, rfl, rfl, rfl⟩

theorem setCell (step : CellStep move ticket (shared.cell ticket) cell) :
    Guarantee move shared (shared.setCell ticket cell) where
  cell ticket' := by
    by_cases same : ticket' = ticket
    · subst same
      simpa [Shared.setCell] using step
    · simpa [Shared.setCell, Function.update_of_ne same] using .same
  before _ _ := rfl
  sent _ member := member
  created := Nat.le_refl _
  closed closed := closed
  locked _ _ held := ⟨held, rfl, rfl, rfl⟩

end Guarantee

namespace Shared.Sound

theorem relock (sound : shared.Sound) (sent : ∀ ticket ∈ shared.tickets, ticket ∈ shared.sent)
    (lock : Option Thread) : ({ shared with lock } : Shared).Sound :=
  { sound with free := fun _ => sent }

theorem setCell (sound : shared.Sound) (sent : ticket ∈ shared.sent)
    (step : CellStep move ticket (shared.cell ticket) cell) : (shared.setCell ticket cell).Sound := by
  have cells := (Guarantee.setCell step).cell
  refine { sound with
    cell := fun ticket' => (cells ticket').sound (sound.cell ticket')
    fresh := fun ticket' new => ?_
    sent := fun ticket' member => ?_ }
  · have differs : ticket' ≠ ticket := by
      rintro rfl
      exact absurd (sound.sent ticket' sent).1 (Nat.not_lt.2 new)
    simpa [Shared.setCell, Function.update_of_ne differs] using sound.fresh ticket' new
  · exact (sound.sent ticket' member).imp_right fun kept => kept.imp_right (cells ticket').terminal

theorem setCell_fresh (sound : shared.Sound) : shared.setCell shared.created {} = shared := by
  rw [Shared.setCell, ← sound.fresh _ (Nat.le_refl _), Function.update_eq_self]

end Shared.Sound

/-! ### Every step establishes its own part -/

/-- What a move establishes. -/
structure Establishes (move : Move) (shared shared' : Shared) : Prop where
  guarantee : Guarantee move shared shared'
  sound : shared'.Sound
  here : Local move.thread shared' move.next

theorem Establishes.idle (sound : shared.Sound) (here : Local move.thread shared move.next) :
    Establishes move shared shared :=
  ⟨.refl, sound, here⟩

theorem Establishes.unlock (sound : shared.Sound) (held : Held move.thread shared)
    (here : Local move.thread { shared with lock := none } move.next) :
    Establishes move shared { shared with lock := none } :=
  ⟨.relock (.inr held.lock) none, sound.relock held.sent none, here⟩

theorem Held.ofLock (sound : shared.Sound) (free : shared.lock = none) :
    Held thread { shared with lock := some thread } :=
  ⟨rfl, sound.free free⟩

theorem joinStep_establishes {point : JoinPoint} (sound : shared.Sound) (here : Local thread shared (.join point))
    (h : joinStep thread shared point action = some (shared', point')) :
    Establishes ⟨thread, .join point, action, point'⟩ shared shared' := by
  unfold joinStep at h
  split at h
  · split at h
    · next free =>
      cases h
      refine ⟨.relock (.inl free) _, sound.relock (sound.free free) _, .ofLock sound free,
        fun ticket member => member, fun ticket member => ?_⟩
      exact ((sound.sent ticket (sound.before thread ticket member)).2).symm
    · cases h
  · next rest ticket =>
    obtain ⟨held, inMap, checked⟩ := here
    split at h
    · split at h
      · next terminal =>
        cases h
        refine .idle sound ⟨held, fun other member => inMap other (List.mem_of_mem_erase member), fun other member => ?_⟩
        by_cases same : other = ticket
        · exact .inl (same ▸ terminal)
        · exact (checked other member).imp_right fun kept => (List.mem_erase_of_ne same).2 kept
      · cases h
        exact .idle sound held
    · cases h
  · cases h
    exact .unlock sound here.1 trivial
  · cases h
    exact .unlock sound here trivial
  · cases h
    exact .unlock sound here trivial
  · cases h
    exact .idle sound trivial
  · cases h

theorem Establishes.setCell (sound : shared.Sound) (sent : ticket ∈ shared.sent)
    (step : CellStep move ticket (shared.cell ticket) cell)
    (here : Local move.thread (shared.setCell ticket cell) move.next) :
    Establishes move shared (shared.setCell ticket cell) :=
  ⟨.setCell step, sound.setCell sent step, here⟩

theorem closeStep_establishes {point : ClosePoint} (sound : shared.Sound) (here : Local thread shared (.close point))
    (h : closeStep thread shared point action = some (shared', point')) :
    Establishes ⟨thread, .close point, action, point'⟩ shared shared' := by
  unfold closeStep at h
  split at h
  -- `lock`: the flag is set while nobody holds the lock
  · split at h
    · next free =>
      cases h
      refine ⟨?_, ?_, ⟨⟨rfl, sound.free free⟩, fun ticket member => member⟩, rfl⟩
      · exact .exclusive (.inl free) (fun _ => .same) rfl (fun _ member => member) (Nat.le_refl _)
          fun _ => rfl
      · exact { sound.relock (sound.free free) _ with sender := fun _ => rfl }
    · cases h
  -- `cancel`: the next ticket of the map
  · next rest ticket =>
    obtain ⟨⟨held, inMap⟩, closed⟩ := here
    split at h
    · next found =>
      have inMap' : ∀ other ∈ rest.erase ticket, other ∈ shared.tickets := fun other member =>
        inMap other (List.mem_of_mem_erase member)
      split at h
      · next state taken =>
        cases h
        refine .setCell sound (held.sent ticket (inMap ticket found.1)) (.cancelPending taken rfl)
          ⟨⟨⟨held.lock, held.sent⟩, ?_⟩, closed⟩
        exact List.forall_mem_cons.2 ⟨inMap ticket found.1, inMap'⟩
      · cases h
        exact .idle sound ⟨⟨held, inMap'⟩, closed⟩
    · cases h
  · next ticket rest =>
    obtain ⟨⟨held, inMap⟩, closed⟩ := here
    cases h
    refine .setCell sound (held.sent ticket (inMap ticket List.mem_cons_self)) .unlock
      ⟨⟨⟨held.lock, held.sent⟩, fun other member => ?_⟩, closed⟩
    exact inMap other (List.mem_cons_of_mem _ member)
  · cases h
    exact .unlock sound here.1.1 here.2
  -- `takeSender`
  · cases h
    refine ⟨?_, { sound with sender := fun _ => here }, here⟩
    exact { (Guarantee.refl : Guarantee ⟨thread, _, _, _⟩ shared shared) with }
  · cases h
    exact .idle sound here
  -- `checkLock`
  · split at h
    · next free =>
      cases h
      exact ⟨.relock (.inl free) _, sound.relock (sound.free free) _,
        ⟨.ofLock sound free, fun ticket member => member⟩, here⟩
    · cases h
  -- `check`: the next ticket of the map
  · next rest ticket =>
    obtain ⟨⟨held, inMap⟩, closed⟩ := here
    split at h
    · split at h
      · cases h
        exact .idle sound
          ⟨⟨held, fun other member => inMap other (List.mem_of_mem_erase member)⟩, closed⟩
      · cases h
        exact .unlock sound held closed
    · cases h
  · cases h
    exact .unlock sound here.1.1 here.2
  · cases h
    exact .idle sound trivial
  -- `decide`: the lock is taken again, to wait
  · split at h
    · next free =>
      cases h
      exact ⟨.relock (.inl free) _, sound.relock (sound.free free) _, .ofLock sound free, here⟩
    · cases h
  · cases h
    exact .unlock sound here.1 here.2
  · cases h
    exact .idle sound here
  · split at h
    · cases h
      exact .idle sound here
    · cases h
  · split at h
    · cases h
      exact .idle sound trivial
    · cases h
  · cases h
    exact .idle sound trivial
  · cases h

theorem submitStep_establishes {point : SubmitPoint} (sound : shared.Sound) (here : Local thread shared (.submit point))
    (h : submitStep thread shared point action = some (shared', point')) :
    Establishes ⟨thread, .submit point, action, point'⟩ shared shared' := by
  unfold submitStep at h
  split at h
  · split at h
    · next free =>
      split at h
      · cases h
        exact .idle sound trivial
      · next isOpen =>
        cases h
        exact ⟨.relock (.inl free) _, sound.relock (sound.free free) _, .ofLock sound free, Bool.eq_false_iff.2 isOpen⟩
    · cases h
  -- `retain`: a terminal ticket leaves the map
  · next rest ticket =>
    obtain ⟨held, isOpen⟩ := here
    split at h
    · split at h
      · next terminal =>
        cases h
        have kept : ∀ other ∈ shared.tickets.erase ticket, other ∈ shared.sent := fun other member =>
          held.sent other (List.mem_of_mem_erase member)
        refine ⟨?_, ?_, ⟨held.lock, kept⟩, isOpen⟩
        · exact .exclusive (.inr held.lock) (fun _ => .same) rfl (fun _ member => member)
            (Nat.le_refl _) id
        · refine { sound with
            nodup := sound.nodup.erase ticket
            sent := fun other member => ?_
            free := fun _ => kept }
          refine (sound.sent other member).imp_right fun kept => ?_
          by_cases same : other = ticket
          · exact .inr (same ▸ terminal)
          · exact kept.imp_left (List.mem_erase_of_ne same).2
      · cases h
        exact .idle sound ⟨held, isOpen⟩
    · cases h
  -- `retain` is over: the map is full, or the new ticket is put into it
  · obtain ⟨held, isOpen⟩ := here
    split at h
    · cases h
      exact .unlock sound held trivial
    · rw [sound.setCell_fresh] at h
      cases h
      have unsent : shared.created ∉ shared.sent := fun member =>
        absurd (sound.sent _ member).1 (Nat.lt_irrefl _)
      refine ⟨?_, ?_, held.lock, isOpen, unsent, Nat.lt_succ_self _, by simp, ?_⟩
      · exact .exclusive (.inr held.lock) (fun _ => .same) rfl (fun _ member => member)
          (Nat.le_succ _) id
      · refine { sound with
          fresh := fun ticket new => sound.fresh ticket (Nat.le_of_succ_le new)
          nodup := List.nodup_append.2 ⟨sound.nodup, List.pairwise_singleton _ _, ?_⟩
          sent := fun ticket member => ?_
          free := fun free => ?_ }
        · rintro other member _ new rfl
          exact unsent (List.mem_singleton.1 new ▸ held.sent other member)
        · obtain ⟨small, kept⟩ := sound.sent ticket member
          exact ⟨Nat.lt_succ_of_lt small, kept.imp_left (List.mem_append_left _)⟩
        · exact absurd (held.lock.symm.trans free) (by simp)
      · intro other member
        rcases List.mem_append.1 member with old | new
        · exact .inr (held.sent other old)
        · exact .inl (List.mem_singleton.1 new)
  · cases h
    exact .unlock sound here.1 trivial
  -- `send`: no channel, a job sent, or a full channel
  · next ticket =>
    obtain ⟨lock, isOpen, unsent, small, inMap, others⟩ := here
    split at h
    · next gone => exact absurd ((sound.sender gone).symm.trans isOpen) (by simp)
    · split at h
      · cases h
        have sent : ∀ other ∈ shared.tickets, other ∈ shared.sent ++ [ticket] := by
          intro other member
          rcases others other member with rfl | member
          · exact List.mem_append_right _ (List.mem_singleton_self _)
          · exact List.mem_append_left _ member
        refine ⟨?_, ?_, ⟨lock, sent⟩, isOpen⟩
        · exact .exclusive (.inr lock) (fun _ => .same) rfl (fun _ => List.mem_append_left _)
            (Nat.le_refl _) id
        · refine { sound with
            channel := fun other member => ?_
            sent := fun other member => ?_
            before := fun other ticket' member => List.mem_append_left _ (sound.before other _ member)
            free := fun _ => sent }
          · rcases List.mem_append.1 member with old | new
            · exact List.mem_append_left _ (sound.channel other old)
            · exact List.mem_append_right _ new
          · rcases List.mem_append.1 member with old | new
            · exact sound.sent other old
            · rw [List.mem_singleton.1 new]
              exact ⟨small, .inl inMap⟩
      · cases h
        refine ⟨?_, ?_, trivial⟩
        · exact .exclusive (.inr lock) (fun _ => .same) rfl (fun _ member => member)
            (Nat.le_refl _) id
        · refine { sound with
            nodup := sound.nodup.erase ticket
            sent := fun other member => ?_
            free := fun _ other member => ?_ }
          · refine (sound.sent other member).imp_right (Or.imp_left fun kept => ?_)
            have differs : other ≠ ticket := by
              rintro rfl
              exact unsent member
            exact (List.mem_erase_of_ne differs).2 kept
          · obtain ⟨differs, kept⟩ := sound.nodup.mem_erase_iff.1 member
            exact (others other kept).resolve_left differs
  · cases h
    exact .unlock sound here.1 trivial
  · cases h

theorem callStep_establishes {call : Call} (sound : shared.Sound)
    (h : callStep thread shared call = some (shared', point')) :
    Establishes ⟨thread, .idle, .call call, point'⟩ shared shared' := by
  unfold callStep at h
  split at h
  · cases h
    refine ⟨?_, ?_, trivial⟩
    · exact { (Guarantee.refl : Guarantee ⟨thread, _, _, _⟩ shared shared) with
        before := fun other differs => Function.update_of_ne differs _ _ }
    · refine { sound with before := fun other ticket member => ?_ }
      have member : ticket ∈ Function.update shared.before thread shared.sent other := member
      by_cases same : other = thread
      · rwa [same, Function.update_self] at member
      · rw [Function.update_of_ne same] at member
        exact sound.before other ticket member
  · cases h
    exact .idle sound trivial
  · cases h
    exact .idle sound trivial
  · split at h
    · next found =>
      split at h
      · next state taken =>
        cases h
        exact .setCell sound found.1 (.cancel taken rfl) found.1
      · cases h
        exact .idle sound trivial
    · cases h
  · split at h
    · next found =>
      cases h
      exact .setCell sound found.1 (.close rfl) trivial
    · cases h
  · split at h
    · next found =>
      split at h
      · next state taken =>
        cases h
        refine .setCell sound found.1 (.finish (.complete taken) ?_ rfl) found.1
        exact .inr (.inr ⟨_, rfl, by simp [Call.endsJob]⟩)
      · cases h
        exact .idle sound trivial
    · cases h
  · split at h
    · next found =>
      split at h
      · next state taken =>
        cases h
        refine .setCell sound found.1 (.finish (.fail taken) ?_ rfl) found.1
        exact .inr (.inr ⟨_, rfl, by simp [Call.endsJob]⟩)
      · cases h
        exact .idle sound trivial
    · cases h

theorem workerStep_establishes {point : WorkerPoint} (sound : shared.Sound) (here : Local thread shared (.worker point))
    (h : workerStep thread shared point action = some (shared', point')) :
    Establishes ⟨thread, .worker point, action, point'⟩ shared shared' := by
  unfold workerStep at h
  split at h
  · split at h
    · next ticket channel received =>
      cases h
      refine ⟨{ (Guarantee.refl : Guarantee ⟨thread, _, _, _⟩ shared shared) with }, ?_, ?_⟩
      · exact { sound with
          channel := fun other member => sound.channel other (received ▸ List.mem_cons_of_mem _ member) }
      · exact sound.channel ticket (received ▸ List.mem_cons_self)
    · split at h
      · cases h
      · cases h
        exact ⟨{ (Guarantee.refl : Guarantee ⟨thread, _, _, _⟩ shared shared) with }, { sound with }, trivial⟩
  -- `start`: `mark_running`, and the job
  · split at h
    · cases h
    · split at h
      · next state taken =>
        cases h
        exact .setCell sound here (.start taken) ⟨here, by simp [Shared.setCell]⟩
      · cases h
        exact .idle sound trivial
  · cases h
    exact .idle sound here
  · cases h
    exact .idle sound here
  · split at h
    · cases h
    · split at h
      · cases h
        exact .idle sound here
      · cases h
        exact .idle sound trivial
  · split at h
    · cases h
    · split at h
      · next state taken =>
        cases h
        exact .setCell sound here.1 (.finish (.complete taken) (.inl rfl) rfl) here.1
      · cases h
        exact .idle sound trivial
  · split at h
    · cases h
    · split at h
      · next state taken =>
        cases h
        exact .setCell sound here.1 (.finish (.fail taken) (.inr (.inl rfl)) rfl) here.1
      · cases h
        exact .idle sound trivial
  · cases h
    exact .setCell sound here .unlock trivial
  · cases h

theorem act_establishes (sound : shared.Sound) (here : Local thread shared point)
    (h : act thread shared point action = some (shared', point')) :
    Establishes ⟨thread, point, action, point'⟩ shared shared' := by
  unfold act at h
  split at h
  · split at h
    · exact callStep_establishes sound h
    · cases h
  · exact joinStep_establishes sound here h
  · exact closeStep_establishes sound here h
  · exact submitStep_establishes sound here h
  · cases h
    exact .setCell sound here .unlock trivial
  · exact workerStep_establishes sound here h
  · cases h

/-! ### Every run -/

variable {workers limit : Nat} {config config' : Config Thread Shared Point}

theorem holds_of_reachable {allows : Config Thread Shared Point → Thread × Action → Prop}
    (reached : ((queue workers limit).restrict allows).Reachable config) :
    Program.Holds Shared.Sound Local config := by
  refine Program.holds_of_reachable ?_ ?_ ?_ ?_ reached
  · refine ⟨⟨fun _ => Cell.sound_empty, fun _ _ => rfl, List.nodup_nil, ?_, ?_, ?_, ?_, ?_⟩, ?_⟩
    all_goals try simp [newQueue]
    intro thread
    show Local _ _ ((newQueue workers limit).locals thread)
    rcases newQueue_locals workers limit thread with rest | rest <;> rw [rest] <;> trivial
  · intro config thread action shared state holds _ move
    have establishes := act_establishes holds.shared (holds.thread thread) move
    exact ⟨establishes.sound, establishes.here⟩
  · intro config thread action shared state holds _ move other differs
    have establishes := act_establishes holds.shared (holds.thread thread) move
    exact establishes.guarantee.stable holds.shared differs (holds.thread other)
  · intro thread shared point here
    unfold program wake
    dsimp only
    split
    · trivial
    · exact here
    · exact here

end BasicNext.Dispatch
