import BasicNext.Dispatch.Barrier

/-!
# Agreement at the barrier

What every step of a wait keeps: each generation that has ended is either complete, with one wait that
returned `true`, or broken, and the barrier still knows the number of a broken generation while one of its
waits has not returned. The last part holds as long as no deadline passes while a wait of an earlier broken
generation is delayed.
-/

namespace BasicNext.Dispatch

open Lib

namespace Waits

variable {parties index epoch : Nat} {expired : Bool} {config config' : Waits}

/-! ### One look -/

theorem look_cases (looks : config.look index expired = some config') :
    ∃ before wait after, config.waits = before ++ wait :: after ∧ before.length = index ∧ wait.result = none
      ∧ (wait.generation ≠ config.state.generation ∧ config'.state = config.state ∧ config'.ended = config.ended
          ∧ config'.waits = before ++ { wait with
              expired := false
              result := some (if config.state.brokenGeneration = some wait.generation
                then .error (.timeout wait.timeoutMs) else .ok false) } :: after
        ∨ wait.generation = config.state.generation ∧ expired = false ∧ config'.state = config.state
          ∧ config'.ended = config.ended ∧ config'.waits = before ++ { wait with expired := false } :: after
        ∨ wait.generation = config.state.generation ∧ expired = true
          ∧ config'.state = ⟨0, config.state.generation + 1, some wait.generation⟩
          ∧ config'.ended = config.ended + 1
          ∧ config'.waits = before ++ { wait with
              expired := true, result := some (.error (.timeout wait.timeoutMs)) } :: after) := by
  unfold look at looks
  cases found : config.waits[index]? with
  | none => simp [found] at looks
  | some wait =>
    obtain ⟨inside, same⟩ := List.getElem?_eq_some_iff.1 found
    have split : config.waits = config.waits.take index ++ wait :: config.waits.drop (index + 1) := by
      rw [← same, List.getElem_cons_drop, List.take_append_drop]
    have set (other : Wait) :
        config.waits.set index other = config.waits.take index ++ other :: config.waits.drop (index + 1) :=
      List.set_eq_take_append_cons_drop.trans (if_pos inside)
    simp only [found, Option.isSome_iff_ne_none, set] at looks
    split at looks
    · cases looks
    · next pending =>
      simp only [ne_eq, not_not] at pending
      obtain rfl := Option.some.inj looks
      refine ⟨_, wait, _, split, ?_, pending, ?_⟩
      · rw [List.length_take]
        omega
      · by_cases current : wait.generation = config.state.generation
        · cases expired with
          | false => exact .inr (.inl ⟨current, rfl, by simp [BarrierState.check, current, pending]⟩)
          | true => exact .inr (.inr ⟨current, rfl, by simp [BarrierState.check, current]⟩)
        · refine .inl ⟨current, ?_⟩
          by_cases broken : config.state.brokenGeneration = some wait.generation <;>
            simp [BarrierState.check, current, broken]

/-! ### The invariant -/

/-- What is settled about a generation that has ended. -/
inductive Settled (parties : Nat) (config : Waits) (epoch : Nat) : Prop
  | complete : config.arrivals epoch = parties → config.trues epoch = 1 → ¬ config.Broken epoch →
      Settled parties config epoch
  | broken : config.arrivals epoch < parties → config.Broken epoch →
      (∀ wait ∈ config.waits, wait.epoch = epoch → ∀ result, wait.result = some result →
        result = .error (.timeout wait.timeoutMs)) →
      Settled parties config epoch

structure Sound (parties : Nat) (config : Waits) : Prop where
  generation : config.state.generation = UInt64.ofNat config.ended
  arrived : config.arrivals config.ended = config.state.arrived
  below : config.state.arrived < parties
  number : ∀ wait ∈ config.waits, wait.generation = UInt64.ofNat wait.epoch
  epoch : ∀ wait ∈ config.waits, wait.epoch ≤ config.ended
  current : ∀ wait ∈ config.waits, wait.epoch = config.ended → wait.result = none
  pending : ∀ wait ∈ config.waits, wait.result = none → wait.expired = false
  settled : ∀ epoch < config.ended, config.Settled parties epoch
  room : ∀ wait ∈ config.waits, wait.result = none → config.ended < wait.epoch + 2 ^ 64
  known : ∀ wait ∈ config.waits, wait.result = none → config.Broken wait.epoch →
    config.state.brokenGeneration = some wait.generation

theorem sound_start (positive : 0 < parties) : start.Sound parties where
  generation := rfl
  arrived := rfl
  below := positive
  number := by simp [start]
  epoch := by simp [start]
  current := by simp [start]
  pending := by simp [start]
  settled := by simp [start]
  room := by simp [start]
  known := by simp [start]

theorem Sound.not_broken (sound : config.Sound parties) : ¬ config.Broken config.ended := by
  rintro ⟨wait, member, same, expired⟩
  rw [sound.pending wait member (sound.current wait member same)] at expired
  cases expired

theorem Sound.epoch_eq (sound : config.Sound parties) {wait : Wait} (member : wait ∈ config.waits)
    (pending : wait.result = none) (same : wait.generation = config.state.generation) :
    wait.epoch = config.ended := by
  rw [sound.number wait member, sound.generation] at same
  have equal := congrArg UInt64.toNat same
  simp only [UInt64.toNat_ofNat'] at equal
  have low := sound.epoch wait member
  have high := sound.room wait member pending
  omega

/-! ### One wait changes -/

section Replace

variable {before after : List Wait} {wait wait' : Wait} (split : config.waits = before ++ wait :: after)
  (split' : config'.waits = before ++ wait' :: after)

include split split'

theorem trues_replace (old : wait.returnedTrue = false) (new : wait'.returnedTrue = false) :
    config'.trues epoch = config.trues epoch := by
  simp [trues, split, split', old, new]

theorem mem_replace {other : Wait} (member : other ∈ config'.waits) : other ∈ config.waits ∨ other = wait' := by
  rw [split'] at member
  rcases List.mem_append.1 member with left | inside
  · exact .inl (by simp [split, left])
  · rcases List.mem_cons.1 inside with here | right
    · exact .inr here
    · exact .inl (by simp [split, right])

variable (same : wait'.epoch = wait.epoch)

include same

theorem arrivals_replace : config'.arrivals epoch = config.arrivals epoch := by
  simp [arrivals, split, split', List.countP_cons, same]

theorem broken_replace (old : wait.expired = false) :
    config'.Broken epoch ↔ config.Broken epoch ∨ wait.epoch = epoch ∧ wait'.expired = true := by
  simp only [Broken, split, split', List.mem_append, List.mem_cons]
  constructor
  · rintro ⟨other, left | rfl | right, here, expired⟩
    · exact .inl ⟨other, .inl left, here, expired⟩
    · exact .inr ⟨same ▸ here, expired⟩
    · exact .inl ⟨other, .inr (.inr right), here, expired⟩
  · rintro (⟨other, left | rfl | right, here, expired⟩ | ⟨here, expired⟩)
    · exact ⟨other, .inl left, here, expired⟩
    · rw [old] at expired
      cases expired
    · exact ⟨other, .inr (.inr right), here, expired⟩
    · exact ⟨wait', .inr (.inl rfl), same.trans here, expired⟩

theorem settled_replace (settled : config.Settled parties epoch) (old : wait.expired = false)
    (oldTrue : wait.returnedTrue = false) (newTrue : wait'.returnedTrue = false)
    (new : wait.epoch = epoch → wait'.expired = false)
    (result : wait.epoch = epoch → config.Broken epoch → ∀ result, wait'.result = some result →
      result = .error (.timeout wait'.timeoutMs)) : config'.Settled parties epoch := by
  have broken : config'.Broken epoch ↔ config.Broken epoch := by
    rw [broken_replace split split' same old]
    constructor
    · rintro (broken | ⟨here, expired⟩)
      · exact broken
      · rw [new here] at expired
        cases expired
    · exact .inl
  cases settled with
  | complete arrivals trues whole =>
    refine .complete ?_ ?_ ?_
    · rw [arrivals_replace split split' same, arrivals]
    · rw [trues_replace split split' oldTrue newTrue, trues]
    · rwa [broken]
  | broken arrivals isBroken results =>
    refine .broken ?_ (broken.2 isBroken) ?_
    · rw [arrivals_replace split split' same]
      exact arrivals
    · intro other member here
      rcases mem_replace split split' member with old | rfl
      · exact results other old here
      · exact result (same ▸ here) isBroken

end Replace

theorem Wait.returnedTrue_of_none {wait : Wait} (pending : wait.result = none) : wait.returnedTrue = false := by
  simp [Wait.returnedTrue, pending]

/-! ### Every step keeps the invariant -/

theorem Sound.returns {before after : List Wait} {wait wait' : Wait} (sound : config.Sound parties)
    (split : config.waits = before ++ wait :: after) (split' : config'.waits = before ++ wait' :: after)
    (state : config'.state = config.state) (ended : config'.ended = config.ended) (pending : wait.result = none)
    (past : wait.epoch ≠ config.ended) (generation : wait'.generation = wait.generation)
    (same : wait'.epoch = wait.epoch) (fresh : wait'.expired = false) (returned : wait'.result ≠ none)
    (notTrue : wait'.returnedTrue = false)
    (timeout : config.Broken wait.epoch → ∀ result, wait'.result = some result →
      result = .error (.timeout wait'.timeoutMs)) : config'.Sound parties := by
  have member : wait ∈ config.waits := by simp [split]
  have old := sound.pending wait member pending
  have mem {other : Wait} (inside : other ∈ config'.waits) := mem_replace split split' inside
  constructor
  · rw [state, ended]
    exact sound.generation
  · rw [state, ended, arrivals_replace split split' same]
    exact sound.arrived
  · rw [state]
    exact sound.below
  · intro other inside
    rcases mem inside with before | rfl
    · exact sound.number other before
    · rw [generation, same]
      exact sound.number wait member
  · intro other inside
    rw [ended]
    rcases mem inside with before | rfl
    · exact sound.epoch other before
    · rw [same]
      exact sound.epoch wait member
  · intro other inside here
    rw [ended] at here
    rcases mem inside with before | rfl
    · exact sound.current other before here
    · exact absurd (same.symm.trans here) past
  · intro other inside none'
    rcases mem inside with before | rfl
    · exact sound.pending other before none'
    · exact fresh
  · intro epoch below
    rw [ended] at below
    refine settled_replace split split' same (sound.settled epoch below) old (Wait.returnedTrue_of_none pending)
      notTrue (fun _ => fresh) ?_
    rintro rfl
    exact timeout
  · intro other inside none'
    rw [ended]
    rcases mem inside with before | rfl
    · exact sound.room other before none'
    · exact absurd none' returned
  · intro other inside none' broken
    rw [state]
    rw [broken_replace split split' same old, fresh] at broken
    rcases mem inside with before | rfl
    · exact sound.known other before none' (broken.resolve_right (by simp))
    · exact absurd none' returned

theorem Sound.breaks {before after : List Wait} {wait wait' : Wait} (sound : config.Sound parties)
    (split : config.waits = before ++ wait :: after) (split' : config'.waits = before ++ wait' :: after)
    (state : config'.state = ⟨0, config.state.generation + 1, some wait.generation⟩)
    (ended : config'.ended = config.ended + 1) (pending : wait.result = none) (here : wait.epoch = config.ended)
    (generation : wait'.generation = wait.generation) (same : wait'.epoch = wait.epoch)
    (expired : wait'.expired = true) (result : wait'.result = some (.error (.timeout wait'.timeoutMs)))
    (prompt : ¬ config.Delayed) (room : config.Room) : config'.Sound parties := by
  have member : wait ∈ config.waits := by simp [split]
  have old := sound.pending wait member pending
  have mem {other : Wait} (inside : other ∈ config'.waits) := mem_replace split split' inside
  have notTrue : wait'.returnedTrue = false := by simp [Wait.returnedTrue, result]
  have bound {other : Wait} (inside : other ∈ config'.waits) : other.epoch ≤ config.ended := by
    rcases mem inside with before | rfl
    · exact sound.epoch other before
    · omega
  constructor
  · rw [state, ended, UInt64.ofNat_add, ← sound.generation]
    rfl
  · rw [state, ended, arrivals, List.countP_eq_zero]
    intro other inside
    have := bound inside
    simp only [beq_iff_eq]
    omega
  · rw [state]
    exact (Nat.zero_le _).trans_lt sound.below
  · intro other inside
    rcases mem inside with before | rfl
    · exact sound.number other before
    · rw [generation, same]
      exact sound.number wait member
  · intro other inside
    have := bound inside
    omega
  · intro other inside later
    have := bound inside
    omega
  · intro other inside none'
    rcases mem inside with before | rfl
    · exact sound.pending other before none'
    · rw [result] at none'
      cases none'
  · intro epoch below
    by_cases last : epoch = config.ended
    · subst last
      refine .broken ?_ ?_ ?_
      · rw [arrivals_replace split split' same, sound.arrived]
        exact sound.below
      · exact (broken_replace split split' same old).2 (.inr ⟨here, expired⟩)
      · intro other inside current returned isReturned
        rcases mem inside with before | rfl
        · rw [sound.current other before current] at isReturned
          cases isReturned
        · exact Option.some.inj (isReturned.symm.trans result)
    · have other : wait.epoch ≠ epoch := by omega
      exact settled_replace split split' same (sound.settled epoch (by omega)) old
        (Wait.returnedTrue_of_none pending) notTrue (fun equal => absurd equal other)
        (fun equal => absurd equal other)
  · intro other inside none'
    rw [ended]
    rcases mem inside with before | rfl
    · exact room other before none'
    · rw [result] at none'
      cases none'
  · intro other inside none' broken
    rw [state]
    rcases mem inside with before | rfl
    · rcases (broken_replace split split' same old).1 broken with earlier | ⟨equal, -⟩
      · exact absurd ⟨other, before, none', earlier⟩ prompt
      · rw [sound.number other before, sound.number wait member, equal]
    · rw [result] at none'
      cases none'

theorem Sound.look (sound : config.Sound parties) (looks : config.look index expired = some config')
    (prompt : expired = true → (∃ wait, config.waits[index]? = some wait ∧ wait.result = none
      ∧ wait.epoch = config.ended) → ¬ config.Delayed ∧ config.Room) : config'.Sound parties := by
  obtain ⟨before, wait, after, split, position, pending, cases⟩ := look_cases looks
  have member : wait ∈ config.waits := by simp [split]
  have fresh : wait.expired = false := sound.pending wait member pending
  rcases cases with ⟨earlier, state, ended, split'⟩ | ⟨current, -, state, ended, split'⟩ |
    ⟨current, expires, state, ended, split'⟩
  · -- The generation has ended, and the barrier knows whether it was broken.
    have past : wait.epoch ≠ config.ended := by
      intro here
      exact earlier (by rw [sound.number wait member, sound.generation, here])
    refine sound.returns split split' state ended pending past rfl rfl rfl (by simp) ?_ ?_
    · simp only [Wait.returnedTrue]
      split_ifs <;> rfl
    · intro broken result returned
      rw [if_pos (sound.known wait member pending broken)] at returned
      exact (Option.some.inj returned).symm
  · -- Nothing has happened to the generation.
    have unchanged : { wait with expired := false } = wait := by
      rw [← fresh]
    rw [unchanged, ← split] at split'
    obtain rfl : config' = config := by
      cases config
      cases config'
      simp_all
    exact sound
  · have here := sound.epoch_eq member pending current
    obtain ⟨prompt, room⟩ := prompt expires ⟨wait, by simp [split, ← position], pending, here⟩
    exact sound.breaks split split' state ended pending here rfl rfl rfl rfl prompt room

/-! ### Arrivals -/

section Append

variable {wait : Wait} (added : config'.waits = config.waits ++ [wait])

include added

theorem arrivals_append : config'.arrivals epoch = config.arrivals epoch + if wait.epoch = epoch then 1 else 0 := by
  simp [arrivals, added, List.countP_cons]

theorem trues_append :
    config'.trues epoch = config.trues epoch + if wait.epoch = epoch ∧ wait.returnedTrue then 1 else 0 := by
  simp [trues, added, List.countP_cons]

theorem broken_append (fresh : wait.expired = false) : config'.Broken epoch ↔ config.Broken epoch := by
  simp only [Broken, added, List.mem_append, List.mem_singleton]
  constructor
  · rintro ⟨other, old | rfl, here, expired⟩
    · exact ⟨other, old, here, expired⟩
    · rw [fresh] at expired
      cases expired
  · rintro ⟨other, old, rest⟩
    exact ⟨other, .inl old, rest⟩

theorem mem_append {other : Wait} (member : other ∈ config'.waits) : other ∈ config.waits ∨ other = wait := by
  simpa [added] using member

theorem settled_append (settled : config.Settled parties epoch) (fresh : wait.expired = false)
    (later : wait.epoch ≠ epoch) : config'.Settled parties epoch := by
  cases settled with
  | complete arrivals trues whole =>
    refine .complete ?_ ?_ ?_
    · rw [arrivals_append added, if_neg later, arrivals, Nat.add_zero]
    · rw [trues_append added, if_neg (fun both => later both.1), trues]
    · rwa [broken_append added fresh]
  | broken arrivals isBroken results =>
    refine .broken ?_ ((broken_append added fresh).2 isBroken) ?_
    · rw [arrivals_append added, if_neg later]
      exact arrivals
    · intro other member here
      rcases mem_append added member with old | rfl
      · exact results other old here
      · exact absurd here later

end Append

theorem Sound.join {wait : Wait} (sound : config.Sound parties) (added : config'.waits = config.waits ++ [wait])
    (state : config'.state = { config.state with arrived := config.state.arrived + 1 })
    (ended : config'.ended = config.ended) (generation : wait.generation = config.state.generation)
    (here : wait.epoch = config.ended) (fresh : wait.expired = false) (pending : wait.result = none)
    (below : config.state.arrived + 1 ≠ parties) : config'.Sound parties := by
  have mem {other : Wait} (inside : other ∈ config'.waits) := mem_append added inside
  constructor
  · rw [state, ended]
    exact sound.generation
  · rw [state, ended, arrivals_append added, if_pos here, sound.arrived]
  · have := sound.below
    rw [state]
    simp only
    omega
  · intro other inside
    rcases mem inside with before | rfl
    · exact sound.number other before
    · rw [generation, sound.generation, here]
  · intro other inside
    rw [ended]
    rcases mem inside with before | rfl
    · exact sound.epoch other before
    · exact here.le
  · intro other inside current
    rw [ended] at current
    rcases mem inside with before | rfl
    · exact sound.current other before current
    · exact pending
  · intro other inside none'
    rcases mem inside with before | rfl
    · exact sound.pending other before none'
    · exact fresh
  · intro epoch past
    rw [ended] at past
    exact settled_append added (sound.settled epoch past) fresh (by omega)
  · intro other inside none'
    rw [ended]
    rcases mem inside with before | rfl
    · exact sound.room other before none'
    · omega
  · intro other inside none' broken
    rw [broken_append added fresh] at broken
    rw [state]
    rcases mem inside with before | rfl
    · exact sound.known other before none' broken
    · rw [here] at broken
      exact absurd broken sound.not_broken

theorem Sound.complete {wait : Wait} (sound : config.Sound parties) (added : config'.waits = config.waits ++ [wait])
    (state : config'.state = { config.state with arrived := 0, generation := config.state.generation + 1 })
    (ended : config'.ended = config.ended + 1) (generation : wait.generation = config.state.generation)
    (here : wait.epoch = config.ended) (fresh : wait.expired = false) (result : wait.result = some (.ok true))
    (last : config.state.arrived + 1 = parties) (room : config.Room) : config'.Sound parties := by
  have mem {other : Wait} (inside : other ∈ config'.waits) := mem_append added inside
  have bound {other : Wait} (inside : other ∈ config'.waits) : other.epoch ≤ config.ended := by
    rcases mem inside with before | rfl
    · exact sound.epoch other before
    · exact here.le
  constructor
  · rw [state, ended, UInt64.ofNat_add, ← sound.generation]
    rfl
  · rw [state, ended, arrivals, List.countP_eq_zero]
    intro other inside
    have := bound inside
    simp only [beq_iff_eq]
    omega
  · rw [state]
    exact (Nat.zero_le _).trans_lt sound.below
  · intro other inside
    rcases mem inside with before | rfl
    · exact sound.number other before
    · rw [generation, sound.generation, here]
  · intro other inside
    have := bound inside
    omega
  · intro other inside later
    have := bound inside
    omega
  · intro other inside none'
    rcases mem inside with before | rfl
    · exact sound.pending other before none'
    · exact fresh
  · intro epoch below
    by_cases current : epoch = config.ended
    · subst current
      have none' : config.trues config.ended = 0 := by
        rw [trues, List.countP_eq_zero]
        intro other inside
        by_cases same : other.epoch = config.ended
        · simp [Wait.returnedTrue, sound.current other inside same]
        · simp [same]
      refine .complete ?_ ?_ ?_
      · rw [arrivals_append added, if_pos here, sound.arrived, last]
      · rw [trues_append added, none', if_pos ⟨here, by simp [Wait.returnedTrue, result]⟩]
      · rw [broken_append added fresh]
        exact sound.not_broken
    · exact settled_append added (sound.settled epoch (by omega)) fresh (by omega)
  · intro other inside none'
    rw [ended]
    rcases mem inside with before | rfl
    · exact room other before none'
    · rw [result] at none'
      cases none'
  · intro other inside none' broken
    rw [broken_append added fresh] at broken
    rw [state]
    rcases mem inside with before | rfl
    · exact sound.known other before none' broken
    · rw [result] at none'
      cases none'

theorem arrive_eq_look {timeoutMs : Int} (valid : deadline timeoutMs = .ok ())
    (more : config.state.arrived + 1 ≠ parties) (moves : config.arrive parties timeoutMs expired = some config') :
    ∃ joined : Waits, joined.look config.waits.length expired = some config'
      ∧ joined.state = { config.state with arrived := config.state.arrived + 1 } ∧ joined.ended = config.ended
      ∧ joined.waits = config.waits ++ [⟨timeoutMs, config.state.generation, config.ended, false, none⟩] := by
  simp only [Waits.arrive, valid, BarrierState.arrive, if_neg more] at moves
  exact ⟨_, moves, rfl, rfl, rfl⟩

theorem look_of_breaks {step : WaitStep} (sound : config.Sound parties) (breaks : config.Breaks parties step)
    (moves : config.next parties step = some config') :
    ∃ (joined : Waits) (index : Nat), joined.look index true = some config' ∧ joined.Sound parties
      ∧ (∃ wait, joined.waits[index]? = some wait ∧ wait.result = none ∧ wait.epoch = joined.ended)
      ∧ (joined.Delayed ↔ config.Delayed) ∧ (joined.Room ↔ config.Room) := by
  cases step with
  | wake index expired =>
    obtain ⟨rfl, wait, found, pending, here⟩ := breaks
    exact ⟨config, index, moves, sound, ⟨wait, found, pending, here⟩, Iff.rfl, Iff.rfl⟩
  | arrive timeoutMs expired =>
    obtain ⟨valid, more, rfl⟩ := breaks
    obtain ⟨joined, looks, state, ended, added⟩ := arrive_eq_look valid more moves
    have joinedSound := sound.join added state ended rfl rfl rfl rfl more
    refine ⟨joined, _, looks, joinedSound,
      ⟨⟨timeoutMs, config.state.generation, config.ended, false, none⟩, by simp [added], rfl, ended.symm⟩, ?_, ?_⟩
    · constructor
      · rintro ⟨wait, member, pending, broken⟩
        rcases mem_append added member with old | rfl
        · exact ⟨wait, old, pending, (broken_append added rfl).1 broken⟩
        · exact absurd ((broken_append added rfl).1 broken) sound.not_broken
      · rintro ⟨wait, member, pending, broken⟩
        exact ⟨wait, by simp [added, member], pending, (broken_append added rfl).2 broken⟩
    · simp only [Room, added, ended, List.forall_mem_append, List.forall_mem_singleton]
      exact ⟨fun room => room.1, fun room => ⟨room, fun _ => by omega⟩⟩

theorem Sound.next {step : WaitStep} (sound : config.Sound parties) (prompt : config.Prompt parties step)
    (moves : config.next parties step = some config') : config'.Sound parties := by
  by_cases breaks : config.Breaks parties step
  · obtain ⟨joined, index, looks, joinedSound, -, delayed, room⟩ := look_of_breaks sound breaks moves
    exact joinedSound.look looks fun _ _ =>
      ⟨fun late => prompt.breaks breaks (delayed.1 late), room.2 (prompt.room (.inl breaks))⟩
  · cases step with
    | wake index expired =>
      refine sound.look moves fun expires current => absurd ?_ breaks
      obtain ⟨wait, found, pending, here⟩ := current
      exact ⟨expires, wait, found, pending, here⟩
    | arrive timeoutMs expired =>
      simp only [Waits.next] at moves
      cases valid : deadline timeoutMs with
      | error _ =>
        simp only [Waits.arrive, valid] at moves
        cases moves
        exact sound
      | ok _ =>
        by_cases last : config.state.arrived + 1 = parties
        · simp only [Waits.arrive, valid, BarrierState.arrive, if_pos last] at moves
          cases moves
          exact sound.complete rfl rfl rfl rfl rfl rfl rfl last (prompt.room (.inr ⟨valid, last⟩))
        · obtain ⟨joined, looks, state, ended, added⟩ := arrive_eq_look valid last moves
          exact (sound.join added state ended rfl rfl rfl rfl last).look looks
            fun expires _ => absurd ⟨valid, last, expires⟩ breaks

/-! ### Agreement -/

theorem Sound.agreement (sound : config.Sound parties) : config.Agreement parties := by
  constructor
  · intro wait member last returned
    have past : wait.epoch ≠ config.ended := by
      intro here
      rw [sound.current wait member here] at returned
      cases returned
    have := sound.epoch wait member
    cases sound.settled wait.epoch (by omega) with
    | complete arrivals trues whole => exact arrivals
    | broken arrivals isBroken results => cases results wait member rfl _ returned
  · intro epoch all
    have some' : config.arrivals epoch ≠ 0 := by
      have := sound.below
      omega
    obtain ⟨wait, member, same⟩ := List.countP_pos_iff.1 (Nat.pos_of_ne_zero some')
    obtain rfl : wait.epoch = epoch := by simpa using same
    have past : wait.epoch ≠ config.ended := by
      intro here
      have := sound.arrived
      have := sound.below
      rw [here] at all
      omega
    have := sound.epoch wait member
    cases sound.settled wait.epoch (by omega) with
    | complete arrivals trues whole => exact trues
    | broken arrivals isBroken results => omega
  · intro wait member broken result returned
    have past : wait.epoch ≠ config.ended := fun here => sound.not_broken (here ▸ broken)
    have := sound.epoch wait member
    cases sound.settled wait.epoch (by omega) with
    | complete arrivals trues whole => exact absurd broken whole
    | broken arrivals isBroken results => exact results wait member rfl result returned

theorem Sound.delayed_returns (sound : config.Sound parties) (looks : config.look index true = some config')
    (current : ∃ wait, config.waits[index]? = some wait ∧ wait.result = none ∧ wait.epoch = config.ended)
    (delayed : config.Delayed) (room : config.Room) :
    ∃ index later, config'.look index false = some later ∧ ¬ later.Agreement parties := by
  obtain ⟨late, member, asleep, broken⟩ := delayed
  obtain ⟨before, wait, after, split, position, pending, cases⟩ := look_cases looks
  have here : wait.epoch = config.ended := by
    obtain ⟨other, found, -, here⟩ := current
    obtain rfl : wait = other := by simpa [split, ← position] using found
    exact here
  have inside : wait ∈ config.waits := by simp [split]
  have number := sound.number wait inside
  have old := sound.pending wait inside pending
  rcases cases with ⟨earlier, -⟩ | ⟨-, wrong, -⟩ | ⟨-, -, state, ended, split'⟩
  · exact absurd (by rw [number, sound.generation, here]) earlier
  · cases wrong
  have past : late.epoch ≠ config.ended := fun now => sound.not_broken (now ▸ broken)
  have below := sound.epoch late member
  have above := room late member asleep
  have differs (epoch : Nat) (first : config.ended ≤ epoch) (last : epoch ≤ config.ended + 1) :
      UInt64.ofNat epoch ≠ late.generation := by
    intro same
    rw [sound.number late member] at same
    have equal := congrArg UInt64.toNat same
    simp only [UInt64.toNat_ofNat'] at equal
    omega
  have there : late ∈ config'.waits := by
    rw [split] at member
    rw [split']
    rcases List.mem_append.1 member with left | rest
    · simp [left]
    · rcases List.mem_cons.1 rest with rfl | right
      · exact absurd here past
      · simp [right]
  obtain ⟨position', found⟩ := List.mem_iff_getElem?.1 there
  obtain ⟨later, looks'⟩ : ∃ later, config'.look position' false = some later := by
    simp [Waits.look, found, asleep]
  refine ⟨position', later, looks', fun agreement => ?_⟩
  obtain ⟨before', late', after', again, position'', -, cases'⟩ := look_cases looks'
  obtain rfl : late' = late := by
    rw [again, ← position''] at found
    simpa using found
  rcases cases' with ⟨-, -, -, again'⟩ | ⟨same, -⟩ | ⟨-, wrong, -⟩
  · have forgotten : config'.state.brokenGeneration ≠ some late'.generation := by
      rw [state, number, here]
      intro same
      exact differs config.ended le_rfl (by omega) (Option.some.inj same)
    rw [if_neg forgotten] at again'
    have stays : later.Broken late'.epoch :=
      (broken_replace again again' rfl (sound.pending late' member asleep)).2
        (.inl ((broken_replace split split' rfl old).2 (.inl broken)))
    have answered : { late' with expired := false, result := some (.ok false) } ∈ later.waits := by
      rw [again']
      exact List.mem_append_right _ List.mem_cons_self
    cases agreement.timeout _ answered stays _ rfl
  · rw [state, sound.generation] at same
    refine absurd same.symm ?_
    rw [show UInt64.ofNat config.ended + 1 = UInt64.ofNat (config.ended + 1) from (UInt64.ofNat_add _ _).symm]
    exact differs _ (by omega) le_rfl
  · cases wrong

end Waits

/-- In every run in which no deadline passes while a wait of an earlier broken generation has not returned,
the waits agree. A step that does not meet this condition leads to where one wake-up breaks the agreement. -/
theorem barrier_agreement (barrier : Barrier) {config : Waits}
    (reached : (barrier.system.restrict (Waits.Prompt barrier.parties)).Reachable config) :
    config.Agreement barrier.parties
      ∧ ∀ step config', config.Breaks barrier.parties step → config.Delayed → config.Room →
          config.next barrier.parties step = some config' →
            ∃ index later, config'.next barrier.parties (.wake index false) = some later
              ∧ ¬ later.Agreement barrier.parties := by
  have sound : config.Sound barrier.parties := by
    refine reached.invariant (P := Waits.Sound barrier.parties) ?_ ?_
    · rintro state rfl
      exact Waits.sound_start barrier.positive
    · rintro state step state' before ⟨prompt, moves⟩
      exact before.next prompt moves
  refine ⟨sound.agreement, fun step config' breaks delayed room moves => ?_⟩
  obtain ⟨joined, index, looks, joinedSound, current, delayed', room'⟩ := Waits.look_of_breaks sound breaks moves
  exact joinedSound.delayed_returns looks current (delayed'.2 delayed) (room'.2 room)

/-- Both of two parties arrive, and the first one wakes. -/
def meeting : Waits where
  state := { arrived := 0, generation := 1, brokenGeneration := none }
  ended := 1
  waits := [⟨1000, 0, 0, false, some (.ok false)⟩, ⟨1000, 0, 0, false, some (.ok true)⟩]

theorem barrier_agreement_meeting : meeting.Agreement 2 := by
  let barrier : Barrier := ⟨2, by decide, by decide⟩
  have step {config config' : Waits} (step : WaitStep)
      (reached : (barrier.system.restrict (Waits.Prompt 2)).Reachable config) (inTime : ¬ config.Breaks 2 step)
      (room : config.Room) (moves : config.next 2 step = some config') :
      (barrier.system.restrict (Waits.Prompt 2)).Reachable config' :=
    reached.step ⟨⟨fun breaks => absurd breaks inTime, fun _ => room⟩, moves⟩
  have first : (barrier.system.restrict (Waits.Prompt 2)).Reachable
      ⟨⟨1, 0, none⟩, 0, [⟨1000, 0, 0, false, none⟩]⟩ :=
    step (.arrive 1000 false) (.initial rfl) (by simp [Waits.Breaks]) (by simp [Waits.Room, Waits.start]) rfl
  have second : (barrier.system.restrict (Waits.Prompt 2)).Reachable
      ⟨⟨0, 1, none⟩, 1, [⟨1000, 0, 0, false, none⟩, ⟨1000, 0, 0, false, some (.ok true)⟩]⟩ :=
    step (.arrive 1000 false) first (by simp [Waits.Breaks]) (by simp [Waits.Room]) rfl
  have third : (barrier.system.restrict (Waits.Prompt 2)).Reachable meeting :=
    step (.wake 0 false) second (by simp [Waits.Breaks]) (by simp [Waits.Room]) rfl
  exact (barrier_agreement barrier third).1

/-- The delayed wait of the first, broken generation returns `Ok`. -/
theorem barrier_disagreement :
    ¬ ∀ (barrier : Barrier) (config : Waits), barrier.system.Reachable config → config.Agreement barrier.parties := by
  intro all
  let barrier : Barrier := ⟨3, by decide, by decide⟩
  have reached : barrier.system.Reachable
      ⟨⟨0, 2, some 1⟩, 2, [⟨5000, 0, 0, false, some (.ok false)⟩, ⟨50, 0, 0, true, some (.error (.timeout 50))⟩,
        ⟨50, 1, 1, true, some (.error (.timeout 50))⟩]⟩ :=
    @System.Reachable.foldlM _ _ _ _ delayedWake _ _ (.initial rfl) rfl
  have agreement := all barrier _ reached
  have broken := agreement.timeout ⟨5000, 0, 0, false, some (.ok false)⟩ (by simp)
    ⟨⟨50, 0, 0, true, some (.error (.timeout 50))⟩, by simp, rfl, rfl⟩ (.ok false) rfl
  cases broken

end BasicNext.Dispatch
