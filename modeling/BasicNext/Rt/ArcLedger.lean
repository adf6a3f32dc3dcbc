import BasicNext.Lib.Transition
import BasicNext.Rt.Arc

/-!
# The objects of an ARC table

A run of an ARC core is judged by the objects it registered. The ledger keeps one entry per object, the
newest first: its handle, its successful retains and releases, how often a release reported its last
reference, and whether its destruction has finished. An operation with a handle is booked on the newest
object of that handle.

A slot numbers its objects by generations, and a generation comes back after `2 ^ 32 - 1` objects. The
invariant says, slot by slot, which generation each object has and what the slot holds of the newest.
-/

namespace BasicNext.Rt

/-! ### The ledger -/

/-- One object that a run registered. -/
structure Registered where
  id : ObjectId
  className : String
  address : UInt64
  retains : Nat := 0
  releases : Nat := 0
  /-- How often `release` reported the last reference. -/
  lasts : Nat := 0
  destroyed : Bool := false

/-- Changes the newest entry of `id`. -/
def amend (id : ObjectId) (change : Registered → Registered) : List Registered → List Registered
  | [] => []
  | object :: older =>
    if object.id = id then change object :: older else object :: amend id change older

/-- A core and the objects it has registered. -/
structure Table where
  core : ArcCore
  ledger : List Registered := []

inductive Operation where
  | register (className : String) (address : UInt64)
  | retain (id : ObjectId)
  | release (id : ObjectId)
  | finishDestroy (id : ObjectId)
deriving DecidableEq, Repr

namespace Registered

def addRetain (object : Registered) : Registered := { object with retains := object.retains + 1 }

def addRelease (last : Bool) (object : Registered) : Registered :=
  { object with
    releases := object.releases + 1, lasts := if last then object.lasts + 1 else object.lasts }

def destroy (object : Registered) : Registered := { object with destroyed := true }

end Registered

namespace Table

/-- One operation; a refused one changes nothing, and a `register` that panics ends the run. -/
def step (table : Table) : Operation → Option Table
  | .register className address => do
    let (core, id) ← table.core.register className address
    return { core, ledger := { id, className, address } :: table.ledger }
  | .retain id =>
    match table.core.retain id with
    | .ok (core, _) => some { core, ledger := amend id .addRetain table.ledger }
    | .error _ => some table
  | .release id =>
    match table.core.release id with
    | .ok (core, last) => some { core, ledger := amend id (.addRelease last) table.ledger }
    | .error _ => some table
  | .finishDestroy id =>
    match table.core.finishDestroy id with
    | .ok core => some { core, ledger := amend id .destroy table.ledger }
    | .error _ => some table

/-- The objects the slot at `index` has held, the newest first. -/
def objects (table : Table) (index : Nat) : List Registered := table.ledger.filter fun object => object.id.index = index

/-- A slot takes an object only while it has held fewer than `2 ^ 32 - 1`, and a count is raised only
below the largest 64-bit number. -/
def Admits (table : Table) : Operation → Prop
  | .register _ _ => ∀ index ∈ table.core.free.head?, (table.objects index.toNat).length < 2 ^ 32 - 1
  | .retain id => ∀ slot ∈ (table.core.slot id).toOption, slot.destroying = false → slot.strong.toNat < 2 ^ 64 - 1
  | .release _ | .finishDestroy _ => True

instance (table : Table) : (operation : Operation) → Decidable (table.Admits operation)
  | .register _ _ => Option.decidableForallMem _
  | .retain _ => Option.decidableForallMem _
  | .release _ | .finishDestroy _ => inferInstanceAs (Decidable True)

end Table

/-- The runs of the operations on a new core. -/
def arcTable (firstGeneration : UInt32) : Lib.System Table Operation :=
  .ofPartial { core := .withFirstGeneration firstGeneration } Table.step

/-! ### What a run promises -/

/-- The free list, the handles, the counts and the fate of every object. -/
structure Table.Sound (table : Table) : Prop where
  /-- A slot is on the free list exactly when it holds no object. -/
  free_iff : ∀ index : UInt32, index ∈ table.core.free ↔
    ∃ slot, table.core.slots[index.toNat]? = some slot ∧ slot.strong = 0 ∧ slot.destroying = false
  free_nodup : table.core.free.Nodup
  /-- The live objects have distinct handles. -/
  snapshot_nodup : (table.core.snapshot.map ObjectInfo.id).Nodup
  /-- All objects of the run, live or not, have distinct handles. -/
  handles_nodup : (table.ledger.map Registered.id).Nodup
  /-- The count of a live object: one, its retains, less its releases. -/
  strong : ∀ object ∈ table.ledger, object.lasts = 0 →
    ∃ strong, table.core.info object.id = some ⟨object.id, object.className, strong⟩
      ∧ strong.toNat + object.releases = 1 + object.retains
  /-- The last reference is reported once, when the object stops being alive. -/
  lasts : ∀ object ∈ table.ledger, object.lasts = if table.core.alive object.id then 0 else 1
  /-- The handle of a destroyed object is never alive nor accepted again. -/
  destroyed : ∀ object ∈ table.ledger, object.destroyed = true → table.core.alive object.id = false
      ∧ table.core.retain object.id = .error (.notAlive object.id)
      ∧ table.core.release object.id = .error (.notAlive object.id)

/-! ### Generations -/

/-- The generation of the `count`-th object of a slot. -/
def generationAt (first : UInt32) : Nat → UInt32
  | 0 => first
  | count + 1 => nextGeneration (generationAt first count)

theorem toNat_nextGeneration (generation : UInt32) : (nextGeneration generation).toNat
      = if generation.toNat = 2 ^ 32 - 1 then 1 else generation.toNat + 1 := by
  have bound := generation.toNat_lt
  have sum : (generation + 1).toNat = (generation.toNat + 1) % 2 ^ 32 := UInt32.toNat_add _ _
  show (if generation + 1 ≤ 1 then (1 : UInt32) else generation + 1).toNat = _
  split
  · next small =>
    rw [UInt32.le_iff_toNat_le, sum, UInt32.toNat_one] at small
    rw [UInt32.toNat_one]
    split <;> omega
  · next large =>
    rw [UInt32.le_iff_toNat_le, sum, UInt32.toNat_one] at large
    rw [sum]
    split <;> omega

theorem toNat_generationAt {first : UInt32} (positive : 0 < first.toNat) (count : Nat) :
    (generationAt first count).toNat = (first.toNat - 1 + count) % (2 ^ 32 - 1) + 1 := by
  have bound := first.toNat_lt
  induction count with
  | zero =>
    show first.toNat = _
    omega
  | succ count ih =>
    rw [generationAt, toNat_nextGeneration, ih]
    split <;> omega

theorem generationAt_inj {first : UInt32} (positive : 0 < first.toNat) {count count' : Nat}
    (bound : count < 2 ^ 32 - 1) (bound' : count' < 2 ^ 32 - 1)
    (same : generationAt first count = generationAt first count') : count = count' := by
  have same := congrArg UInt32.toNat same
  rw [toNat_generationAt positive, toNat_generationAt positive] at same
  omega

/-! ### The invariant of a slot -/

/-- The objects of a slot, the newest first, have the generations in order. -/
def Numbered (first : UInt32) (index : Nat) : List Registered → Prop
  | [] => True
  | object :: older =>
    object.id = .fromParts (UInt32.ofNat index) (generationAt first older.length)
      ∧ Numbered first index older

/-- An object whose destruction has finished, after one report of its last reference. -/
def Registered.Gone (object : Registered) : Prop := object.destroyed = true ∧ object.lasts = 1

/-- What a slot holds of its newest object; the older ones are gone. -/
inductive SlotState (first : UInt32) (slot : Slot) : List Registered → Prop
  | live {object : Registered} {older : List Registered} :
      0 < slot.strong → slot.destroying = false →
      slot.generation = generationAt first older.length →
      slot.className = object.className → slot.address = object.address →
      slot.strong.toNat + object.releases = 1 + object.retains →
      object.lasts = 0 → object.destroyed = false →
      (∀ other ∈ older, other.Gone) → SlotState first slot (object :: older)
  | dying {object : Registered} {older : List Registered} :
      slot.strong = 0 → slot.destroying = true →
      slot.generation = generationAt first older.length →
      object.lasts = 1 → object.destroyed = false →
      (∀ other ∈ older, other.Gone) → SlotState first slot (object :: older)
  | free {objects : List Registered} :
      slot.strong = 0 → slot.destroying = false →
      slot.generation = generationAt first objects.length →
      (∀ other ∈ objects, other.Gone) → SlotState first slot objects

/-- The slot holds no object. -/
def Slot.IsFree (slot : Slot) : Prop := slot.strong = 0 ∧ slot.destroying = false

theorem Slot.not_isFree {slot : Slot} (destroying : slot.destroying = true) : ¬ slot.IsFree :=
  fun free => Bool.noConfusion (destroying.symm.trans free.2)

theorem Slot.not_isFree_of_one {slot : Slot} (strong : slot.strong = 1) : ¬ slot.IsFree :=
  fun free => absurd (strong.symm.trans free.1) (by decide)

structure Table.Inv (first : UInt32) (table : Table) : Prop where
  first_eq : table.core.firstGeneration = first
  bound : table.core.slots.length ≤ 2 ^ 32
  stray : ∀ object ∈ table.ledger, object.id.index < table.core.slots.length
  slots : ∀ index slot, table.core.slots[index]? = some slot →
    SlotState first slot (table.objects index) ∧ Numbered first index (table.objects index)
      ∧ (table.objects index).length ≤ 2 ^ 32 - 1
  free_nodup : table.core.free.Nodup
  free_iff : ∀ index : UInt32, index ∈ table.core.free ↔ ∃ slot, table.core.slots[index.toNat]? = some slot ∧ slot.IsFree

/-! ### Booking -/

variable {change : Registered → Registered}

theorem amend_filter {id : ObjectId}
    (sameId : ∀ object, (change object).id = object.id) (ledger : List Registered) (index : Nat) :
    (amend id change ledger).filter (fun object => object.id.index = index)
      = if id.index = index then amend id change (ledger.filter fun object => object.id.index = index)
        else ledger.filter fun object => object.id.index = index := by
  induction ledger with
  | nil => simp [amend]
  | cons object older ih =>
    by_cases same : object.id = id
    · subst same
      by_cases here : object.id.index = index
      · simp [amend, here, sameId]
      · simp [amend, here, sameId]
    · by_cases here : object.id.index = index
      · simp only [amend, same, if_false, List.filter_cons, here, decide_true, if_true, ih]
        split <;> rfl
      · simpa [amend, same, here] using ih

variable {object : Registered}

theorem mem_amend {id : ObjectId} (sameId : ∀ object, (change object).id = object.id) {ledger : List Registered}
    (member : object ∈ amend id change ledger) :
    ∃ other ∈ ledger, other.id = object.id := by
  induction ledger with
  | nil => simp [amend] at member
  | cons first older ih =>
    unfold amend at member
    split at member
    · rcases List.mem_cons.1 member with rfl | member
      · exact ⟨first, List.mem_cons_self, (sameId first).symm⟩
      · exact ⟨object, List.mem_cons_of_mem _ member, rfl⟩
    · rcases List.mem_cons.1 member with rfl | member
      · exact ⟨object, List.mem_cons_self, rfl⟩
      · obtain ⟨other, within, same⟩ := ih member
        exact ⟨other, List.mem_cons_of_mem _ within, same⟩

/-! ### One slot changes -/

namespace Table

variable {first : UInt32} {table table' : Table} {index : Nat} {slot slot' : Slot} {id : ObjectId}

theorem Inv.touch (inv : table.Inv first) (found : table.core.slots[index]? = some slot)
    (sameFirst : table'.core.firstGeneration = table.core.firstGeneration)
    (slots : table'.core.slots = table.core.slots.set index slot')
    (others : ∀ other, other ≠ index → table'.objects other = table.objects other)
    (stray : ∀ object ∈ table'.ledger, object.id.index = index
      ∨ ∃ other ∈ table.ledger, other.id = object.id)
    (here : SlotState first slot' (table'.objects index) ∧ Numbered first index (table'.objects index)
      ∧ (table'.objects index).length ≤ 2 ^ 32 - 1)
    (nodup : table'.core.free.Nodup)
    (free : ∀ other : UInt32, other ∈ table'.core.free ↔
      if other.toNat = index then slot'.IsFree else other ∈ table.core.free) : table'.Inv first := by
  have bound : index < table.core.slots.length := (List.getElem?_eq_some_iff.1 found).1
  refine ⟨sameFirst.trans inv.first_eq, ?_, fun object member => ?_, fun other slot'' found'' => ?_, nodup, fun other => ?_⟩
  · rw [slots, List.length_set]
    exact inv.bound
  · rw [slots, List.length_set]
    rcases stray object member with here | ⟨other, within, same⟩
    · omega
    · exact same ▸ inv.stray other within
  · rw [slots, List.getElem?_set] at found''
    by_cases same : index = other
    · subst same
      obtain rfl : slot' = slot'' := by simpa [bound] using found''
      exact here
    · rw [if_neg same] at found''
      rw [others other (Ne.symm same)]
      exact inv.slots other slot'' found''
  · rw [free, slots, List.getElem?_set]
    by_cases same : other.toNat = index
    · simp [same, bound]
    · rw [if_neg same, if_neg (Ne.symm same)]
      exact inv.free_iff other

theorem Inv.newest (inv : table.Inv first) (accepted : table.core.slot id = .ok slot) :
    ∃ object older, table.objects id.index = object :: older ∧ object.id = id ∧ ¬ slot.IsFree := by
  obtain ⟨found, generation, occupied⟩ := ArcCore.slot_eq_ok.1 accepted
  obtain ⟨state, numbered, -⟩ := inv.slots _ _ found
  have bound := (List.getElem?_eq_some_iff.1 found).1
  have slots := inv.bound
  have notFree : ¬ slot.IsFree := by
    rintro ⟨strong, destroying⟩
    simp [strong, destroying] at occupied
  have handle : ∀ {object : Registered} {older : List Registered},
      object.id = .fromParts (UInt32.ofNat id.index) (generationAt first older.length) →
        slot.generation = generationAt first older.length → object.id = id := by
    intro object older named same
    rw [named, ObjectId.fromParts_eq]
    refine ⟨?_, by rw [← same, generation]⟩
    rw [UInt32.toNat_ofNat']
    omega
  generalize table.objects id.index = objects at state numbered ⊢
  cases state with
  | live _ _ same => exact ⟨_, _, rfl, handle numbered.1 same, notFree⟩
  | dying _ _ same => exact ⟨_, _, rfl, handle numbered.1 same, notFree⟩
  | free strong destroying => exact absurd ⟨strong, destroying⟩ notFree

variable {core' : ArcCore}

theorem Inv.book (inv : table.Inv first) (accepted : table.core.slot id = .ok slot)
    (sameId : ∀ object, (change object).id = object.id)
    (sameFirst : core'.firstGeneration = table.core.firstGeneration)
    (slots : core'.slots = table.core.slots.set id.index slot')
    (state : ∀ object older, object.id = id → SlotState first slot (object :: older) →
      SlotState first slot' (change object :: older))
    (nodup : core'.free.Nodup)
    (free : ∀ other : UInt32, other ∈ core'.free ↔
      if other.toNat = id.index then slot'.IsFree else other ∈ table.core.free) :
    Inv first { core := core', ledger := amend id change table.ledger } := by
  obtain ⟨found, -, -⟩ := ArcCore.slot_eq_ok.1 accepted
  obtain ⟨object, older, newest, named, -⟩ := inv.newest accepted
  obtain ⟨before, numbered, count⟩ := inv.slots _ _ found
  have booked : amend id change (object :: older) = change object :: older := by simp [amend, named]
  refine inv.touch found sameFirst slots (fun other differs => ?_) (fun other member => ?_) ?_ nodup free
  · unfold objects
    rw [amend_filter sameId, if_neg (Ne.symm differs)]
  · exact .inr (mem_amend sameId member)
  · have objects_eq : objects { core := core', ledger := amend id change table.ledger } id.index
        = change object :: older := by
      unfold objects at newest ⊢
      rw [amend_filter sameId, if_pos rfl, newest, booked]
    rw [newest] at before numbered count
    rw [objects_eq]
    exact ⟨state object older named before, ⟨(sameId object).trans numbered.1, numbered.2⟩, count⟩

theorem Inv.free_of_occupied (inv : table.Inv first) (accepted : table.core.slot id = .ok slot)
    (occupied : ¬ slot'.IsFree) (other : UInt32) : other ∈ table.core.free ↔
      if other.toNat = id.index then slot'.IsFree else other ∈ table.core.free := by
  obtain ⟨-, -, -, -, notFree⟩ := inv.newest accepted
  split
  · next same =>
    refine ⟨fun member => ?_, fun free => absurd free occupied⟩
    obtain ⟨slot'', found, free⟩ := (inv.free_iff other).1 member
    rw [same, (ArcCore.slot_eq_ok.1 accepted).1] at found
    obtain rfl : slot = slot'' := by simpa using found
    exact absurd free notFree
  · rfl

theorem Inv.retain {strong : UInt64} (inv : table.Inv first)
    (admits : table.Admits (.retain id)) (h : table.core.retain id = .ok (core', strong)) :
    Inv first { core := core', ledger := amend id .addRetain table.ledger } := by
  obtain ⟨slot, accepted, ⟨destroying, rfl, -⟩ | ⟨running, rfl, -⟩⟩ := ArcCore.retain_eq_ok.1 h
  · refine inv.book accepted (fun _ => rfl) rfl ?_ ?_ inv.free_nodup
      (inv.free_of_occupied accepted (Slot.not_isFree destroying))
    · obtain ⟨bound, same⟩ := List.getElem?_eq_some_iff.1 (ArcCore.slot_eq_ok.1 accepted).1
      rw [← same, List.set_getElem_self]
    · intro object older _ state
      cases state with
      | live _ running => simp [running] at destroying
      | dying strong _ generation lasts kept gone =>
        exact .dying strong destroying generation lasts kept gone
      | free _ idle => simp [idle] at destroying
  · have limit := admits slot (by simp [accepted, Except.toOption]) running
    have sum : (slot.strong + 1).toNat = slot.strong.toNat + 1 := by
      rw [UInt64.toNat_add, UInt64.toNat_one]
      omega
    have positive : 0 < slot.strong + 1 := by
      rw [UInt64.lt_iff_toNat_lt, sum, UInt64.toNat_zero]
      omega
    have occupied : ¬ Slot.IsFree { slot with strong := slot.strong + 1 } := fun free => by
      rw [show slot.strong + 1 = 0 from free.1] at positive
      exact absurd positive (by decide)
    refine inv.book accepted (fun _ => rfl) rfl rfl ?_ inv.free_nodup
      (inv.free_of_occupied accepted occupied)
    intro object older named state
    cases state with
    | live _ running generation className address count lasts kept gone =>
      refine .live positive running generation className address ?_ lasts kept gone
      simp only [Registered.addRetain, sum]
      omega
    | dying _ destroying => simp [running] at destroying
    | free strong idle =>
      obtain ⟨-, -, -, -, notFree⟩ := inv.newest accepted
      exact absurd ⟨strong, idle⟩ notFree

theorem Inv.release {last : Bool} (inv : table.Inv first) (h : table.core.release id = .ok (core', last)) :
    Inv first { core := core', ledger := amend id (.addRelease last) table.ledger } := by
  obtain ⟨slot, accepted, ⟨destroying, rfl, rfl⟩ | ⟨running, rfl, rfl⟩⟩ := ArcCore.release_eq_ok.1 h
  · refine inv.book accepted (fun _ => rfl) rfl ?_ ?_ inv.free_nodup
      (inv.free_of_occupied accepted (Slot.not_isFree destroying))
    · obtain ⟨bound, same⟩ := List.getElem?_eq_some_iff.1 (ArcCore.slot_eq_ok.1 accepted).1
      rw [← same, List.set_getElem_self]
    · intro object older _ state
      cases state with
      | live _ running => simp [running] at destroying
      | dying strong _ generation lasts kept gone =>
        exact .dying strong destroying generation lasts kept gone
      | free _ idle => simp [idle] at destroying
  · have live : 0 < slot.strong := by
      obtain ⟨-, -, positive | destroying⟩ := ArcCore.slot_eq_ok.1 accepted
      · exact positive
      · simp [running] at destroying
    have positive : 0 < slot.strong.toNat := UInt64.lt_iff_toNat_lt.1 live
    have bound := slot.strong.toNat_lt
    have difference : (slot.strong - 1).toNat = slot.strong.toNat - 1 := by
      rw [UInt64.toNat_sub, UInt64.toNat_one]
      omega
    have occupied : ¬ Slot.IsFree
        { slot with strong := slot.strong - 1, destroying := slot.strong - 1 == 0 } := by
      rintro ⟨none, idle⟩
      simp only [beq_eq_false_iff_ne] at none idle
      exact idle none
    refine inv.book accepted (fun _ => rfl) rfl rfl ?_ inv.free_nodup
      (inv.free_of_occupied accepted occupied)
    intro object older named state
    cases state with
    | live _ running generation className address count lasts kept gone =>
      by_cases last : slot.strong - 1 = 0
      · refine .dying last (by simp [last]) generation ?_ kept gone
        simp [Registered.addRelease, last, lasts]
      · have more : 0 < slot.strong - 1 := by
          rw [UInt64.lt_iff_toNat_lt, UInt64.toNat_zero]
          refine Nat.pos_of_ne_zero fun zero => last (UInt64.toNat_inj.1 ?_)
          rw [zero, UInt64.toNat_zero]
        refine .live more (by simpa using last) generation className address ?_ ?_ kept gone
        · simp only [Registered.addRelease, difference]
          omega
        · simp [Registered.addRelease, last, lasts]
    | dying _ destroying => simp [running] at destroying
    | free strong idle =>
      obtain ⟨-, -, -, -, notFree⟩ := inv.newest accepted
      exact absurd ⟨strong, idle⟩ notFree

theorem Inv.finishDestroy (inv : table.Inv first) (h : table.core.finishDestroy id = .ok core') :
    Inv first { core := core', ledger := amend id .destroy table.ledger } := by
  obtain ⟨slot, accepted, destroying, rfl⟩ := ArcCore.finishDestroy_eq_ok.1 h
  have strong : slot.strong = 0 := by
    obtain ⟨object, older, newest, -, notFree⟩ := inv.newest accepted
    obtain ⟨state, -, -⟩ := inv.slots _ _ (ArcCore.slot_eq_ok.1 accepted).1
    rw [newest] at state
    cases state with
    | live _ running => simp [running] at destroying
    | dying strong => exact strong
    | free strong => exact strong
  have fresh : id.slot ∉ table.core.free := by
    intro member
    obtain ⟨slot'', found, free⟩ := (inv.free_iff _).1 member
    rw [ObjectId.toNat_slot, (ArcCore.slot_eq_ok.1 accepted).1] at found
    obtain rfl : slot = slot'' := by simpa using found
    exact Slot.not_isFree destroying free
  refine inv.book accepted (fun _ => rfl) rfl rfl ?_ (List.nodup_cons.2 ⟨fresh, inv.free_nodup⟩) ?_
  · intro object older named state
    cases state with
    | live _ running => simp [running] at destroying
    | dying _ _ generation lasts _ gone =>
      refine .free strong rfl ?_ fun other member => ?_
      · simp only [generation]
        rfl
      · rcases List.mem_cons.1 member with rfl | member
        · exact ⟨rfl, lasts⟩
        · exact gone other member
    | free _ idle => simp [idle] at destroying
  · intro other
    have sameIndex : other.toNat = id.index ↔ other = id.slot := by
      rw [← ObjectId.toNat_slot, UInt32.toNat_inj]
    split
    · next same => simp [sameIndex.1 same, Slot.IsFree, strong]
    · next differs =>
      rw [sameIndex] at differs
      exact List.mem_cons.trans ⟨fun h => h.resolve_left differs, .inr⟩

theorem objects_cons (table : Table) (core' : ArcCore) (object : Registered) (index : Nat) :
    objects { core := core', ledger := object :: table.ledger } index
      = if object.id.index = index then object :: table.objects index else table.objects index := by
  unfold objects
  rw [List.filter_cons]
  split <;> simp_all

theorem Inv.register {className : String} {address : UInt64} (inv : table.Inv first)
    (admits : table.Admits (.register className address))
    (h : table.core.register className address = some (core', id)) :
    Inv first { core := core', ledger := { id, className, address } :: table.ledger } := by
  unfold ArcCore.register at h
  cases stack : table.core.free with
  | cons index free =>
    simp only [stack, Option.bind_eq_bind, Option.bind_eq_some_iff, Option.pure_def, Option.some.injEq, Prod.mk.injEq] at h
    obtain ⟨slot, found, rfl, rfl⟩ := h
    have listed : index ∈ table.core.free := by simp [stack]
    obtain ⟨slot', found', strong, idle⟩ := (inv.free_iff index).1 listed
    obtain rfl : slot = slot' := by simpa [found] using found'
    obtain ⟨state, numbered, -⟩ := inv.slots _ _ found
    have nodup := inv.free_nodup
    rw [stack] at nodup
    have count := admits index (by simp [stack])
    have handle : (ObjectId.fromParts index slot.generation).index = index.toNat := by simp
    refine inv.touch found rfl rfl (fun other differs => ?_) (fun object member => ?_) ?_
      (List.nodup_cons.1 nodup).2 fun other => ?_
    · rw [objects_cons, handle, if_neg (Ne.symm differs)]
    · rcases List.mem_cons.1 member with rfl | member
      · exact .inl handle
      · exact .inr ⟨object, member, rfl⟩
    · rw [objects_cons, handle, if_pos rfl]
      generalize table.objects index.toNat = objects at state numbered count ⊢
      cases state with
      | live positive => simp [strong] at positive
      | dying _ destroying => simp [idle] at destroying
      | free _ _ generation gone =>
        refine ⟨.live (by decide : (0 : UInt64) < 1) rfl generation rfl rfl rfl rfl rfl gone, ⟨?_, numbered⟩, ?_⟩
        · rw [generation, UInt32.ofNat_toNat]
        · simp only [List.length_cons]
          omega
    · split
      · next same =>
        obtain rfl : other = index := UInt32.toNat_inj.1 same
        exact ⟨fun member => absurd member (List.nodup_cons.1 nodup).1,
          fun free => absurd free (Slot.not_isFree_of_one rfl)⟩
      · next differs =>
        rw [stack, List.mem_cons]
        refine ⟨.inr, fun h => h.resolve_left fun same => differs (by rw [same])⟩
  | nil =>
    simp only [stack] at h
    split at h
    · next room =>
      simp only [Option.some.injEq, Prod.mk.injEq] at h
      obtain ⟨rfl, rfl⟩ := h
      have number : (UInt32.ofNat table.core.slots.length).toNat = table.core.slots.length := by
        rw [UInt32.toNat_ofNat']
        omega
      have none_here : table.objects table.core.slots.length = [] := by
        unfold objects
        rw [List.filter_eq_nil_iff]
        intro object member same
        have := inv.stray object member
        simp only [decide_eq_true_eq] at same
        omega
      refine ⟨inv.first_eq, ?_, fun object member => ?_, fun index slot found => ?_, ?_, fun index => ?_⟩
      · simp only [List.length_append, List.length_singleton]
        omega
      · simp only [List.length_append, List.length_singleton]
        rcases List.mem_cons.1 member with rfl | member
        · simp [number]
        · have := inv.stray object member
          omega
      · rw [objects_cons, ObjectId.index_fromParts, number]
        rcases Nat.lt_trichotomy index table.core.slots.length with before | rfl | after
        · rw [List.getElem?_append_left before] at found
          rw [if_neg before.ne']
          exact inv.slots index slot found
        · obtain rfl : _ = slot := by simpa using found
          rw [if_pos rfl, none_here]
          refine ⟨.live (by decide : (0 : UInt64) < 1) rfl inv.first_eq rfl rfl rfl rfl rfl (by simp), ⟨?_, trivial⟩, by simp⟩
          rw [inv.first_eq]
          rfl
        · rw [List.getElem?_eq_none (by simp; omega)] at found
          cases found
      · simp
      · have old := inv.free_iff index
        simp only [stack, List.not_mem_nil, false_iff, not_exists, not_and] at old ⊢
        intro slot found
        rcases Nat.lt_trichotomy index.toNat table.core.slots.length with before | same | after
        · rw [List.getElem?_append_left before] at found
          exact old slot found
        · rw [same] at found
          obtain rfl : _ = slot := by simpa using found
          exact Slot.not_isFree_of_one rfl
        · rw [List.getElem?_eq_none (by simp; omega)] at found
          cases found
    · cases h

/-! ### Runs -/

theorem Inv.start (generation : UInt32) :
    ∃ first, 0 < first.toNat ∧ Inv first { core := .withFirstGeneration generation } := by
  refine ⟨if generation = 0 then 1 else generation, ?_, rfl, by simp [ArcCore.withFirstGeneration],
    by simp, by simp [ArcCore.withFirstGeneration], by simp [ArcCore.withFirstGeneration],
    by simp [ArcCore.withFirstGeneration]⟩
  split
  · decide
  · next nonzero =>
    refine Nat.pos_of_ne_zero fun zero => nonzero (UInt32.toNat_inj.1 ?_)
    rw [zero]
    rfl

theorem Inv.step {operation : Operation} (inv : table.Inv first) (admits : table.Admits operation)
    (h : table.step operation = some table') : table'.Inv first := by
  cases operation with
  | register className address =>
    simp only [Table.step, Option.bind_eq_bind, Option.bind_eq_some_iff, Option.pure_def, Option.some.injEq] at h
    obtain ⟨⟨core', id⟩, registered, rfl⟩ := h
    exact inv.register admits registered
  | retain id =>
    simp only [Table.step] at h
    split at h
    · next core' strong accepted =>
      obtain rfl := Option.some.inj h
      exact inv.retain admits accepted
    · obtain rfl := Option.some.inj h
      exact inv
  | release id =>
    simp only [Table.step] at h
    split at h
    · next core' last accepted =>
      obtain rfl := Option.some.inj h
      exact inv.release accepted
    · obtain rfl := Option.some.inj h
      exact inv
  | finishDestroy id =>
    simp only [Table.step] at h
    split at h
    · next core' accepted =>
      obtain rfl := Option.some.inj h
      exact inv.finishDestroy accepted
    · obtain rfl := Option.some.inj h
      exact inv

/-! ### From the invariant to the promises -/

theorem numbered_mem {objects : List Registered} (numbered : Numbered first index objects) (member : object ∈ objects) :
    ∃ count < objects.length, object.id = .fromParts (UInt32.ofNat index) (generationAt first count) := by
  induction objects with
  | nil => simp at member
  | cons newest older ih =>
    rcases List.mem_cons.1 member with rfl | member
    · exact ⟨older.length, by simp, numbered.1⟩
    · obtain ⟨count, small, named⟩ := ih numbered.2 member
      exact ⟨count, by simp only [List.length_cons]; omega, named⟩

theorem numbered_nodup {objects : List Registered} (positive : 0 < first.toNat)
    (numbered : Numbered first index objects) (count : objects.length ≤ 2 ^ 32 - 1) :
    (objects.map Registered.id).Nodup := by
  induction objects with
  | nil => simp
  | cons newest older ih =>
    simp only [List.length_cons] at count
    rw [List.map_cons, List.nodup_cons]
    refine ⟨fun again => ?_, ih numbered.2 (by omega)⟩
    obtain ⟨object, member, same⟩ := List.mem_map.1 again
    obtain ⟨earlier, small, named⟩ := numbered_mem numbered.2 member
    rw [named, numbered.1] at same
    have same := congrArg ObjectId.generation same
    rw [ObjectId.generation_fromParts, ObjectId.generation_fromParts] at same
    have := generationAt_inj positive (by omega) (by omega) same
    omega

/-- What the core holds of an object. -/
inductive Fate (core : ArcCore) (object : Registered) : Prop
  | live {slot : Slot} : core.slots[object.id.index]? = some slot → 0 < slot.strong →
      slot.generation = object.id.generation → slot.className = object.className →
      slot.strong.toNat + object.releases = 1 + object.retains → object.lasts = 0 →
      object.destroyed = false → Fate core object
  | dying : core.alive object.id = false → object.lasts = 1 → object.destroyed = false → Fate core object
  | gone : core.alive object.id = false → object.lasts = 1 →
      core.slot object.id = .error (.notAlive object.id) → Fate core object

theorem Inv.fate (inv : table.Inv first) (positive : 0 < first.toNat)
    (member : object ∈ table.ledger) : Fate table.core object := by
  obtain ⟨slot, found⟩ : ∃ slot, table.core.slots[object.id.index]? = some slot :=
    ⟨_, List.getElem?_eq_getElem (inv.stray object member)⟩
  obtain ⟨state, numbered, count⟩ := inv.slots _ _ found
  have listed : object ∈ table.objects object.id.index := by simp [objects, member]
  have older_differs : ∀ {newest : Registered} {older : List Registered},
      Numbered first object.id.index (newest :: older) → (newest :: older).length ≤ 2 ^ 32 - 1 →
      object ∈ older → generationAt first older.length ≠ object.id.generation := by
    intro newest older numbered count member same
    simp only [List.length_cons] at count
    obtain ⟨earlier, small, named⟩ := numbered_mem numbered.2 member
    rw [named, ObjectId.generation_fromParts] at same
    have := generationAt_inj positive (by omega) (by omega) same
    omega
  have not_alive : slot.strong = 0 ∨ slot.generation ≠ object.id.generation → table.core.alive object.id = false := by
    intro dead
    rw [Bool.eq_false_iff, ne_eq, ArcCore.alive_eq_true]
    rintro ⟨slot', found', generation, strong⟩
    obtain rfl : slot = slot' := by simpa [found] using found'
    rcases dead with zero | differs
    · simp [zero] at strong
    · exact differs generation
  have refused : slot.IsFree ∨ slot.generation ≠ object.id.generation →
      table.core.slot object.id = .error (.notAlive object.id) := by
    intro dead
    unfold ArcCore.slot
    rw [found]
    refine if_neg ?_
    rintro ⟨generation, occupied⟩
    rcases dead with ⟨zero, idle⟩ | differs
    · simp [zero, idle] at occupied
    · exact differs generation
  generalize table.objects object.id.index = objects at state numbered count listed
  cases state with
  | live strong running generation className _ balance lasts kept gone =>
    rcases List.mem_cons.1 listed with rfl | old
    · refine .live found strong ?_ className balance lasts kept
      have named := congrArg ObjectId.generation numbered.1
      rw [ObjectId.generation_fromParts] at named
      rw [named, generation]
    · have differs : slot.generation ≠ object.id.generation :=
        generation ▸ older_differs numbered count old
      exact .gone (not_alive (.inr differs)) (gone object old).2 (refused (.inr differs))
  | dying strong destroying generation lasts kept gone =>
    rcases List.mem_cons.1 listed with rfl | old
    · exact .dying (not_alive (.inl strong)) lasts kept
    · have differs : slot.generation ≠ object.id.generation :=
        generation ▸ older_differs numbered count old
      exact .gone (not_alive (.inl strong)) (gone object old).2 (refused (.inr differs))
  | free strong idle _ gone =>
    exact .gone (not_alive (.inl strong)) (gone object listed).2 (refused (.inl ⟨strong, idle⟩))

theorem Inv.handles_nodup (inv : table.Inv first) (positive : 0 < first.toNat) :
    (table.ledger.map Registered.id).Nodup := by
  rw [List.nodup_iff_count_le_one]
  intro id
  by_cases member : id ∈ table.ledger.map Registered.id
  · obtain ⟨object, listed, rfl⟩ := List.mem_map.1 member
    obtain ⟨slot, found⟩ : ∃ slot, table.core.slots[object.id.index]? = some slot :=
      ⟨_, List.getElem?_eq_getElem (inv.stray object listed)⟩
    obtain ⟨-, numbered, count⟩ := inv.slots _ _ found
    have distinct := List.nodup_iff_count_le_one.1 (numbered_nodup positive numbered count) object.id
    have sameCount : (table.ledger.map Registered.id).count object.id
        = ((table.objects object.id.index).map Registered.id).count object.id := by
      rw [List.count_eq_countP, List.count_eq_countP, List.countP_map, List.countP_map, objects, List.countP_filter]
      refine List.countP_congr fun other _ => ?_
      simp only [Function.comp_apply, beq_iff_eq, Bool.and_eq_true, decide_eq_true_eq]
      exact ⟨fun same => ⟨same, by rw [same]⟩, And.left⟩
    rw [sameCount]
    exact distinct
  · rw [List.count_eq_zero_of_not_mem member]
    exact Nat.zero_le _

theorem Inv.snapshot_nodup (inv : table.Inv first) : (table.core.snapshot.map ObjectInfo.id).Nodup := by
  have numbers : (table.core.slots.zipIdx.map Prod.snd).Nodup := by
    rw [List.zipIdx_map_snd]
    exact List.nodup_range'
  have distinct : table.core.slots.zipIdx.Pairwise fun entry other => entry.2 ≠ other.2 := List.pairwise_map.1 numbers
  have small : ∀ {slot : Slot} {index : Nat}, (slot, index) ∈ table.core.slots.zipIdx →
      (UInt32.ofNat index).toNat = index := by
    intro slot index member
    have bound := (List.getElem?_eq_some_iff.1 (List.mk_mem_zipIdx_iff_getElem?.1 member)).1
    have limit := inv.bound
    rw [UInt32.toNat_ofNat']
    omega
  have handle : ∀ {slot : Slot} {index : Nat} {id : ObjectId}, (slot, index) ∈ table.core.slots.zipIdx →
      Option.map ObjectInfo.id (if 0 < slot.strong then some {
        id := .fromParts (UInt32.ofNat index) slot.generation, className := slot.className,
        strong := slot.strong } else none) = some id → id.index = index := by
    intro slot index id member found
    split at found
    · obtain rfl := Option.some.inj found
      simp [small member]
    · cases found
  unfold ArcCore.snapshot
  rw [List.map_filterMap, List.Nodup, List.pairwise_filterMap]
  refine distinct.imp_of_mem ?_
  rintro ⟨slot, index⟩ ⟨slot', index'⟩ member member' differs id found id' found' rfl
  exact differs ((handle member found).symm.trans (handle member' found'))

theorem Inv.sound (inv : table.Inv first) (positive : 0 < first.toNat) : table.Sound := by
  refine ⟨inv.free_iff, inv.free_nodup, inv.snapshot_nodup, inv.handles_nodup positive,
    fun object member none => ?_, fun object member => ?_, fun object member destroyed => ?_⟩
  · cases inv.fate positive member with
    | live found strong generation className balance =>
      have alive := ArcCore.alive_eq_true.2 ⟨_, found, generation, strong⟩
      exact ⟨_, by simp [ArcCore.info, found, alive, className], balance⟩
    | dying _ lasts => omega
    | gone _ lasts => omega
  · cases inv.fate positive member with
    | live found strong generation _ _ lasts =>
      rw [ArcCore.alive_eq_true.2 ⟨_, found, generation, strong⟩, lasts, if_pos rfl]
    | dying dead lasts => rw [dead, lasts, if_neg (by simp)]
    | gone dead lasts => rw [dead, lasts, if_neg (by simp)]
  · cases inv.fate positive member with
    | live _ _ _ _ _ _ kept => simp [kept] at destroyed
    | dying _ _ kept => simp [kept] at destroyed
    | gone dead _ refused =>
      exact ⟨dead, by rw [ArcCore.retain, refused]; rfl, by rw [ArcCore.release, refused]; rfl⟩

end Table

/-! ### Every admitted run -/

/-- In every run that reuses no slot that has held `2 ^ 32 - 1` objects and raises no count of
`2 ^ 64 - 1`, the table keeps its promises. -/
theorem arcTable_sound {generation : UInt32} {table : Table}
    (reached : ((arcTable generation).restrict Table.Admits).Reachable table) : table.Sound := by
  obtain ⟨first, positive, start⟩ := Table.Inv.start generation
  have inv : Table.Inv first table := by
    refine reached.invariant (fun state initial => ?_) ?_
    · rw [show state = _ from initial]
      exact start
    · intro state operation next inv move
      exact inv.step move.1 move.2
  exact inv.sound positive

theorem admitted_step {generation : UInt32} {table table' : Table} (operation : Operation)
    (reached : ((arcTable generation).restrict Table.Admits).Reachable table)
    (admits : table.Admits operation) (h : table.step operation = some table') :
    ((arcTable generation).restrict Table.Admits).Reachable table' :=
  reached.step ⟨admits, h⟩

/-- A box that is retained, released twice and destroyed, and a second box in its slot. -/
theorem arcTable_sound_reusedSlot :
    ∃ table, ((arcTable 1).restrict Table.Admits).Reachable table ∧ table.ledger.length = 2
      ∧ table.Sound := by
  have start : ((arcTable 1).restrict Table.Admits).Reachable { core := .withFirstGeneration 1 } := .initial rfl
  have registered := admitted_step (.register "Box" 0) start (by decide) rfl
  have retained := admitted_step (.retain (.fromParts 0 1)) registered (by decide) rfl
  have released := admitted_step (.release (.fromParts 0 1)) retained trivial rfl
  have dying := admitted_step (.release (.fromParts 0 1)) released trivial rfl
  have gone := admitted_step (.finishDestroy (.fromParts 0 1)) dying trivial rfl
  have reused := admitted_step (.register "Box" 0) gone (by decide) rfl
  exact ⟨_, reused, rfl, arcTable_sound reused⟩

/-! ### A generation that comes back -/

/-- The `count`-th box: registered, released and destroyed. -/
def boxCycle (count : Nat) : List Operation :=
  let id := .fromParts 0 (generationAt 1 count)
  [.register "Box" 0, .release id, .finishDestroy id]

def boxCycles : Nat → List Operation
  | 0 => []
  | count + 1 => boxCycles count ++ boxCycle count

def goneBoxes : Nat → List Registered
  | 0 => []
  | count + 1 =>
    { id := .fromParts 0 (generationAt 1 count), className := "Box", address := 0, releases := 1,
      lasts := 1, destroyed := true } :: goneBoxes count

def boxesGone (count : Nat) : Table :=
  { core :=
      { slots := [⟨generationAt 1 count, 0, false, "", 0⟩], free := [0], firstGeneration := 1 }
    ledger := goneBoxes count }

theorem boxCycle_run (count : Nat) :
    (boxCycle count).foldlM Table.step (boxesGone count) = some (boxesGone (count + 1)) := by
  have slot : (ObjectId.fromParts 0 (generationAt 1 count)).slot = 0 := by
    apply UInt32.toNat_inj.1
    rw [ObjectId.toNat_slot, ObjectId.index_fromParts]
  simp [boxCycle, boxesGone, goneBoxes, Table.step, ArcCore.register, ArcCore.release,
    ArcCore.finishDestroy, ArcCore.slot, ArcCore.setSlot, amend, Registered.addRelease,
    Registered.destroy, slot, generationAt, bind, Except.bind, pure, Except.pure]

theorem boxCycles_run (count : Nat) :
    (boxCycles (count + 1)).foldlM Table.step { core := .new } = some (boxesGone (count + 1)) := by
  induction count with
  | zero => rfl
  | succ count ih =>
    rw [boxCycles, List.foldlM_append, ih]
    exact boxCycle_run (count + 1)

theorem first_box_gone (count : Nat) : ∃ object ∈ goneBoxes (count + 1),
    object.destroyed = true ∧ object.id = .fromParts 0 1 := by
  induction count with
  | zero => exact ⟨_, List.mem_cons_self, rfl, rfl⟩
  | succ count ih =>
    obtain ⟨object, member, facts⟩ := ih
    exact ⟨object, List.mem_cons_of_mem _ member, facts⟩

/-- After `2 ^ 32 - 1` boxes the next one has the handle of the first, which is alive again. -/
theorem reused_handle_not_sound :
    ∃ table, (boxCycles (2 ^ 32 - 1) ++ [Operation.register "Box" 0]).foldlM Table.step { core := .new }
        = some table
      ∧ (arcTable 1).Reachable table ∧ ¬ table.Sound := by
  obtain ⟨count, count_eq⟩ : ∃ count, 2 ^ 32 - 1 = count + 1 := ⟨2 ^ 32 - 2, rfl⟩
  have wrapped : generationAt 1 (count + 1) = 1 := by
    apply UInt32.toNat_inj.1
    rw [toNat_generationAt (by decide), ← count_eq]
    rfl
  obtain ⟨object, member, destroyed, named⟩ := first_box_gone count
  have run : (boxCycles (count + 1) ++ [Operation.register "Box" 0]).foldlM Table.step { core := .new }
      = some
        { core := ⟨[⟨1, 1, false, "Box", 0⟩], [], 1⟩
          ledger := { id := .fromParts 0 1, className := "Box", address := 0 }
            :: goneBoxes (count + 1) } := by
    rw [List.foldlM_append, boxCycles_run]
    simp [boxesGone, Table.step, ArcCore.register, wrapped]
  rw [count_eq]
  refine ⟨_, run, (Lib.System.Reachable.initial rfl).foldlM run, fun sound => ?_⟩
  have dead := (sound.destroyed object (List.mem_cons_of_mem _ member) destroyed).1
  rw [named] at dead
  have alive : ArcCore.alive ⟨[⟨1, 1, false, "Box", 0⟩], [], 1⟩ (.fromParts 0 1) = true := by decide
  exact absurd (alive.symm.trans dead) (by decide)

end BasicNext.Rt
