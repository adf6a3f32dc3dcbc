import BasicNext.Lib.Except
import Mathlib.Data.UInt

/-!
# The ARC core

Strong counts and liveness for every object of one program run (`bn_rt::arc::ArcCore`). An object is
named by its slot and the generation of the slot, packed in one 64-bit word; a slot is reused with a
later generation. The trace lines on standard error, and the source positions that only they use, are
not modelled.
-/

namespace BasicNext.Rt

open Lib

/-! ### Handles -/

/-- An object's identity: slot index (high 32 bits) and generation (low 32 bits). -/
structure ObjectId where
  bits : UInt64
deriving DecidableEq, Repr

namespace ObjectId

def fromParts (index generation : UInt32) : ObjectId := ⟨(index.toUInt64 <<< 32) ||| generation.toUInt64⟩

def slot (id : ObjectId) : UInt32 := (id.bits >>> 32).toUInt32

def index (id : ObjectId) : Nat := (id.bits >>> 32).toNat

def generation (id : ObjectId) : UInt32 := id.bits.toUInt32

theorem toNat_bits_fromParts (index generation : UInt32) :
    (fromParts index generation).bits.toNat = index.toNat * 2 ^ 32 + generation.toNat := by
  have low := generation.toNat_lt
  have high := index.toNat_lt
  have shifted : (index.toNat <<< 32) % 2 ^ 64 = index.toNat <<< 32 := by
    rw [Nat.shiftLeft_eq]
    omega
  simp only [fromParts, UInt64.toNat_or, UInt64.toNat_shiftLeft, UInt32.toNat_toUInt64]
  simp only [UInt64.reduceToNat, Nat.reduceMod, shifted]
  rw [← Nat.shiftLeft_add_eq_or_of_lt (by omega), Nat.shiftLeft_eq]

theorem index_eq (id : ObjectId) : id.index = id.bits.toNat / 2 ^ 32 := by
  simp [index, Nat.shiftRight_eq_div_pow]

theorem toNat_slot (id : ObjectId) : id.slot.toNat = id.index := by
  have bound := id.bits.toNat_lt
  simp only [slot, UInt64.toNat_toUInt32]
  rw [← index, index_eq]
  omega

theorem toNat_generation (id : ObjectId) : id.generation.toNat = id.bits.toNat % 2 ^ 32 := by
  simp [generation]

@[simp] theorem index_fromParts (index generation : UInt32) :
    (fromParts index generation).index = index.toNat := by
  have low := generation.toNat_lt
  rw [index_eq, toNat_bits_fromParts]
  omega

@[simp] theorem generation_fromParts (index generation : UInt32) :
    (fromParts index generation).generation = generation := by
  have low := generation.toNat_lt
  apply UInt32.toNat_inj.1
  rw [toNat_generation, toNat_bits_fromParts]
  omega

theorem fromParts_eq {index generation : UInt32} {id : ObjectId} :
    fromParts index generation = id ↔ index.toNat = id.index ∧ generation = id.generation := by
  constructor
  · rintro rfl
    simp
  · rintro ⟨sameIndex, rfl⟩
    rw [index_eq] at sameIndex
    have same : (fromParts index id.generation).bits.toNat = id.bits.toNat := by
      rw [toNat_bits_fromParts, toNat_generation]
      omega
    cases id
    simpa [fromParts] using UInt64.toNat_inj.1 same

end ObjectId

/-! ### The core -/

inductive ArcError where
  /-- The handle names no live object (already destroyed, or never registered). -/
  | notAlive (id : ObjectId)
deriving DecidableEq, Repr

/-- One live object, as debugging tools show it. -/
structure ObjectInfo where
  id : ObjectId
  className : String
  strong : UInt64
deriving DecidableEq, Repr

structure Slot where
  generation : UInt32
  /-- Zero when the slot holds no live object. -/
  strong : UInt64
  /-- The last strong reference is gone and the destructor chain runs. -/
  destroying : Bool
  className : String
  address : UInt64
deriving DecidableEq, Repr

/-- The slots, and the indices of the free ones, the last freed first. -/
structure ArcCore where
  slots : List Slot
  free : List UInt32
  firstGeneration : UInt32
deriving DecidableEq, Repr

/-- `generation.wrapping_add(1).max(1)` -/
def nextGeneration (generation : UInt32) : UInt32 := max (generation + 1) 1

namespace ArcCore

def withFirstGeneration (generation : UInt32) : ArcCore :=
  { slots := [], free := [], firstGeneration := if generation = 0 then 1 else generation }

def new : ArcCore := withFirstGeneration 1

/-- Records a new object with one strong reference; `none` where the source panics, with 2^32 slots in
use. -/
def register (core : ArcCore) (className : String) (address : UInt64) : Option (ArcCore × ObjectId) :=
  match core.free with
  | index :: free => do
    let slot ← core.slots[index.toNat]?
    let slot := { slot with strong := 1, destroying := false, address, className }
    return ({ core with slots := core.slots.set index.toNat slot, free }, .fromParts index slot.generation)
  | [] =>
    if core.slots.length < 2 ^ 32 then
      some
        ({ core with
            slots := core.slots ++ [{
              generation := core.firstGeneration, strong := 1, destroying := false, className, address }] },
          .fromParts (UInt32.ofNat core.slots.length) core.firstGeneration)
    else none

def slot (core : ArcCore) (id : ObjectId) : Except ArcError Slot :=
  match core.slots[id.index]? with
  | some slot =>
    if slot.generation = id.generation ∧ (0 < slot.strong ∨ slot.destroying) then .ok slot
    else .error (.notAlive id)
  | none => .error (.notAlive id)

def setSlot (core : ArcCore) (id : ObjectId) (slot : Slot) : ArcCore := { core with slots := core.slots.set id.index slot }

/-- One more strong reference; the new count, zero while the destructor runs. -/
def retain (core : ArcCore) (id : ObjectId) : Except ArcError (ArcCore × UInt64) := do
  let slot ← core.slot id
  if slot.destroying then return (core, slot.strong)
  else
    let strong := slot.strong + 1
    return (core.setSlot id { slot with strong }, strong)

/-- One strong reference fewer; `true` when it was the last. -/
def release (core : ArcCore) (id : ObjectId) : Except ArcError (ArcCore × Bool) := do
  let slot ← core.slot id
  if slot.destroying then return (core, false)
  else
    let strong := slot.strong - 1
    let last := strong == 0
    return (core.setSlot id { slot with strong, destroying := last }, last)

def finishDestroy (core : ArcCore) (id : ObjectId) : Except ArcError ArcCore := do
  let slot ← core.slot id
  if slot.destroying then
    let core := core.setSlot id
      { slot with destroying := false, generation := nextGeneration slot.generation, className := "" }
    return { core with free := id.slot :: core.free }
  else .error (.notAlive id)

/-- Whether `id` still names a live object. -/
def alive (core : ArcCore) (id : ObjectId) : Bool :=
  core.slots[id.index]?.any fun slot => slot.generation == id.generation && decide (0 < slot.strong)

def address (core : ArcCore) (id : ObjectId) : UInt64 :=
  match core.slots[id.index]? with
  | some slot => if core.alive id then slot.address else 0
  | none => 0

/-- The live object `id` names. -/
def info (core : ArcCore) (id : ObjectId) : Option ObjectInfo :=
  match core.slots[id.index]? with
  | some slot =>
    if core.alive id then some { id, className := slot.className, strong := slot.strong } else none
  | none => none

/-- Every live object, by handle. -/
def snapshot (core : ArcCore) : List ObjectInfo :=
  core.slots.zipIdx.filterMap fun (slot, index) =>
    if 0 < slot.strong then
      some { id := .fromParts (UInt32.ofNat index) slot.generation, className := slot.className, strong := slot.strong }
    else none

end ArcCore

/-! ### What each operation does -/

namespace ArcCore

variable {core core' : ArcCore} {id : ObjectId} {slot : Slot}

theorem slot_eq_ok : core.slot id = .ok slot ↔ core.slots[id.index]? = some slot ∧ slot.generation = id.generation
      ∧ (0 < slot.strong ∨ slot.destroying = true) := by
  unfold ArcCore.slot
  cases core.slots[id.index]? with
  | none => simp
  | some other =>
    simp only [Option.some.injEq]
    constructor
    · intro h
      split at h
      · next holds =>
        cases h
        exact ⟨rfl, holds⟩
      · cases h
    · rintro ⟨rfl, holds⟩
      rw [if_pos holds]

theorem alive_eq_true : core.alive id = true ↔
    ∃ slot, core.slots[id.index]? = some slot ∧ slot.generation = id.generation ∧ 0 < slot.strong := by
  unfold alive
  cases core.slots[id.index]? <;> simp

theorem retain_eq_ok {strong : UInt64} : core.retain id = .ok (core', strong) ↔ ∃ slot, core.slot id = .ok slot ∧
      (slot.destroying = true ∧ core = core' ∧ slot.strong = strong
        ∨ slot.destroying = false ∧ core.setSlot id { slot with strong := slot.strong + 1 } = core'
          ∧ slot.strong + 1 = strong) := by
  unfold retain
  rw [bind_eq_ok]
  refine exists_congr fun slot => and_congr_right fun _ => ?_
  cases slot.destroying <;> simp [pure_eq_ok]

theorem release_eq_ok {last : Bool} : core.release id = .ok (core', last) ↔ ∃ slot, core.slot id = .ok slot ∧
      (slot.destroying = true ∧ core = core' ∧ false = last
        ∨ slot.destroying = false ∧ core.setSlot id { slot with
              strong := slot.strong - 1, destroying := slot.strong - 1 == 0 } = core'
          ∧ (slot.strong - 1 == 0) = last) := by
  unfold release
  rw [bind_eq_ok]
  refine exists_congr fun slot => and_congr_right fun _ => ?_
  cases slot.destroying <;> simp [pure_eq_ok]

theorem finishDestroy_eq_ok : core.finishDestroy id = .ok core' ↔ ∃ slot, core.slot id = .ok slot ∧ slot.destroying = true
      ∧ { core.setSlot id { slot with
            destroying := false, generation := nextGeneration slot.generation, className := "" } with
          free := id.slot :: core.free } = core' := by
  unfold finishDestroy
  rw [bind_eq_ok]
  refine exists_congr fun slot => and_congr_right fun _ => ?_
  cases slot.destroying <;> simp [pure_eq_ok, setSlot]

end ArcCore

end BasicNext.Rt
