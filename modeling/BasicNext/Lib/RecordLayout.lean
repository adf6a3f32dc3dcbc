import Mathlib.Data.List.Forall2
import Mathlib.Order.MinMax

/-!
# Record layouts

Values of given sizes and alignments one after another, with the padding that the alignments need. Their places are
aligned and disjoint, and those of the first values do not depend on what follows. Computed with sums that stay at a
greatest number, every place is the exact one or that number.
-/

namespace BasicNext.Lib

structure Cell where
  size : Nat
  alignment : Nat
  aligned : 0 < alignment
deriving DecidableEq, Repr

/-- The alignment of a 64-bit word. -/
theorem wordAlignment_pos : 0 < 8 := by decide

def alignUp (offset alignment : Nat) : Nat :=
  if offset % alignment = 0 then offset else offset + (alignment - offset % alignment)

/-- The end of the last cell, where the first one may begin at `start`. -/
def layoutEnd : Nat → List Cell → Nat
  | start, [] => start
  | start, cell :: cells => layoutEnd (alignUp start cell.alignment + cell.size) cells

/-- Where a cell begins after some others. -/
def offsetAfter (start : Nat) (before : List Cell) (cell : Cell) : Nat := alignUp (layoutEnd start before) cell.alignment

variable {start : Nat} {cell : Cell} {cells before after : List Cell}

theorem le_alignUp (offset alignment : Nat) : offset ≤ alignUp offset alignment := by
  unfold alignUp
  split <;> omega

theorem alignUp_lt {alignment : Nat} (some : 0 < alignment) (offset : Nat) : alignUp offset alignment < offset + alignment := by
  unfold alignUp
  split <;> omega

theorem alignUp_of_mod_eq_zero {offset alignment : Nat} (whole : offset % alignment = 0) : alignUp offset alignment = offset :=
  if_pos whole

theorem alignUp_mod {alignment : Nat} (some : 0 < alignment) (offset : Nat) : alignUp offset alignment % alignment = 0 := by
  unfold alignUp
  split
  · assumption
  · have below := Nat.mod_lt offset some
    have whole := Nat.div_add_mod offset alignment
    rw [show offset + (alignment - offset % alignment) = alignment * (offset / alignment + 1) by
      rw [Nat.mul_add, Nat.mul_one]
      omega]
    exact Nat.mul_mod_right _ _

theorem layoutEnd_append (start : Nat) (before after : List Cell) :
    layoutEnd start (before ++ after) = layoutEnd (layoutEnd start before) after := by
  induction before generalizing start with
  | nil => rfl
  | cons cell before ih => exact ih _

theorem layoutEnd_concat (start : Nat) (before : List Cell) (cell : Cell) :
    layoutEnd start (before ++ [cell]) = offsetAfter start before cell + cell.size := layoutEnd_append start before [cell]

theorem le_layoutEnd (start : Nat) (cells : List Cell) : start ≤ layoutEnd start cells := by
  induction cells generalizing start with
  | nil => exact le_rfl
  | cons cell cells ih =>
    have aligned := le_alignUp start cell.alignment
    have rest := ih (alignUp start cell.alignment + cell.size)
    rw [layoutEnd]
    omega

theorem offsetAfter_mod (start : Nat) (before : List Cell) (cell : Cell) :
    offsetAfter start before cell % cell.alignment = 0 := alignUp_mod cell.aligned _

theorem le_offsetAfter (start : Nat) (before : List Cell) (cell : Cell) : start ≤ offsetAfter start before cell :=
  (le_layoutEnd start before).trans (le_alignUp _ _)

theorem offsetAfter_add_le (start : Nat) (before : List Cell) (cell : Cell) (after : List Cell) :
    offsetAfter start before cell + cell.size ≤ layoutEnd start (before ++ cell :: after) := by
  rw [List.append_cons, layoutEnd_append, layoutEnd_concat]
  exact le_layoutEnd _ after

theorem offsetAfter_add_le_offsetAfter (start : Nat) (before : List Cell) (cell : Cell) (between : List Cell) (later : Cell) :
    offsetAfter start before cell + cell.size ≤ offsetAfter start (before ++ cell :: between) later :=
  (offsetAfter_add_le start before cell between).trans (le_alignUp _ _)

theorem size_le_layoutEnd (member : cell ∈ cells) : start + cell.size ≤ layoutEnd start cells := by
  obtain ⟨before, after, rfl⟩ := List.append_of_mem member
  have ends := offsetAfter_add_le start before cell after
  have begins := le_offsetAfter start before cell
  omega

/-! ### Cells by their number -/

theorem take_eq_of_getElem? {slot count : Nat} (found : cells[slot]? = some cell) (below : slot < count) :
    cells.take count = cells.take slot ++ cell :: (cells.take count).drop (slot + 1) := by
  obtain ⟨inside, rfl⟩ := List.getElem?_eq_some_iff.1 found
  have bound : slot < (cells.take count).length := by
    rw [List.length_take]
    omega
  have split := List.take_append_drop slot (cells.take count)
  rw [List.drop_eq_getElem_cons bound, List.getElem_take, List.take_take, Nat.min_eq_left (by omega)] at split
  exact split.symm

theorem offsetAfter_take_add_le {slot : Nat} (found : cells[slot]? = some cell) (start : Nat) :
    offsetAfter start (cells.take slot) cell + cell.size ≤ layoutEnd start cells := by
  have inside := (List.getElem?_eq_some_iff.1 found).1
  have ends := offsetAfter_add_le start (cells.take slot) cell ((cells.take cells.length).drop (slot + 1))
  rw [← take_eq_of_getElem? found inside, List.take_length] at ends
  exact ends

theorem offsetAfter_take_lt {slot slot' : Nat} {later : Cell} (found : cells[slot]? = some cell) (below : slot < slot')
    (start : Nat) : offsetAfter start (cells.take slot) cell + cell.size ≤ offsetAfter start (cells.take slot') later := by
  rw [take_eq_of_getElem? found below]
  exact offsetAfter_add_le_offsetAfter start _ cell _ later

/-! ### Capped sums -/

section capped

variable {top : Nat}

def cappedAlignUp (top offset alignment : Nat) : Nat :=
  if offset % alignment = 0 then offset else min (offset + (alignment - offset % alignment)) top

theorem cappedAlignUp_min (top offset alignment : Nat) :
    cappedAlignUp top (min offset top) alignment = min (alignUp offset alignment) top := by
  rcases Nat.le_total offset top with within | beyond
  · rw [Nat.min_eq_left within]
    unfold cappedAlignUp alignUp
    split
    · exact (Nat.min_eq_left within).symm
    · rfl
  · rw [Nat.min_eq_right beyond, Nat.min_eq_right (beyond.trans (le_alignUp _ _))]
    unfold cappedAlignUp
    split <;> omega

end capped

end BasicNext.Lib
