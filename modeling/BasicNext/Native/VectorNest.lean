import BasicNext.Native.IndexBounds

/-!
# The storage of nested vectors

A fixed vector of two or more dimensions has one block of storage: the rows of every level, outermost first, and behind them
its elements in row order (`bn_llvm::llvm::nested_vectors`). The runtime links the rows and copies the elements of another
vector of the shape into the block (`bn_rt::vector_abi`); the constant of a `STATIC` has its rows linked by the compiler.
-/

namespace BasicNext.Native.VectorNest

open Lib Lib.Llvm IndexBounds
open Interp (Failure Value)
open Strings (i32Max)

/-- The dimensions, each a number of 32 bits without a sign, and the size of an element. -/
structure Shape where
  dimensions : List Nat
  elementBytes : Nat
  nested : 2 ≤ dimensions.length
  small : ∀ dimension ∈ dimensions, dimension < 2 ^ 32
  sized : 0 < elementBytes

namespace Shape

variable (shape : Shape)

abbrev rank : Nat := shape.dimensions.length

def rowsAt (level : Nat) : Nat := (shape.dimensions.take (level + 1)).prod

def lengthAt (level : Nat) : Nat := shape.dimensions.getD (level + 1) 0

/-- Whether the counts of the elements and of their bytes are numbers of the machine. -/
def totalBytesValid : Bool :=
  (shape.dimensions.foldlM (fun total dimension => Interp.u64 (total * dimension)) shape.elementBytes).isSome &&
    (shape.dimensions.foldlM (fun total dimension => Interp.u64 (total * dimension)) 1).isSome

/-! ### The compiler -/

/-- `Nest::rows` -/
def rows : Nat := ((List.range (shape.rank - 1)).map shape.rowsAt).sum

/-- `Nest::leaves` -/
def leaves : Nat := shape.dimensions.prod

/-- Where the elements lie in the storage, behind the rows. -/
def leavesOffset : Nat := shape.rows * rowBytes

/-- `Nest::storage`: the rows, the elements and the dimensions. -/
def storageBytes : Nat := shape.leavesOffset + shape.leaves * shape.elementBytes + 4 * shape.rank

/-- The rows of a level in `Nest::linked_constant`, behind those before them. -/
def constantLevel (base : Address) (state : List Row × Nat) (level : Nat) : List Row × Nat :=
  let at_ (field index : Nat) : Address :=
    if field = 0 then base + BitVec.ofNat 64 (index * rowBytes)
    else base + BitVec.ofNat 64 shape.leavesOffset + BitVec.ofNat 64 (index * shape.elementBytes)
  let nextStart := state.2 + shape.rowsAt level
  let length := shape.lengthAt level
  let rows := (List.range (shape.rowsAt level)).map fun index =>
    let child := index * length
    let target := if level + 1 = shape.rank - 1 then at_ 1 child else at_ 0 (nextStart + child)
    Row.mk target (BitVec.ofNat 32 length)
  (state.1 ++ rows, nextStart)

/-- `Nest::linked_constant`: the rows of a global at an address. -/
def linkedConstant (base : Address) : List Row := ((List.range (shape.rank - 1)).foldl (shape.constantLevel base) ([], 0)).1

/-! ### The runtime -/

/-- The rows of a level in `link`. -/
def linkLevel (rows leaves : Address) (state : Cells × Nat) (level : Nat) : Cells × Nat :=
  let nextStart := state.2 + shape.rowsAt level
  let length := shape.lengthAt level
  let linked := (List.range (shape.rowsAt level)).foldl (fun memory index =>
    let child := index * length
    let elements := if level + 1 = shape.rank - 1 then leaves + BitVec.ofNat 64 (child * shape.elementBytes)
      else rows + BitVec.ofNat 64 ((nextStart + child) * rowBytes)
    Function.update memory (rows + BitVec.ofNat 64 ((state.2 + index) * rowBytes))
      (some (.row ⟨elements, BitVec.ofNat 32 (min length i32Max)⟩))) state.1
  (linked, nextStart)

def link (memory : Cells) (rows leaves : Address) : Cells :=
  ((List.range (shape.rank - 1)).foldl (shape.linkLevel rows leaves) (memory, 0)).1

end Shape

def loadRow (memory : Cells) (address : Address) : Llvm.Run Failure Row := do
  match ← load memory address with
  | .row row => return row
  | .element _ => .error .undefined

/-- `copy_leaves` of the rows at `source`, with the dimensions from their level on: the memory and the position behind the
elements that are copied. -/
def copyLeaves (elementBytes : Nat) : List Nat → Address → Cells × Address → Llvm.Run Failure (Cells × Address)
  | count :: inner, source, state =>
    (List.range count).foldlM (fun state index => do
      let row ← loadRow state.1 (source + BitVec.ofNat 64 (index * rowBytes))
      match inner with
      | [length] =>
        -- One run of elements; the two may overlap.
        return (copyElements state.1 elementBytes length state.2 row.pointer,
          state.2 + BitVec.ofNat 64 (length * elementBytes))
      | _ => copyLeaves elementBytes inner row.pointer state) state
  | [], _, state => .ok state

/-- `bn_rt_vector_nest` -/
def nest (shape : Shape) (memory : Cells) (rows leaves source : Address) : Llvm.Run Failure Cells :=
  if rows = 0 ∨ leaves = 0 then .ok memory
  else if shape.totalBytesValid = false then .ok memory
  else
    let linked := shape.link memory rows leaves
    if source ≠ 0 ∧ source ≠ rows then return (← copyLeaves shape.elementBytes shape.dimensions source (linked, leaves)).1
    else .ok linked

/-- `Nest::emit_copy` into the storage at `target`. -/
def emitCopy (shape : Shape) (memory : Cells) (target source : Address) : Llvm.Run Failure Cells :=
  nest shape memory target (target + BitVec.ofNat 64 shape.leavesOffset) source

/-! ### Places -/

def rowAddress (base : Address) (number : Nat) : Address := base + BitVec.ofNat 64 (number * rowBytes)

namespace Shape

variable (shape : Shape) (base : Address)

def start (level : Nat) : Nat := ((List.range level).map shape.rowsAt).sum

def leafAddress (number : Nat) : Address :=
  base + BitVec.ofNat 64 shape.leavesOffset + BitVec.ofNat 64 (number * shape.elementBytes)

def dimension (level : Nat) : Nat := shape.dimensions.getD level 0

/-- What has a number among the children of a level: a row, or an element below the last level. -/
def childAddress (level number : Nat) : Address :=
  if level + 1 = shape.rank then shape.leafAddress base number else rowAddress base (shape.start level + number)

/-- The number of what a path reaches, in row order among all that its level has. -/
def numberFrom : Nat → Nat → List Nat → Nat
  | _, number, [] => number
  | level, number, i :: path => numberFrom (level + 1) (number * shape.dimension level + i) path

/-- Where it lies. -/
def placeFrom : Nat → Nat → List Nat → Address
  | level, number, [] => shape.childAddress base (level - 1) number
  | level, number, i :: path => placeFrom (level + 1) (number * shape.dimension level + i) path

/-- The place of an element of the vector in the storage. -/
def place (path : List Nat) : Address := shape.placeFrom base 0 0 path

/-- The storage lies in the address space. -/
structure Placed : Prop where
  notNull : base ≠ 0
  fits : base.toNat + shape.storageBytes ≤ 2 ^ 64

end Shape

variable {shape : Shape} {base : Address} {memory : Cells}

theorem toNat_add {n : Nat} (fits : base.toNat + n < 2 ^ 64) : (base + BitVec.ofNat 64 n).toNat = base.toNat + n := by
  rw [BitVec.toNat_add, BitVec.toNat_ofNat, Nat.mod_eq_of_lt (by omega : n < 2 ^ 64), Nat.mod_eq_of_lt fits]

theorem add_ofNat_add (first second : Nat) :
    base + BitVec.ofNat 64 first + BitVec.ofNat 64 second = base + BitVec.ofNat 64 (first + second) := by
  rw [BitVec.ofNat_add, BitVec.add_assoc]

namespace Shape.Placed

theorem toNat_row (placed : shape.Placed base) {number : Nat} (below : number < shape.rows) :
    (rowAddress base number).toNat = base.toNat + number * rowBytes := by
  have fits := placed.fits
  have less : number * rowBytes < shape.leavesOffset := (Nat.mul_lt_mul_right (by decide)).2 below
  rw [storageBytes] at fits
  exact toNat_add (by omega)

theorem toNat_leaf (placed : shape.Placed base) {number : Nat} (below : number < shape.leaves) :
    (shape.leafAddress base number).toNat = base.toNat + shape.leavesOffset + number * shape.elementBytes := by
  have fits := placed.fits
  have less : number * shape.elementBytes < shape.leaves * shape.elementBytes := (Nat.mul_lt_mul_right shape.sized).2 below
  rw [storageBytes] at fits
  rw [leafAddress, add_ofNat_add, toNat_add (by omega), Nat.add_assoc]

theorem row_injective (placed : shape.Placed base) {first second : Nat} (below : first < shape.rows)
    (below' : second < shape.rows) (same : rowAddress base first = rowAddress base second) : first = second := by
  have numbers := congrArg BitVec.toNat same
  rw [placed.toNat_row below, placed.toNat_row below'] at numbers
  exact Nat.eq_of_mul_eq_mul_right (by decide : 0 < rowBytes) (by omega)

theorem leaf_injective (placed : shape.Placed base) {first second : Nat} (below : first < shape.leaves)
    (below' : second < shape.leaves) (same : shape.leafAddress base first = shape.leafAddress base second) : first = second := by
  have numbers := congrArg BitVec.toNat same
  rw [placed.toNat_leaf below, placed.toNat_leaf below'] at numbers
  exact Nat.eq_of_mul_eq_mul_right shape.sized (by omega)

theorem row_ne_leaf (placed : shape.Placed base) {row leaf : Nat} (below : row < shape.rows) (below' : leaf < shape.leaves) :
    rowAddress base row ≠ shape.leafAddress base leaf := by
  intro same
  have numbers := congrArg BitVec.toNat same
  rw [placed.toNat_row below, placed.toNat_leaf below'] at numbers
  have less : row * rowBytes < shape.leavesOffset := (Nat.mul_lt_mul_right (by decide)).2 below
  omega

end Shape.Placed

/-! ### Rows that are linked -/

theorem start_succ (level : Nat) : shape.start (level + 1) = shape.start level + shape.rowsAt level := by
  rw [Shape.start, List.range_succ, List.map_append, List.sum_append]
  simp [Shape.start]

theorem start_add_le {level levels index : Nat} (below : level < levels) (inside : index < shape.rowsAt level) :
    shape.start level + index < shape.start levels := by
  induction levels with
  | zero => omega
  | succ levels ih =>
    rw [start_succ]
    rcases Nat.lt_succ_iff_lt_or_eq.1 below with earlier | rfl
    · exact Nat.lt_add_right _ (ih earlier)
    · omega

theorem start_add_lt_rows {level index : Nat} (below : level < shape.rank - 1) (inside : index < shape.rowsAt level) :
    shape.start level + index < shape.rows := start_add_le below inside

theorem exists_level {number levels : Nat} (below : number < shape.start levels) :
    ∃ level < levels, ∃ index < shape.rowsAt level, number = shape.start level + index := by
  induction levels with
  | zero => exact absurd below (Nat.not_lt_zero number)
  | succ levels ih =>
    by_cases earlier : number < shape.start levels
    · obtain ⟨level, less, found⟩ := ih earlier
      exact ⟨level, Nat.lt_succ_of_lt less, found⟩
    · rw [start_succ] at below
      exact ⟨levels, Nat.lt_succ_self levels, number - shape.start levels, by omega, by omega⟩

theorem lengthAt_eq (level : Nat) : shape.lengthAt level = shape.dimension (level + 1) := rfl

/-- The row of a level with a number, as the storage has it: its first child is one of the next level. -/
def rowOf (shape : Shape) (base : Address) (level index : Nat) : Row :=
  ⟨shape.childAddress base (level + 1) (index * shape.lengthAt level), BitVec.ofNat 32 (shape.lengthAt level)⟩

/-- A row as the runtime writes it, with the length that an `INTEGER` counts. -/
def clamped (shape : Shape) (base : Address) (level index : Nat) : Row :=
  ⟨(rowOf shape base level index).pointer, BitVec.ofNat 32 (min (shape.lengthAt level) i32Max)⟩

theorem clamped_eq {level : Nat} (short : shape.lengthAt level ≤ i32Max) (index : Nat) :
    clamped shape base level index = rowOf shape base level index := by
  rw [clamped, Nat.min_eq_left short]
  rfl

theorem childAddress_eq {level : Nat} (below : level < shape.rank - 1) (child : Nat) :
    shape.childAddress base (level + 1) child = if level + 1 = shape.rank - 1 then shape.leafAddress base child
      else rowAddress base (shape.start level + shape.rowsAt level + child) := by
  have last : level + 1 + 1 = shape.rank ↔ level + 1 = shape.rank - 1 := by omega
  simp only [Shape.childAddress, last, start_succ]

theorem linkLevels_spec (placed : shape.Placed base) (memory : Cells) {levels : Nat} (few : levels ≤ shape.rank - 1) :
    let state := (List.range levels).foldl (shape.linkLevel base (base + BitVec.ofNat 64 shape.leavesOffset)) (memory, 0)
    state.2 = shape.start levels ∧ (∀ level < levels, ∀ index < shape.rowsAt level,
        state.1 (rowAddress base (shape.start level + index)) = some (.row (clamped shape base level index))) ∧
      ∀ address, (∀ number < shape.start levels, rowAddress base number ≠ address) → state.1 address = memory address := by
  induction levels with
  | zero => exact ⟨rfl, fun level below => absurd below (Nat.not_lt_zero level), fun _ _ => rfl⟩
  | succ levels ih =>
    obtain ⟨before, rows, kept⟩ := ih (by omega)
    rw [List.range_succ, List.foldl_append, List.foldl_cons, List.foldl_nil]
    generalize (List.range levels).foldl _ (memory, 0) = state at before rows kept ⊢
    have target (child : Nat) : (if levels + 1 = shape.rank - 1 then
          base + BitVec.ofNat 64 shape.leavesOffset + BitVec.ofNat 64 (child * shape.elementBytes)
        else base + BitVec.ofNat 64 ((state.2 + shape.rowsAt levels + child) * rowBytes)) =
        shape.childAddress base (levels + 1) child := by
      rw [childAddress_eq (by omega), before]
      rfl
    have apart : ∀ i < shape.rowsAt levels, ∀ j < shape.rowsAt levels,
        base + BitVec.ofNat 64 ((state.2 + i) * rowBytes) = base + BitVec.ofNat 64 ((state.2 + j) * rowBytes) → i = j := by
      intro i below j below' same
      rw [before] at same
      have numbers := placed.row_injective (start_add_lt_rows (by omega) below) (start_add_lt_rows (by omega) below') same
      omega
    refine ⟨?_, ?_, ?_⟩
    · rw [start_succ, ← before]
      rfl
    · intro level below index inside
      simp only [Shape.linkLevel, target]
      rcases Nat.lt_succ_iff_lt_or_eq.1 below with earlier | rfl
      · rw [foldl_update_of_ne, rows level earlier index inside]
        intro i less same
        rw [before] at same
        have numbers := placed.row_injective (start_add_lt_rows (by omega) less) (start_add_lt_rows (by omega) inside) same
        have lower := start_add_le earlier inside
        omega
      · rw [← before]
        exact foldl_update_of_lt inside apart
    · intro address outside
      simp only [Shape.linkLevel]
      rw [foldl_update_of_ne, kept address]
      · intro number below
        exact outside number (by rw [start_succ]; omega)
      · intro i less
        rw [before]
        exact outside (shape.start levels + i) (by rw [start_succ]; omega)

theorem constantLevels_spec {levels : Nat} (few : levels ≤ shape.rank - 1) :
    let state := (List.range levels).foldl (shape.constantLevel base) ([], 0)
    state.2 = shape.start levels ∧ state.1.length = shape.start levels ∧ ∀ level < levels, ∀ index < shape.rowsAt level,
        state.1[shape.start level + index]? = some (rowOf shape base level index) := by
  induction levels with
  | zero => exact ⟨rfl, rfl, fun level below => absurd below (Nat.not_lt_zero level)⟩
  | succ levels ih =>
    obtain ⟨before, counts, rows⟩ := ih (by omega)
    rw [List.range_succ, List.foldl_append, List.foldl_cons, List.foldl_nil]
    generalize (List.range levels).foldl _ ([], 0) = state at before counts rows ⊢
    have level_eq : (shape.constantLevel base state levels).1 =
        state.1 ++ (List.range (shape.rowsAt levels)).map (rowOf shape base levels) := by
      show state.1 ++ (List.range (shape.rowsAt levels)).map _ = _
      congr 2
      funext index
      rw [rowOf, childAddress_eq (by omega), ← before]
      rfl
    refine ⟨?_, ?_, ?_⟩
    · rw [start_succ, ← before]
      rfl
    · rw [level_eq, List.length_append, counts, List.length_map, List.length_range, start_succ]
    · intro level below index inside
      rw [level_eq]
      rcases Nat.lt_succ_iff_lt_or_eq.1 below with earlier | rfl
      · rw [List.getElem?_append_left (by rw [counts]; exact start_add_le earlier inside)]
        exact rows level earlier index inside
      · rw [List.getElem?_append_right (by omega), counts, Nat.add_sub_cancel_left, List.getElem?_map,
          List.getElem?_range inside]
        rfl

theorem link_row (placed : shape.Placed base) (memory : Cells) {level index : Nat} (below : level < shape.rank - 1)
    (inside : index < shape.rowsAt level) :
    shape.link memory base (base + BitVec.ofNat 64 shape.leavesOffset) (rowAddress base (shape.start level + index)) =
      some (.row (clamped shape base level index)) :=
  (linkLevels_spec placed memory le_rfl).2.1 level below index inside

theorem link_frame (placed : shape.Placed base) (memory : Cells) {address : Address}
    (outside : ∀ number < shape.rows, rowAddress base number ≠ address) :
    shape.link memory base (base + BitVec.ofNat 64 shape.leavesOffset) address = memory address :=
  (linkLevels_spec placed memory le_rfl).2.2 address outside

theorem linkedConstant_row {level index : Nat} (below : level < shape.rank - 1) (inside : index < shape.rowsAt level) :
    (shape.linkedConstant base)[shape.start level + index]? = some (rowOf shape base level index) :=
  (constantLevels_spec le_rfl).2.2 level below index inside

/-! ### Paths -/

def follow (memory : Cells) (elementBytes : Nat) : Nat → Row → List Nat → Option Address
  | 1, row, [i] => if i < row.length.toNat then some (row.pointer + BitVec.ofNat 64 (i * elementBytes)) else none
  | rank + 1, row, i :: path =>
    if i < row.length.toNat then
      match memory (rowAddress row.pointer i) with
      | some (.row next) => follow memory elementBytes rank next path
      | _ => none
    else none
  | _, _, _ => none

/-- The vector with its storage. -/
def root (shape : Shape) (base : Address) : Row := ⟨base, BitVec.ofNat 32 (shape.dimension 0)⟩

def Linked (shape : Shape) (base : Address) (memory : Cells) : Prop :=
  ∀ level < shape.rank - 1, ∀ index < shape.rowsAt level,
    memory (rowAddress base (shape.start level + index)) = some (.row (rowOf shape base level index))

/-- The shapes that the runtime links as they are: no row is longer than an `INTEGER` counts. -/
def Linkable (shape : Shape) : Prop :=
  shape.totalBytesValid = true ∧ ∀ level < shape.rank - 1, 0 < shape.rowsAt level → shape.lengthAt level ≤ i32Max

theorem dimension_eq {level : Nat} (below : level < shape.rank) : shape.dimension level = shape.dimensions[level] := by
  rw [Shape.dimension, List.getD_eq_getElem?_getD, List.getElem?_eq_getElem below, Option.getD_some]

theorem drop_dimensions {level : Nat} (below : level < shape.rank) :
    shape.dimensions.drop level = shape.dimension level :: shape.dimensions.drop (level + 1) := by
  rw [List.drop_eq_getElem_cons below, dimension_eq below]

theorem dimension_lt (level : Nat) : shape.dimension level < 2 ^ 32 := by
  rw [Shape.dimension, List.getD_eq_getElem?_getD]
  cases found : shape.dimensions[level]? with
  | none => exact Nat.two_pow_pos 32
  | some dimension => exact shape.small dimension (List.mem_of_getElem? found)

theorem rowsAt_eq {level : Nat} (below : level < shape.rank) :
    shape.rowsAt level = (shape.dimensions.take level).prod * shape.dimension level := by
  rw [Shape.rowsAt, List.take_add_one, List.prod_append, dimension_eq below, List.getElem?_eq_getElem below]
  simp

theorem number_lt {level number i : Nat} (below : level < shape.rank) (inside : number < (shape.dimensions.take level).prod)
    (within : i < shape.dimension level) : number * shape.dimension level + i < shape.rowsAt level := by
  rw [rowsAt_eq below]
  calc
    number * shape.dimension level + i < number * shape.dimension level + shape.dimension level := by omega
    _ = (number + 1) * shape.dimension level := (Nat.succ_mul _ _).symm
    _ ≤ (shape.dimensions.take level).prod * shape.dimension level := Nat.mul_le_mul_right _ inside

theorem rowAddress_add (first second : Nat) : rowAddress (rowAddress base first) second = rowAddress base (first + second) := by
  rw [rowAddress, rowAddress, rowAddress, add_ofNat_add, Nat.add_mul]

theorem leafAddress_add (first second : Nat) : shape.leafAddress base first + BitVec.ofNat 64 (second * shape.elementBytes) =
    shape.leafAddress base (first + second) := by
  rw [Shape.leafAddress, Shape.leafAddress, BitVec.add_assoc, ← BitVec.ofNat_add, Nat.add_mul]

def rowFrom (shape : Shape) (base : Address) (level number : Nat) : Row :=
  ⟨shape.childAddress base level (number * shape.dimension level), BitVec.ofNat 32 (shape.dimension level)⟩

theorem rowFrom_succ (level number : Nat) : rowFrom shape base (level + 1) number = rowOf shape base level number := rfl

theorem toNat_rowFrom_length (level number : Nat) : (rowFrom shape base level number).length.toNat = shape.dimension level := by
  rw [rowFrom, BitVec.toNat_ofNat, Nat.mod_eq_of_lt (dimension_lt level)]

theorem childAddress_add {level : Nat} (below : level < shape.rank) (number i : Nat) :
    shape.childAddress base level number +
        BitVec.ofNat 64 (i * elementBytes shape.elementBytes (shape.dimensions.drop (level + 1))) =
      shape.childAddress base level (number + i) := by
  have last : shape.dimensions.drop (level + 1) = [] ↔ level + 1 = shape.rank := by
    rw [List.drop_eq_nil_iff]
    change shape.rank ≤ level + 1 ↔ _
    omega
  simp only [Shape.childAddress, elementBytes, last]
  split
  · exact leafAddress_add number i
  · rw [← Nat.add_assoc]
    exact rowAddress_add (shape.start level + number) i

theorem placeFrom_eq {level number : Nat} {path : List Nat} (full : level + path.length = shape.rank) (some_ : path ≠ []) :
    shape.placeFrom base level number path = shape.leafAddress base (shape.numberFrom level number path) := by
  induction path generalizing level number with
  | nil => exact absurd rfl some_
  | cons i rest ih =>
    rw [List.length_cons] at full
    rw [Shape.placeFrom, Shape.numberFrom]
    cases rest with
    | nil =>
      have last : level + 1 - 1 + 1 = shape.rank := by simpa using full
      rw [Shape.placeFrom, Shape.childAddress, if_pos last, Shape.numberFrom]
    | cons second rest => exact ih (by omega) (by simp)

theorem numberFrom_lt {level number : Nat} {path : List Nat} (inside : number < (shape.dimensions.take level).prod)
    (within : InsidePath (shape.dimensions.drop level) path) (full : level + path.length = shape.rank) :
    shape.numberFrom level number path < shape.leaves := by
  induction path generalizing level number with
  | nil =>
    rw [List.length_nil, Nat.add_zero] at full
    rw [full, List.take_length] at inside
    exact inside
  | cons i rest ih =>
    rw [List.length_cons] at full
    have below : level < shape.rank := by omega
    rw [drop_dimensions below] at within
    rw [Shape.numberFrom]
    exact ih (number_lt below inside within.1) within.2 (by omega)

theorem follow_linked (linked : Linked shape base memory) {rank level number : Nat} {path : List Nat}
    (counts : level + rank = shape.rank) (inside : number < (shape.dimensions.take level).prod)
    (within : InsidePath (shape.dimensions.drop level) path) (full : path.length = rank) (some_ : path ≠ []) :
    follow memory shape.elementBytes rank (rowFrom shape base level number) path =
      some (shape.leafAddress base (shape.numberFrom level number path)) := by
  induction path generalizing level number rank with
  | nil => exact absurd rfl some_
  | cons i rest ih =>
    subst full
    rw [List.length_cons] at counts
    have below : level < shape.rank := by omega
    have lengths : (rowFrom shape base level number).length.toNat = _ := toNat_rowFrom_length level number
    rw [drop_dimensions below] at within
    cases rest with
    | nil =>
      rw [List.length_singleton, follow, lengths, if_pos within.1, Shape.numberFrom, Shape.numberFrom, ← leafAddress_add]
      have last : level + 1 = shape.rank := by simpa using counts
      rw [rowFrom, Shape.childAddress, if_pos last]
    | cons second rest =>
      rw [List.length_cons] at counts
      have inner : level + 1 ≠ shape.rank := by omega
      have linkedRow := linked level (by omega) _ (number_lt below inside within.1)
      have address : rowAddress (rowFrom shape base level number).pointer i =
          rowAddress base (shape.start level + (number * shape.dimension level + i)) := by
        rw [rowFrom, Shape.childAddress, if_neg inner, rowAddress_add, Nat.add_assoc]
      rw [List.length_cons, List.length_cons, follow, lengths, if_pos within.1, address, linkedRow, Shape.numberFrom]
      · exact ih (by omega) (number_lt below inside within.1) within.2 rfl (by simp)
      · simp

/-! ### What the storage holds -/

theorem leaf_eq {first second : Cells} {dimensions : List Nat} {leaf leaf' : Nat} {place place' : List Nat → Address}
    {cell cell' : IndexBounds.Cell} {value : Value} (one : IndexBounds.Represents first leaf dimensions place cell value)
    (other : IndexBounds.Represents second leaf' dimensions place' cell' value) {path : List Nat} (inside : InsidePath dimensions path)
    (full : path.length = dimensions.length) (some_ : path ≠ []) : first (place path) = second (place' path) := by
  induction dimensions generalizing place place' cell cell' value path with
  | nil => exact absurd (List.length_eq_zero_iff.1 full) some_
  | cons length inner ih =>
    obtain ⟨row, elements, rfl, rfl, _, _, cells⟩ := one.vector
    obtain ⟨row', elements', rfl, same, _, _, cells'⟩ := other.vector
    cases same
    cases path with
    | nil => exact absurd rfl some_
    | cons i rest =>
      obtain ⟨-, cell, found, holds⟩ := cells i inside.1
      obtain ⟨-, cell', found', holds'⟩ := cells' i inside.1
      cases rest with
      | nil =>
        obtain rfl : inner = [] := by simpa using full
        rw [found, found']
        cases cell with
        | row row => exact holds.elim
        | element held =>
          cases cell' with
          | row row => exact holds'.elim
          | element held' =>
            obtain rfl : held = elements.getD i .null := holds
            obtain rfl : held' = elements.getD i .null := holds'
            rfl
      | cons second rest => exact ih holds holds' inside.2 (by simpa using full) (by simp)

theorem represents_linked {other : Cells} {dimensions : List Nat} {place' : List Nat → Address} {cell : IndexBounds.Cell} {value : Value}
    (linked : Linked shape base memory) {level number : Nat} (rest : shape.dimensions.drop level = dimensions)
    (some_ : dimensions ≠ []) (inside : number < (shape.dimensions.take level).prod)
    (represents : IndexBounds.Represents other shape.elementBytes dimensions place' cell value)
    (leaves : ∀ path, path ≠ [] → InsidePath dimensions path → path.length = dimensions.length →
      memory (shape.leafAddress base (shape.numberFrom level number path)) = other (place' path)) :
    IndexBounds.Represents memory shape.elementBytes dimensions (shape.placeFrom base level number)
      (.row (rowFrom shape base level number)) value := by
  induction dimensions generalizing level number place' cell value with
  | nil => exact absurd rfl some_
  | cons length inner ih =>
    obtain ⟨row, elements, rfl, rfl, _, lengths, cells⟩ := represents.vector
    have below : level < shape.rank := by
      by_contra above
      rw [List.drop_eq_nil_of_le (Nat.le_of_not_lt above)] at rest
      cases rest
    rw [drop_dimensions below] at rest
    obtain ⟨rfl, tail⟩ := List.cons.inj rest
    refine ⟨toNat_rowFrom_length level number, lengths, fun i within => ?_⟩
    obtain ⟨-, cell, found, holds⟩ := cells i within
    refine ⟨?_, ?_⟩
    · rw [← tail, rowFrom, childAddress_add below]
      rfl
    · have numbered := number_lt below inside within
      cases inner with
      | nil =>
        have last : level + 1 = shape.rank := by
          have short := List.drop_eq_nil_iff.1 tail
          exact Nat.le_antisymm below short
        refine ⟨cell, ?_, holds.anywhere⟩
        have here := leaves [i] (by simp) ⟨within, insidePath_nil _⟩ rfl
        rw [← found, ← here]
        simp only [Shape.placeFrom, Shape.childAddress, Shape.numberFrom]
        rw [if_pos (by simpa using last)]
      | cons next inner =>
        have deeper : level + 1 ≠ shape.rank := by
          intro last
          rw [List.drop_eq_nil_of_le last.ge] at tail
          cases tail
        refine ⟨.row (rowFrom shape base (level + 1) (number * shape.dimension level + i)), ?_, ?_⟩
        · rw [rowFrom_succ, ← linked level (by omega) _ numbered]
          simp only [Shape.placeFrom, Shape.childAddress]
          rw [if_neg (by simpa using deeper)]
          rfl
        · apply ih tail (by simp) numbered holds
          intro path someRest insideRest full
          exact leaves (i :: path) (by simp) ⟨within, insideRest⟩ (by simpa using full)

/-! ### Linking -/

/-- Some bytes lie in the storage. -/
def Within (shape : Shape) (base address : Address) (bytes : Nat) : Prop :=
  base.toNat ≤ address.toNat ∧ address.toNat + bytes ≤ base.toNat + shape.storageBytes

/-- What linking a storage does: the rows are those of the constant, every path inside of the shape leads to its element, and
nothing else is written. -/
structure LinksRight (shape : Shape) (base : Address) (before after : Cells) : Prop where
  count : (shape.linkedConstant base).length = shape.rows
  rows : ∀ number < shape.rows, ∃ row, (shape.linkedConstant base)[number]? = some row ∧
    after (rowAddress base number) = some (.row row)
  within : (∀ number < shape.rows, Within shape base (rowAddress base number) rowBytes) ∧
    ∀ number < shape.leaves, Within shape base (shape.leafAddress base number) shape.elementBytes
  reaches : ∀ path, path.length = shape.rank → InsidePath shape.dimensions path →
    shape.numberFrom 0 0 path < shape.leaves ∧ follow after shape.elementBytes shape.rank (root shape base) path =
      some (shape.leafAddress base (shape.numberFrom 0 0 path))
  frame : ∀ address, (∀ number < shape.rows, rowAddress base number ≠ address) → after address = before address

theorem within_row (placed : shape.Placed base) {number : Nat} (below : number < shape.rows) :
    Within shape base (rowAddress base number) rowBytes := by
  have last : (number + 1) * rowBytes ≤ shape.leavesOffset := Nat.mul_le_mul_right rowBytes below
  rw [Nat.succ_mul] at last
  rw [Within, placed.toNat_row below, Shape.storageBytes]
  omega

theorem within_leaf (placed : shape.Placed base) {number : Nat} (below : number < shape.leaves) :
    Within shape base (shape.leafAddress base number) shape.elementBytes := by
  have last : (number + 1) * shape.elementBytes ≤ shape.leaves * shape.elementBytes := Nat.mul_le_mul_right _ below
  rw [Nat.succ_mul] at last
  rw [Within, placed.toNat_leaf below, Shape.storageBytes]
  omega

theorem rank_pos (shape : Shape) : 0 < shape.rank := by
  have nested := shape.nested
  change 2 ≤ shape.rank at nested
  omega

theorem root_eq (shape : Shape) (base : Address) : root shape base = rowFrom shape base 0 0 := by
  have nested := shape.nested
  change 2 ≤ shape.rank at nested
  have first : shape.childAddress base 0 (0 * shape.dimension 0) = base := by
    rw [Shape.childAddress, if_neg (by omega), Nat.zero_mul, rowAddress]
    exact BitVec.add_zero base
  rw [root, rowFrom, first]

theorem path_ne_nil {path : List Nat} (full : path.length = shape.rank) : path ≠ [] := by
  rintro rfl
  exact absurd full (rank_pos shape).ne

theorem linked_link (placed : shape.Placed base) (linkable : Linkable shape) (memory : Cells) :
    Linked shape base (shape.link memory base (base + BitVec.ofNat 64 shape.leavesOffset)) := by
  intro level below index inside
  rw [link_row placed memory below inside, clamped_eq (linkable.2 level below (Nat.zero_lt_of_lt inside))]

theorem emitCopy_eq (placed : shape.Placed base) (valid : shape.totalBytesValid = true) (memory : Cells) (source : Address) :
    emitCopy shape memory base source = (let linked := shape.link memory base (base + BitVec.ofNat 64 shape.leavesOffset)
      if source ≠ 0 ∧ source ≠ base then
        return (← copyLeaves shape.elementBytes shape.dimensions source
          (linked, base + BitVec.ofNat 64 shape.leavesOffset)).1
      else .ok linked) := by
  have behind : base + BitVec.ofNat 64 shape.leavesOffset ≠ 0 := by
    intro null
    have fits := placed.fits
    have ranked := rank_pos shape
    rw [Shape.storageBytes] at fits
    have number := congrArg BitVec.toNat null
    rw [toNat_add (by omega)] at number
    have zero : base.toNat = 0 := by
      have all : base.toNat + shape.leavesOffset = 0 := number
      omega
    exact placed.notNull (BitVec.eq_of_toNat_eq zero)
  rw [emitCopy, nest, if_neg (not_or.2 ⟨placed.notNull, behind⟩), valid, if_neg Bool.true_eq_false.mp]

theorem foldlM_u64_zero (dimensions : List Nat) :
    dimensions.foldlM (fun total dimension => Interp.u64 (total * dimension)) 0 = some 0 := by
  induction dimensions with
  | nil => rfl
  | cons dimension rest ih =>
    rw [List.foldlM_cons, Nat.zero_mul]
    exact ih

theorem rowsAt_pos_of_invalid (refused : shape.totalBytesValid = false) : 0 < shape.rowsAt 0 := by
  apply Nat.pos_of_ne_zero
  intro none_
  have first := drop_dimensions (rank_pos shape)
  have zero : shape.dimension 0 = 0 := by
    rw [rowsAt_eq (rank_pos shape), List.take_zero, List.prod_nil, Nat.one_mul] at none_
    exact none_
  rw [List.drop_zero, zero] at first
  have total (size : Nat) : shape.dimensions.foldlM (fun total dimension => Interp.u64 (total * dimension)) size = some 0 := by
    rw [first, List.foldlM_cons, Nat.mul_zero]
    exact foldlM_u64_zero _
  rw [Shape.totalBytesValid, total, total] at refused
  cases refused

theorem linksRight_link (placed : shape.Placed base) (linkable : Linkable shape) (memory : Cells) :
    LinksRight shape base memory (shape.link memory base (base + BitVec.ofNat 64 shape.leavesOffset)) := by
  have linked := linked_link placed linkable memory
  refine ⟨(constantLevels_spec le_rfl).2.1, ?_, ⟨fun _ => within_row placed, fun _ => within_leaf placed⟩, ?_,
    fun address outside => link_frame placed memory outside⟩
  · intro number below
    obtain ⟨level, less, index, inside, rfl⟩ := exists_level below
    exact ⟨_, linkedConstant_row less inside, linked level less index inside⟩
  · intro path full within
    have some_ := path_ne_nil full
    refine ⟨numberFrom_lt (by simp) within (by simpa using full), ?_⟩
    rw [root_eq]
    exact follow_linked linked (Nat.zero_add _) (by simp) within full some_

theorem linksRight_iff (placed : shape.Placed base) :
    (∀ before, ∃ after, emitCopy shape before base 0 = .ok after ∧ LinksRight shape base before after) ↔
      Linkable shape := by
  have linkedOf (valid : shape.totalBytesValid = true) (before : Cells) : emitCopy shape before base 0 =
      .ok (shape.link before base (base + BitVec.ofNat 64 shape.leavesOffset)) := by
    rw [emitCopy_eq placed valid]
    exact if_neg fun both => both.1 rfl
  constructor
  · intro right
    obtain ⟨after, copied, links⟩ := right fun _ => none
    have valid : shape.totalBytesValid = true := by
      by_contra refused
      rw [Bool.not_eq_true] at refused
      have nothing : emitCopy shape (fun _ => none) base 0 = .ok fun _ => none := by
        rw [emitCopy, nest, refused]
        split <;> rfl
      cases nothing.symm.trans copied
      have nested := shape.nested
      change 2 ≤ shape.rank at nested
      obtain ⟨row, -, written⟩ := links.rows _ (start_add_lt_rows (by omega) (rowsAt_pos_of_invalid refused))
      cases written
    refine ⟨valid, fun level below some_ => ?_⟩
    cases (linkedOf valid _).symm.trans copied
    obtain ⟨row, constant, written⟩ := links.rows _ (start_add_lt_rows below some_)
    rw [linkedConstant_row below some_] at constant
    rw [link_row placed _ below some_, ← Option.some.inj constant] at written
    have lengths : BitVec.ofNat 32 (min (shape.lengthAt level) i32Max) = BitVec.ofNat 32 (shape.lengthAt level) :=
      congrArg Row.length (Cell.row.inj (Option.some.inj written))
    have small : shape.dimension (level + 1) < 2 ^ 32 := dimension_lt _
    have numbers := congrArg BitVec.toNat lengths
    rw [lengthAt_eq] at numbers ⊢
    rw [BitVec.toNat_ofNat, BitVec.toNat_ofNat, Nat.mod_eq_of_lt small, Nat.mod_eq_of_lt (by omega)] at numbers
    omega
  · intro linkable before
    exact ⟨_, linkedOf linkable.1 before, linksRight_link placed linkable before⟩

/-! ### Copying -/

theorem loadRow_eq {address : Address} {row : Row} (found : memory address = some (.row row)) :
    loadRow memory address = .ok row := by
  rw [loadRow, load, found]
  rfl

def copyRow (elementBytes : Nat) : List Nat → Row → Cells × Address → Llvm.Run Failure (Cells × Address)
  | [length], row, state => .ok (copyElements state.1 elementBytes length state.2 row.pointer,
    state.2 + BitVec.ofNat 64 (length * elementBytes))
  | count :: inner, row, state =>
    (List.range count).foldlM (fun state index => do
      copyRow elementBytes inner (← loadRow state.1 (row.pointer + BitVec.ofNat 64 (index * rowBytes))) state) state
  | [], _, state => .ok state

theorem copyLeaves_eq_copyRow (elementBytes : Nat) {dimensions : List Nat} (nested : 2 ≤ dimensions.length) (row : Row) :
    copyLeaves elementBytes dimensions row.pointer = copyRow elementBytes dimensions row := by
  induction dimensions generalizing row with
  | nil => cases nested
  | cons count inner ih =>
    cases inner with
    | nil => simp at nested
    | cons length inner =>
      funext state
      rw [copyLeaves, copyRow]
      · congr 1
        funext state index
        apply bind_congr
        intro next
        cases inner with
        | nil => rfl
        | cons second inner => exact congrFun (ih (by simp) next) state
      · simp

/-- The rows under an address, with the places to which they lead. -/
def RowsOf (memory : Cells) (elementBytes : Nat) : List Nat → (List Nat → Address) → Address → Prop
  | [], _, _ => True
  | [length], place, pointer => ∀ i < length, place [i] = pointer + BitVec.ofNat 64 (i * elementBytes)
  | count :: inner, place, pointer => ∀ i < count, place [i] = pointer + BitVec.ofNat 64 (i * rowBytes) ∧
      ∃ next, memory (place [i]) = some (.row next) ∧ RowsOf memory elementBytes inner (fun path => place (i :: path)) next.pointer

/-- The moves of the elements, a group for each innermost row, in row order. -/
def copyGroups (shape : Shape) (base : Address) : List Nat → (List Nat → Address) → Nat → List (List (Address × Address))
  | [], _, _ => []
  | [length], place, number =>
    [(List.range length).map fun i => (shape.leafAddress base (number * length + i), place [i])]
  | count :: inner, place, number => (List.range count).flatMap fun i =>
    copyGroups shape base inner (fun path => place (i :: path)) (number * count + i)

theorem destinations (dimensions : List Nat) (some_ : dimensions ≠ []) (place : List Nat → Address) (number : Nat) :
    (copyGroups shape base dimensions place number).flatten.map Prod.fst =
      (List.range' (number * dimensions.prod) dimensions.prod).map (shape.leafAddress base) := by
  induction dimensions generalizing place number with
  | nil => exact absurd rfl some_
  | cons count inner ih =>
    cases inner with
    | nil =>
      simp only [copyGroups, List.flatten_singleton, List.map_map, List.prod_singleton, List.range'_eq_map_range]
      rfl
    | cons next inner =>
      rw [copyGroups, List.prod_cons, ← Nat.mul_assoc]
      · generalize (next :: inner).prod = size at ih ⊢
        have upTo (n : Nat) : (((List.range n).flatMap fun i => copyGroups shape base (next :: inner)
            (fun path => place (i :: path)) (number * count + i)).flatten.map Prod.fst) =
            (List.range' (number * count * size) (n * size)).map (shape.leafAddress base) := by
          induction n with
          | zero => simp
          | succ n upTo =>
            have part := ih (by simp) (fun path => place (n :: path)) (number * count + n)
            rw [List.range_succ, List.flatMap_append, List.flatten_append, List.map_append, upTo, List.flatMap_singleton, part,
              Nat.add_mul, Nat.succ_mul, ← List.map_append, List.range'_append_1]
        exact upTo count
      · simp

theorem mem_copyGroups {level number : Nat} {dimensions : List Nat} (rest : shape.dimensions.drop level = dimensions)
    (some_ : dimensions ≠ []) {place : List Nat → Address} {move : Address × Address} :
    move ∈ (copyGroups shape base dimensions place number).flatten ↔ ∃ path, path.length = dimensions.length ∧
      InsidePath dimensions path ∧ move = (shape.leafAddress base (shape.numberFrom level number path), place path) := by
  induction dimensions generalizing level number place with
  | nil => exact absurd rfl some_
  | cons count inner ih =>
    have below : level < shape.rank := by
      by_contra above
      rw [List.drop_eq_nil_of_le (Nat.le_of_not_lt above)] at rest
      cases rest
    rw [drop_dimensions below] at rest
    obtain ⟨rfl, tail⟩ := List.cons.inj rest
    cases inner with
    | nil =>
      simp only [copyGroups, List.flatten_singleton, List.mem_map, List.mem_range]
      constructor
      · rintro ⟨i, within, rfl⟩
        exact ⟨[i], rfl, ⟨within, insidePath_nil _⟩, rfl⟩
      · rintro ⟨path, full, within, rfl⟩
        obtain ⟨i, rfl⟩ := List.length_eq_one_iff.1 full
        exact ⟨i, within.1, rfl⟩
    | cons next inner =>
      rw [copyGroups]
      · simp only [List.mem_flatten, List.mem_flatMap, List.mem_range]
        constructor
        · rintro ⟨group, ⟨i, within, among⟩, member⟩
          obtain ⟨path, full, insidePath, rfl⟩ := (ih tail (by simp)).1 (List.mem_flatten.2 ⟨group, among, member⟩)
          exact ⟨i :: path, by simpa using full, ⟨within, insidePath⟩, rfl⟩
        · rintro ⟨path, full, within, rfl⟩
          cases path with
          | nil => cases full
          | cons i path =>
            have member : (shape.leafAddress base (shape.numberFrom level number (i :: path)), place (i :: path)) ∈
                (copyGroups shape base (next :: inner) (fun path => place (i :: path))
                  (number * shape.dimension level + i)).flatten :=
              (ih tail (by simp)).2 ⟨path, by simpa using full, within.2, rfl⟩
            obtain ⟨group, among, member⟩ := List.mem_flatten.1 member
            exact ⟨group, ⟨i, within.1, among⟩, member⟩
      · simp

theorem copyElements_eq (placed : shape.Placed base) (memory : Cells) {length number : Nat} {source : Address}
    {place : List Nat → Address} (places : ∀ i < length, place [i] = source + BitVec.ofNat 64 (i * shape.elementBytes))
    (fits : number + length ≤ shape.leaves) :
    copyElements memory shape.elementBytes length (shape.leafAddress base number) source =
      simultaneous ((List.range length).map fun i => (shape.leafAddress base (number + i), place [i])) memory := by
  have targets (i : Nat) : shape.leafAddress base number + BitVec.ofNat 64 (i * shape.elementBytes) =
      shape.leafAddress base (number + i) := leafAddress_add number i
  have distinct : (((List.range length).map fun i => (shape.leafAddress base (number + i), place [i])).map Prod.fst).Nodup := by
    rw [List.map_map]
    apply List.Nodup.map_on _ List.nodup_range
    intro i below j below' same
    rw [List.mem_range] at below below'
    have numbers := placed.leaf_injective (by omega) (by omega) same
    omega
  funext address
  by_cases here : ∃ i < length, shape.leafAddress base (number + i) = address
  · obtain ⟨i, below, rfl⟩ := here
    have member : (shape.leafAddress base (number + i), place [i]) ∈
        (List.range length).map fun i => (shape.leafAddress base (number + i), place [i]) :=
      List.mem_map_of_mem (List.mem_range.2 below)
    rw [simultaneous_of_mem distinct member, places i below, ← targets i]
    apply copyElements_of_lt below
    intro i below j below' same
    rw [targets, targets] at same
    have numbers := placed.leaf_injective (by omega) (by omega) same
    omega
  · have outside : ∀ i < length, shape.leafAddress base (number + i) ≠ address := fun i below same => here ⟨i, below, same⟩
    rw [simultaneous_of_not_mem, copyElements_of_ne]
    · intro i below
      rw [targets]
      exact outside i below
    · rw [List.map_map, List.mem_map]
      rintro ⟨i, below, same⟩
      exact outside i (List.mem_range.1 below) same

theorem RowsOf.frame {changed : Cells} {elementBytes : Nat} {dimensions : List Nat} {place : List Nat → Address}
    {pointer : Address} (rows : RowsOf memory elementBytes dimensions place pointer)
    (kept : ∀ path, path ≠ [] → path.length < dimensions.length → InsidePath dimensions path →
      changed (place path) = memory (place path)) : RowsOf changed elementBytes dimensions place pointer := by
  induction dimensions generalizing place pointer with
  | nil => trivial
  | cons count inner ih =>
    cases inner with
    | nil => exact rows
    | cons length inner =>
      intro i below
      obtain ⟨lies, next, found, deeper⟩ := rows i below
      refine ⟨lies, next, ?_, ih deeper ?_⟩
      · rw [kept [i] (by simp) (by simp) ⟨below, insidePath_nil _⟩, found]
      · intro path some_ short inside
        exact kept (i :: path) (by simp) (by simpa using short) ⟨below, inside⟩

/-- No row of a source lies among the elements of the storage. -/
def RowsElsewhere (shape : Shape) (base : Address) (dimensions : List Nat) (place : List Nat → Address) : Prop :=
  ∀ path, path ≠ [] → path.length < dimensions.length → InsidePath dimensions path →
    ∀ number < shape.leaves, place path ≠ shape.leafAddress base number

theorem grouped_row {dimensions : List Nat} (some_ : dimensions ≠ []) {place : List Nat → Address} {number : Nat}
    (fits : (number + 1) * dimensions.prod ≤ shape.leaves) {address : Address}
    (elsewhere : ∀ number < shape.leaves, address ≠ shape.leafAddress base number) (memory : Cells) :
    grouped (copyGroups shape base dimensions place number) memory address = memory address := by
  apply grouped_of_not_mem
  rw [destinations dimensions some_, List.mem_map]
  rintro ⟨leaf, among, same⟩
  rw [Nat.succ_mul] at fits
  exact elsewhere leaf (lt_of_lt_of_le (List.mem_range'_1.1 among).2 fits) same.symm

theorem copyRow_eq (placed : shape.Placed base) {dimensions : List Nat} (some_ : dimensions ≠ []) {place : List Nat → Address}
    {row : Row} {number : Nat} (rows : RowsOf memory shape.elementBytes dimensions place row.pointer)
    (elsewhere : RowsElsewhere shape base dimensions place) (fits : (number + 1) * dimensions.prod ≤ shape.leaves) :
    copyRow shape.elementBytes dimensions row (memory, shape.leafAddress base (number * dimensions.prod)) =
      .ok (grouped (copyGroups shape base dimensions place number) memory,
        shape.leafAddress base ((number + 1) * dimensions.prod)) := by
  induction dimensions generalizing place row number memory with
  | nil => exact absurd rfl some_
  | cons count inner ih =>
    cases inner with
    | nil =>
      rw [List.prod_singleton, Nat.succ_mul] at fits
      rw [List.prod_singleton, copyRow, copyElements_eq placed memory rows fits, leafAddress_add, Nat.succ_mul]
      rfl
    | cons length inner =>
      have size : (count :: length :: inner).prod = count * (length :: inner).prod := List.prod_cons
      rw [size] at fits ⊢
      rw [copyRow, copyGroups]
      · generalize prod_eq : (length :: inner).prod = elements at ih fits ⊢
        have upTo (n : Nat) (few : n ≤ count) : (List.range n).foldlM (fun (state : Cells × Address) index => do
              copyRow shape.elementBytes (length :: inner)
                (← loadRow state.1 (row.pointer + BitVec.ofNat 64 (index * rowBytes))) state)
              (memory, shape.leafAddress base (number * (count * elements))) =
            (.ok (grouped ((List.range n).flatMap fun i => copyGroups shape base (length :: inner)
                (fun path => place (i :: path)) (number * count + i)) memory,
              shape.leafAddress base ((number * count + n) * elements)) : Llvm.Run Failure (Cells × Address)) := by
          induction n with
          | zero =>
            rw [Nat.add_zero, Nat.mul_assoc]
            rfl
          | succ n upTo =>
            obtain ⟨lies, next, found, deeper⟩ := rows n few
            have room {i : Nat} (below : i < count) : (number * count + i + 1) * elements ≤ shape.leaves := by
              refine le_trans (Nat.mul_le_mul_right elements ?_) (Nat.mul_assoc (number + 1) count elements ▸ fits)
              rw [Nat.succ_mul]
              omega
            have kept {address : Address} (apart : ∀ number < shape.leaves, address ≠ shape.leafAddress base number) :
                grouped ((List.range n).flatMap fun i => copyGroups shape base (length :: inner)
                  (fun path => place (i :: path)) (number * count + i)) memory address = memory address := by
              apply grouped_of_not_mem
              rw [List.mem_map]
              rintro ⟨move, among, same⟩
              obtain ⟨group, inGroups, member⟩ := List.mem_flatten.1 among
              obtain ⟨i, below, inGroup⟩ := List.mem_flatMap.1 inGroups
              have destination := List.mem_map_of_mem (f := Prod.fst) (List.mem_flatten.2 ⟨group, inGroup, member⟩)
              rw [destinations _ (by simp), List.mem_map] at destination
              obtain ⟨leaf, inRange, here⟩ := destination
              have bound := (List.mem_range'_1.1 inRange).2
              have enough := room ((List.mem_range.1 below).trans few)
              rw [Nat.succ_mul] at enough
              rw [prod_eq] at bound
              exact apart leaf (lt_of_lt_of_le bound enough) (same.symm.trans here.symm)
            have row_eq := kept (elsewhere [n] (by simp) (by simp) ⟨few, insidePath_nil _⟩)
            rw [List.range_succ, List.foldlM_append, upTo (Nat.le_of_succ_le few), List.flatMap_append, grouped_append,
              List.flatMap_singleton]
            change (do copyRow _ _ (← loadRow _ _) _) >>= pure = _
            rw [bind_pure, ← lies, loadRow_eq (row_eq.trans found)]
            have aside : RowsElsewhere shape base (length :: inner) fun path => place (n :: path) :=
              fun path some_ short inside => elsewhere (n :: path) (by simp) (by simpa using short) ⟨few, inside⟩
            exact ih (by simp) (deeper.frame fun path some_ short inside => kept (aside path some_ short inside)) aside (room few)
        have all := upTo count le_rfl
        rw [← Nat.succ_mul, Nat.mul_assoc] at all
        exact all
      · simp
      · simp

theorem rowsOf {dimensions : List Nat} {leaf : Nat} {place : List Nat → Address} {row : Row} {value : Value}
    (represents : IndexBounds.Represents memory leaf dimensions place (.row row) value) :
    RowsOf memory leaf dimensions place row.pointer := by
  induction dimensions generalizing place row value with
  | nil => trivial
  | cons count inner ih =>
    obtain ⟨_, elements, ⟨⟩, rfl, _, _, cells⟩ := represents.vector
    cases inner with
    | nil => exact fun i below => (cells i below).1
    | cons length inner =>
      intro i below
      obtain ⟨lies, cell, found, holds⟩ := cells i below
      obtain ⟨next, _, rfl, _⟩ := holds.vector
      exact ⟨lies, next, found, ih holds⟩

theorem place_eq (linked : Linked shape base memory) {level number : Nat} {dimensions : List Nat}
    (rest : shape.dimensions.drop level = dimensions) (inside : number < (shape.dimensions.take level).prod)
    {place : List Nat → Address} (rows : RowsOf memory shape.elementBytes dimensions place (rowFrom shape base level number).pointer)
    {path : List Nat} (some_ : path ≠ []) (within : InsidePath dimensions path) :
    place path = shape.placeFrom base level number path := by
  induction dimensions generalizing level number place path with
  | nil =>
    cases path with
    | nil => exact absurd rfl some_
    | cons _ _ => exact within.elim
  | cons count inner ih =>
    have below : level < shape.rank := by
      by_contra above
      rw [List.drop_eq_nil_of_le (Nat.le_of_not_lt above)] at rest
      cases rest
    rw [drop_dimensions below] at rest
    obtain ⟨rfl, tail⟩ := List.cons.inj rest
    cases path with
    | nil => exact absurd rfl some_
    | cons i path =>
      have child : shape.childAddress base level (number * shape.dimension level) +
          BitVec.ofNat 64 (i * elementBytes shape.elementBytes inner) =
            shape.childAddress base level (number * shape.dimension level + i) := by
        rw [← tail]
        exact childAddress_add below _ i
      cases inner with
      | nil =>
        cases path with
        | nil => exact (rows i within.1).trans child
        | cons _ _ => exact within.2.elim
      | cons next inner =>
        obtain ⟨lies, row, found, deeper⟩ := rows i within.1
        have here : place [i] = shape.placeFrom base level number [i] := lies.trans child
        cases path with
        | nil => exact here
        | cons second path =>
          have numbered := number_lt below inside within.1
          have inner_ : level + 1 ≠ shape.rank := by
            intro last
            rw [List.drop_eq_nil_of_le last.ge] at tail
            cases tail
          have address : place [i] = rowAddress base (shape.start level + (number * shape.dimension level + i)) := by
            rw [here]
            simp only [Shape.placeFrom, Shape.childAddress]
            exact if_neg (by simpa using inner_)
          rw [address, linked level (by omega) _ numbered] at found
          obtain rfl := Cell.row.inj (Option.some.inj found)
          exact ih tail numbered deeper (by simp) within.2

/-- A vector of the shape that is copied: linking the storage leaves it as it is, since its rows lie elsewhere or are linked
already, and none of them lies among the elements of the storage. -/
structure Source (shape : Shape) (base : Address) (memory : Cells) (source : Address) (place : List Nat → Address)
    (value : Value) : Prop where
  live : source ≠ 0
  holds : IndexBounds.Represents memory shape.elementBytes shape.dimensions place (.row (root shape source)) value
  stays : ∀ path, path ≠ [] → InsidePath shape.dimensions path →
    shape.link memory base (base + BitVec.ofNat 64 shape.leavesOffset) (place path) = memory (place path)
  elsewhere : RowsElsewhere shape base shape.dimensions place

/-- No element of the source lies where the element of an earlier innermost row is replaced by another value. -/
def Undisturbed (shape : Shape) (base : Address) (memory : Cells) (place : List Nat → Address) : Prop :=
  GroupsIndependent (copyGroups shape base shape.dimensions place 0) memory

/-- The storage has the value of the source, and nothing else has changed. -/
def Copied (shape : Shape) (base : Address) (value : Value) (before after : Cells) : Prop :=
  IndexBounds.Represents after shape.elementBytes shape.dimensions (shape.place base) (.row (root shape base)) value ∧
    ∀ address, (∀ number < shape.rows, rowAddress base number ≠ address) →
      (∀ number < shape.leaves, shape.leafAddress base number ≠ address) → after address = before address

section

variable {source : Address} {place : List Nat → Address} {value : Value}

theorem dimensions_ne_nil (shape : Shape) : shape.dimensions ≠ [] := List.length_pos_iff.1 (rank_pos shape)

theorem move_eq (placed : shape.Placed base) (given : Source shape base memory source place value) {move : Address × Address}
    (member : move ∈ (copyGroups shape base shape.dimensions place 0).flatten) :
    let linked := shape.link memory base (base + BitVec.ofNat 64 shape.leavesOffset)
    linked move.1 = memory move.1 ∧ linked move.2 = memory move.2 := by
  obtain ⟨path, full, inside, rfl⟩ := (mem_copyGroups (List.drop_zero) (dimensions_ne_nil shape)).1 member
  refine ⟨link_frame placed memory fun number below => ?_, given.stays path (path_ne_nil full) inside⟩
  exact placed.row_ne_leaf below (numberFrom_lt (by simp) inside (by simpa using full))

theorem undisturbed_iff (placed : shape.Placed base) (given : Source shape base memory source place value) :
    GroupsIndependent (copyGroups shape base shape.dimensions place 0)
      (shape.link memory base (base + BitVec.ofNat 64 shape.leavesOffset)) ↔ Undisturbed shape base memory place :=
  groupsIndependent_congr fun _ member => move_eq placed given member

theorem distinct_destinations (placed : shape.Placed base) :
    ((copyGroups shape base shape.dimensions place 0).flatten.map Prod.fst).Nodup := by
  rw [destinations _ (dimensions_ne_nil shape)]
  apply List.Nodup.map_on _ List.nodup_range'
  intro first member second member' same
  have below := (List.mem_range'_1.1 member).2
  have below' := (List.mem_range'_1.1 member').2
  rw [Nat.zero_mul, Nat.zero_add] at below below'
  exact placed.leaf_injective below below' same

theorem copied_self (placed : shape.Placed base) (linkable : Linkable shape)
    (given : Source shape base memory base place value) :
    (∃ after, emitCopy shape memory base base = .ok after ∧ Copied shape base value memory after) ∧
      Undisturbed shape base memory place := by
  have linked := linked_link placed linkable memory
  have holds := given.holds.frame fun path some_ inside => given.stays path some_ inside
  have rows := rowsOf holds
  have here {path : List Nat} (full : path.length = shape.rank) (inside : InsidePath shape.dimensions path) :
      place path = shape.leafAddress base (shape.numberFrom 0 0 path) := by
    have some_ := path_ne_nil full
    rw [← placeFrom_eq (by simpa using full) some_]
    apply place_eq linked List.drop_zero (by simp) _ some_ inside
    rw [← root_eq]
    exact rows
  have emitted : emitCopy shape memory base base =
      .ok (shape.link memory base (base + BitVec.ofNat 64 shape.leavesOffset)) := by
    rw [emitCopy_eq placed linkable.1]
    exact if_neg fun both => both.2 rfl
  constructor
  · refine ⟨_, emitted, ?_, fun address notRow _ => link_frame placed memory notRow⟩
    rw [root_eq]
    apply represents_linked linked List.drop_zero (dimensions_ne_nil shape) (by simp) holds
    intro path _ inside full
    rw [here full inside]
  · refine List.pairwise_of_forall_mem_list fun first among later among' move member next member' same => ?_
    obtain ⟨path, full, inside, rfl⟩ := (mem_copyGroups List.drop_zero (dimensions_ne_nil shape)).1
      (List.mem_flatten.2 ⟨first, among, member⟩)
    rw [here full inside]

/-- A copy has the value of the source exactly if no element that is still to be read has been replaced by another. -/
theorem copied_iff (placed : shape.Placed base) (linkable : Linkable shape)
    (given : Source shape base memory source place value) :
    (∃ after, emitCopy shape memory base source = .ok after ∧ Copied shape base value memory after) ↔
      Undisturbed shape base memory place := by
  by_cases itself : source = base
  · subst itself
    obtain ⟨copied, undisturbed⟩ := copied_self placed linkable given
    exact iff_of_true copied undisturbed
  have some_ := dimensions_ne_nil shape
  rw [← undisturbed_iff placed given, ← grouped_eq_simultaneous_iff (distinct_destinations placed)]
  have moves {move : Address × Address} (member : move ∈ (copyGroups shape base shape.dimensions place 0).flatten) :=
    move_eq placed given member
  have linked := linked_link placed linkable memory
  have linkedFrame {address : Address} (notRow : ∀ number < shape.rows, rowAddress base number ≠ address) :=
    link_frame placed memory notRow
  have holds := given.holds.frame fun path some_ inside => given.stays path some_ inside
  have emitted := emitCopy_eq placed linkable.1 memory source
  dsimp only at emitted
  generalize shape.link memory base (base + BitVec.ofNat 64 shape.leavesOffset) = after at moves linked linkedFrame holds emitted ⊢
  have fits : (0 + 1) * shape.dimensions.prod ≤ shape.leaves := by
    rw [Nat.zero_add, Nat.one_mul]
    exact le_rfl
  have copied := copyRow_eq placed some_ (rowsOf holds) given.elsewhere fits
  have first : shape.leafAddress base (0 * shape.dimensions.prod) = base + BitVec.ofNat 64 shape.leavesOffset := by
    rw [Shape.leafAddress, Nat.zero_mul, Nat.zero_mul]
    exact BitVec.add_zero _
  rw [first, ← copyLeaves_eq_copyRow shape.elementBytes shape.nested (root shape source)] at copied
  change copyLeaves _ _ source _ = _ at copied
  rw [if_pos ⟨given.live, itself⟩, copied] at emitted
  change _ = Except.ok (grouped _ after) at emitted
  have distinct : ((copyGroups shape base shape.dimensions place 0).flatten.map Prod.fst).Nodup := distinct_destinations placed
  have isDestination {address : Address} :
      address ∈ (copyGroups shape base shape.dimensions place 0).flatten.map Prod.fst ↔
        ∃ path, path.length = shape.rank ∧ InsidePath shape.dimensions path ∧
          address = shape.leafAddress base (shape.numberFrom 0 0 path) := by
    simp only [List.mem_map, mem_copyGroups List.drop_zero some_]
    constructor
    · rintro ⟨_, ⟨path, full, inside, rfl⟩, rfl⟩
      exact ⟨path, full, inside, rfl⟩
    · rintro ⟨path, full, inside, rfl⟩
      exact ⟨_, ⟨path, full, inside, rfl⟩, rfl⟩
  have replaced {path : List Nat} (full : path.length = shape.rank) (inside : InsidePath shape.dimensions path) :
      simultaneous (copyGroups shape base shape.dimensions place 0).flatten after
        (shape.leafAddress base (shape.numberFrom 0 0 path)) = after (place path) :=
    simultaneous_of_mem distinct ((mem_copyGroups List.drop_zero some_).2 ⟨path, full, inside, rfl⟩) after
  constructor
  · rintro ⟨_, copies, represents, -⟩
    cases emitted.symm.trans copies
    funext address
    by_cases moved : address ∈ (copyGroups shape base shape.dimensions place 0).flatten.map Prod.fst
    · obtain ⟨path, full, inside, rfl⟩ := isDestination.1 moved
      have arrived := leaf_eq represents holds inside full (path_ne_nil full)
      rw [Shape.place, placeFrom_eq (by simpa using full) (path_ne_nil full)] at arrived
      rw [arrived, replaced full inside]
    · rw [grouped_of_not_mem moved, simultaneous_of_not_mem moved]
  · intro agree
    refine ⟨_, emitted, ?_, fun address notRow notLeaf => ?_⟩
    · have kept : Linked shape base (grouped (copyGroups shape base shape.dimensions place 0) after) := by
        intro level below index inside
        rw [← linked level below index inside]
        apply grouped_row some_ fits
        exact fun number small => placed.row_ne_leaf (start_add_lt_rows below inside) small
      rw [root_eq]
      apply represents_linked kept List.drop_zero some_ (by simp) holds
      intro path _ inside full
      rw [agree, replaced full inside]
    · rw [grouped_of_not_mem, linkedFrame notRow]
      intro moved
      obtain ⟨path, full, inside, rfl⟩ := isDestination.1 moved
      exact notLeaf (shape.numberFrom 0 0 path) (numberFrom_lt (by simp) inside (by simpa using full)) rfl

/-- The sources that a program can assign: a vector in other storage, which may be part of a larger one, or the storage
itself. A literal with rows of the vector that it is assigned to is refused by the analyzer. -/
def Assignable (shape : Shape) (base source : Address) (place : List Nat → Address) : Prop :=
  source = base ∨ ∀ path, path.length = shape.rank → InsidePath shape.dimensions path →
    ∀ number < shape.leaves, place path ≠ shape.leafAddress base number

theorem undisturbed_of_assignable (placed : shape.Placed base) (linkable : Linkable shape)
    (given : Source shape base memory source place value) (assignable : Assignable shape base source place) :
    Undisturbed shape base memory place := by
  rcases assignable with rfl | apart
  · exact (copied_self placed linkable given).2
  · refine List.pairwise_of_forall_mem_list fun first among later among' move member next member' same => ?_
    obtain ⟨path, full, inside, rfl⟩ := (mem_copyGroups List.drop_zero (dimensions_ne_nil shape)).1
      (List.mem_flatten.2 ⟨first, among, member⟩)
    obtain ⟨path', full', inside', rfl⟩ := (mem_copyGroups List.drop_zero (dimensions_ne_nil shape)).1
      (List.mem_flatten.2 ⟨later, among', member'⟩)
    exact absurd same (apart path' full' inside' _ (numberFrom_lt (by simp) inside (by simpa using full)))

/-- Linking and copying are right exactly if the counts are numbers of the machine and no row below the outermost is longer
than an `INTEGER` counts. -/
theorem nested_iff (placed : shape.Placed base) (given : Source shape base memory source place value)
    (assignable : Assignable shape base source place) :
    ((∀ before, ∃ after, emitCopy shape before base 0 = .ok after ∧ LinksRight shape base before after) ∧
      ∃ after, emitCopy shape memory base source = .ok after ∧ Copied shape base value memory after) ↔ Linkable shape := by
  rw [linksRight_iff placed]
  refine and_iff_left_of_imp fun linkable => (copied_iff placed linkable given).2 ?_
  exact undisturbed_of_assignable placed linkable given assignable

end

/-- Two rows of two elements of eight bytes: the rows at 4096 and 4112, the elements from 4128 on. -/
def grid : Shape := ⟨[2, 2], 8, by decide, by decide, wordAlignment_pos⟩

theorem grid_placed : grid.Placed 4096 := ⟨by decide, by decide⟩

theorem grid_linkable : Linkable grid := by
  refine ⟨by decide, fun level below _ => ?_⟩
  obtain rfl : level = 0 := Nat.lt_one_iff.1 below
  decide

theorem grid_elsewhere {path : List Nat} (some_ : path ≠ []) (inside : InsidePath grid.dimensions path) :
    ∀ number < 4, gridPlace path ≠ grid.leafAddress 4096 number := by
  have places : ∀ path ∈ [[0], [1], [0, 0], [0, 1], [1, 0], [1, 1]], ∀ number < 4,
      gridPlace path ≠ grid.leafAddress 4096 number := by decide
  exact places path (insidePath_grid some_ inside)

theorem grid_source : Source grid 4096 gridMemory 64 gridPlace gridValue := by
  refine ⟨by decide, grid_represents, fun path some_ inside => ?_, fun path some_ _ inside => grid_elsewhere some_ inside⟩
  have elsewhere : ∀ path ∈ [[0], [1], [0, 0], [0, 1], [1, 0], [1, 1]], ∀ number < 2,
      rowAddress 4096 number ≠ gridPlace path := by decide
  exact link_frame grid_placed gridMemory fun number below => elsewhere path (insidePath_grid some_ inside) number below

theorem nested_iff_grid : (∀ before, ∃ after, emitCopy grid before 4096 0 = .ok after ∧ LinksRight grid 4096 before after) ∧
      ∃ after, emitCopy grid gridMemory 4096 64 = .ok after ∧ Copied grid 4096 gridValue gridMemory after := by
  refine (nested_iff grid_placed grid_source (.inr fun path full inside => ?_)).2 grid_linkable
  exact grid_elsewhere (path_ne_nil full) inside

/-- `STATIC m AS INT8[1][3000000000]` -/
def longRow : Shape := ⟨[1, 3000000000], 1, by decide, by decide, Nat.one_pos⟩

theorem longRow_placed : longRow.Placed 4096 := ⟨by decide, by decide⟩

/-- The compiler gives the only row its length, and the first assignment links it with another one. -/
theorem longRow_not_linked : longRow.linkedConstant 4096 = [⟨4112, 3000000000⟩] ∧
    ∀ memory, ∃ after, emitCopy longRow memory 4096 4096 = .ok after ∧ after 4096 = some (.row ⟨4112, 2147483647⟩) ∧
      ¬LinksRight longRow 4096 memory after := by
  have constant : longRow.linkedConstant 4096 = [⟨4112, 3000000000⟩] := by decide
  refine ⟨constant, fun memory => ⟨_, (emitCopy_eq longRow_placed (by decide) memory 4096).trans (if_neg fun both => both.2 rfl),
    ?_, fun right => ?_⟩⟩
  · exact @link_row longRow 4096 longRow_placed memory 0 0 (by decide) (by decide)
  · obtain ⟨row, listed, written⟩ := right.rows 0 (by decide)
    rw [constant] at listed
    obtain rfl := Option.some.inj listed
    have clamped := @link_row longRow 4096 longRow_placed memory 0 0 (by decide) (by decide)
    have lengths := congrArg Row.length (Cell.row.inj (Option.some.inj (written.symm.trans clamped)))
    revert lengths
    decide

end BasicNext.Native.VectorNest
