import BasicNext.Data.WellFormed

/-!
# Joins of data frames

`join_dataframes`: the pairs of rows that a join keeps are collected by the loops of the source, one
half of a pair missing where an outer join keeps an unmatched row, and every output column reads its
cells through the pairs.
-/

namespace BasicNext.Data

variable {α : Type}

inductive DataFrameJoin where
  | inner | left | right | full
deriving DecidableEq, Repr

structure DataFrameJoinConfig (α : Type) where
  leftLabel : String
  rightLabel : String
  kind : DataFrameJoin
  equals : α → α → Bool
  isNotAvailable : α → Bool
  notAvailable : α

/-- A row of the left frame and one of the right frame. -/
abbrev RowPair := Option Nat × Option Nat

/-- `matches(left_row, right_row)` -/
def keysMatch (left right : DataFrameResource α) (config : DataFrameJoinConfig α)
    (leftKey rightKey leftRow rightRow : Nat) : Except Fault Bool := do
  let leftValue ← getAt (← getAt left.columns leftKey).values leftRow
  let rightValue ← getAt (← getAt right.columns rightKey).values rightRow
  return !config.isNotAvailable leftValue && !config.isNotAvailable rightValue
    && config.equals leftValue rightValue

/-- The pairs of `Right`: for each right row its left rows, or the right row alone. -/
def rightPairs (rowsMatch : Nat → Nat → Except Fault Bool) (leftRows rightRows : Nat) :
    Except Fault (List RowPair) :=
  (List.range rightRows).foldlM (fun pairs rightRow => do
    let (pairs, found) ← (List.range leftRows).foldlM (fun (pairs, found) leftRow => do
      if ← rowsMatch leftRow rightRow then
        return (pairs ++ [(some leftRow, some rightRow)], true)
      else return (pairs, found)) (pairs, false)
    return if found then pairs else pairs ++ [(none, some rightRow)]) []

/-- One left row of `Inner`, `Left` and `Full`: its right rows, which are marked as used, or the left
row alone. -/
def leftRowPairs (rowsMatch : Nat → Nat → Except Fault Bool) (kind : DataFrameJoin)
    (state : List RowPair × List Bool) (leftRow : Nat) : Except Fault (List RowPair × List Bool) := do
  let (pairs, used, found) ← (List.range state.2.length).foldlM (fun (pairs, used, found) rightRow => do
    if ← rowsMatch leftRow rightRow then
      return (pairs ++ [(some leftRow, some rightRow)], used.set rightRow true, true)
    else return (pairs, used, found)) (state.1, state.2, false)
  return if !found && kind != .inner then (pairs ++ [(some leftRow, none)], used) else (pairs, used)

def leftPairs (rowsMatch : Nat → Nat → Except Fault Bool) (kind : DataFrameJoin)
    (leftRows rightRows : Nat) : Except Fault (List RowPair) := do
  let (pairs, used) ← (List.range leftRows).foldlM (leftRowPairs rowsMatch kind)
    ([], List.replicate rightRows false)
  if kind = .full then
    return used.zipIdx.foldl (fun pairs (used, rightRow) =>
      if used then pairs else pairs ++ [(none, some rightRow)]) pairs
  else return pairs

def joinPairs (rowsMatch : Nat → Nat → Except Fault Bool) (kind : DataFrameJoin)
    (leftRows rightRows : Nat) : Except Fault (List RowPair) :=
  match kind with
  | .right => rightPairs rowsMatch leftRows rightRows
  | .inner | .left | .full => leftPairs rowsMatch kind leftRows rightRows

/-- A cell of an output column that comes from the left frame; only the key column takes a missing cell
from the other side. -/
def leftCell (right : DataFrameResource α) (rightKey : Nat) (config : DataFrameJoinConfig α)
    (isKey : Bool) (column : DataFrameColumn α) (pair : RowPair) : Except Fault α :=
  match pair with
  | (some row, _) => getAt column.values row
  | (none, some row) =>
    if isKey then do getAt (← getAt right.columns rightKey).values row else .ok config.notAvailable
  | (none, none) => .ok config.notAvailable

def rightCell (config : DataFrameJoinConfig α) (column : DataFrameColumn α) (pair : RowPair) :
    Except Fault α :=
  match pair.2 with
  | some row => getAt column.values row
  | none => .ok config.notAvailable

def joinedColumns (left right : DataFrameResource α) (config : DataFrameJoinConfig α)
    (leftKey rightKey : Nat) (pairs : List RowPair) : Except Fault (DataFrameResource α) := do
  let leftColumns ← left.columns.zipIdx.mapM fun (column, index) => do
    let values ← pairs.mapM (leftCell right rightKey config (index == leftKey) column)
    return { column with values }
  let rightColumns ← (right.columns.zipIdx.filter fun (_, index) => index != rightKey).mapM
    fun (column, _) => do
      let values ← pairs.mapM (rightCell config column)
      return { column with values }
  return { columns := leftColumns ++ rightColumns }

def joinDuplicate (left right : DataFrameResource α) (rightKey : Nat) :
    Option (DataFrameColumn α × Nat) :=
  right.columns.zipIdx.find? fun (column, index) =>
    index != rightKey && left.columns.any fun left => left.name == column.name

def joinDataframes (left right : DataFrameResource α) (config : DataFrameJoinConfig α) :
    Except Fault (DataFrameResource α) := do
  let some leftKey := left.columns.findIdx? fun column => column.name == config.leftLabel
    | throw (.failure (.keyColumnNotFound config.leftLabel "left"))
  let some rightKey := right.columns.findIdx? fun column => column.name == config.rightLabel
    | throw (.failure (.keyColumnNotFound config.rightLabel "right"))
  match joinDuplicate left right rightKey with
  | some (column, _) => throw (.failure (.duplicateColumn column.name))
  | none =>
    let pairs ← joinPairs (keysMatch left right config leftKey rightKey) config.kind
      left.rowCount right.rowCount
    joinedColumns left right config leftKey rightKey pairs

end BasicNext.Data

/-!
## Joins of well-formed frames

The loops of a join only collect pairs of rows that the two frames have, so that every cell of the output
is there; the names of the output are distinct because of the check before the loops.
-/

namespace BasicNext.Data

open BasicNext.Lib

variable {α : Type} {left right : DataFrameResource α}

/-! ### The pairs of rows -/

def InRange (leftRows rightRows : Nat) (pairs : List RowPair) : Prop :=
  ∀ pair ∈ pairs, (∀ row ∈ pair.1, row < leftRows) ∧ ∀ row ∈ pair.2, row < rightRows

section
variable {leftRows rightRows leftRow rightRow : Nat} {pairs : List RowPair} {kind : DataFrameJoin}
  {rowsMatch : Nat → Nat → Except Fault Bool}

theorem InRange.snoc {pair : RowPair} (inRange : InRange leftRows rightRows pairs)
    (leftRow : ∀ row ∈ pair.1, row < leftRows) (rightRow : ∀ row ∈ pair.2, row < rightRows) :
    InRange leftRows rightRows (pairs ++ [pair]) := by
  intro other member
  rcases List.mem_append.1 member with old | new
  · exact inRange other old
  · rw [List.mem_singleton.1 new]
    exact ⟨leftRow, rightRow⟩

theorem some_lt {row : Nat} (inside : row < leftRows) : ∀ row' ∈ some row, row' < leftRows := by
  rintro row' ⟨⟩
  exact inside

theorem none_lt : ∀ row ∈ (none : Option Nat), row < leftRows := fun _ member => nomatch member

variable (total : ∀ leftRow < leftRows, ∀ rightRow < rightRows,
  Ensures (fun _ => True) Fault.IsFailure (rowsMatch leftRow rightRow))
include total

theorem rightPairs_ensures :
    Ensures (InRange leftRows rightRows) Fault.IsFailure (rightPairs rowsMatch leftRows rightRows) := by
  refine Ensures.foldlM (fun _ member => absurd member List.not_mem_nil) fun pairs rightRow outer start => ?_
  have rightRow_lt := List.mem_range.1 outer
  refine Ensures.bind (Q := fun state => InRange leftRows rightRows state.1) ?_ fun state inRange => ?_
  · refine Ensures.foldlM start fun state leftRow inner inRange => ?_
    have leftRow_lt := List.mem_range.1 inner
    refine (total leftRow leftRow_lt rightRow rightRow_lt).bind fun matched _ => ?_
    cases matched with
    | true => exact inRange.snoc (some_lt leftRow_lt) (some_lt rightRow_lt)
    | false => exact inRange
  · obtain ⟨pairs, found⟩ := state
    cases found with
    | true => exact inRange
    | false => exact InRange.snoc inRange none_lt (some_lt rightRow_lt)

theorem leftRowPairs_ensures {state : List RowPair × List Bool}
    (start : InRange leftRows rightRows state.1 ∧ state.2.length = rightRows)
    (leftRow_lt : leftRow < leftRows) :
    Ensures (fun state => InRange leftRows rightRows state.1 ∧ state.2.length = rightRows)
      Fault.IsFailure (leftRowPairs rowsMatch kind state leftRow) := by
  refine Ensures.bind (Q := fun state => InRange leftRows rightRows state.1 ∧ state.2.1.length = rightRows)
    ?_ fun state kept => ?_
  · refine Ensures.foldlM start fun state rightRow inner kept => ?_
    have rightRow_lt : rightRow < rightRows := start.2 ▸ List.mem_range.1 inner
    refine (total leftRow leftRow_lt rightRow rightRow_lt).bind fun matched _ => ?_
    cases matched with
    | true => exact ⟨kept.1.snoc (some_lt leftRow_lt) (some_lt rightRow_lt), by simpa using kept.2⟩
    | false => exact kept
  · obtain ⟨pairs, used, found⟩ := state
    dsimp only
    split
    · exact ⟨InRange.snoc kept.1 (some_lt leftRow_lt) none_lt, kept.2⟩
    · exact kept

theorem leftPairs_ensures :
    Ensures (InRange leftRows rightRows) Fault.IsFailure
      (leftPairs rowsMatch kind leftRows rightRows) := by
  refine Ensures.bind
    (Q := fun state => InRange leftRows rightRows state.1 ∧ state.2.length = rightRows) ?_
    fun state kept => ?_
  · refine Ensures.foldlM ⟨fun _ member => absurd member List.not_mem_nil, List.length_replicate⟩
      fun state leftRow outer kept => ?_
    exact leftRowPairs_ensures total kept (List.mem_range.1 outer)
  · obtain ⟨pairs, used⟩ := state
    obtain ⟨inRange, length⟩ := kept
    dsimp only
    split
    · -- the right rows that no left row used
      refine List.foldlRecOn (motive := InRange leftRows rightRows) _ _ inRange fun pairs inRange entry member => ?_
      have rightRow_lt := List.snd_lt_of_mem_zipIdx member
      obtain ⟨marked, rightRow⟩ := entry
      cases marked with
      | true => exact inRange
      | false => exact inRange.snoc none_lt (some_lt (by simpa [← length] using rightRow_lt))
    · exact inRange

theorem joinPairs_ensures :
    Ensures (InRange leftRows rightRows) Fault.IsFailure
      (joinPairs rowsMatch kind leftRows rightRows) := by
  unfold joinPairs
  split
  · exact rightPairs_ensures total
  all_goals exact leftPairs_ensures total

end

/-! ### The output -/

theorem keysMatch_ensures (leftWell : left.WellFormed) (rightWell : right.WellFormed)
    {config : DataFrameJoinConfig α} {leftKey rightKey leftRow rightRow : Nat}
    (leftKey_lt : leftKey < left.columns.length) (rightKey_lt : rightKey < right.columns.length)
    (leftRow_lt : leftRow < left.rowCount) (rightRow_lt : rightRow < right.rowCount) :
    Ensures (fun _ => True) Fault.IsFailure
      (keysMatch left right config leftKey rightKey leftRow rightRow) := by
  refine (getAt_ensures leftKey_lt).bind fun leftColumn found => ?_
  rw [← leftWell.rows leftColumn found.1] at leftRow_lt
  refine (getAt_ensures leftRow_lt).bind fun leftValue _ => ?_
  refine (getAt_ensures rightKey_lt).bind fun rightColumn found => ?_
  rw [← rightWell.rows rightColumn found.1] at rightRow_lt
  exact (getAt_ensures rightRow_lt).bind fun rightValue _ => trivial

theorem leftCell_ensures (rightWell : right.WellFormed) {config : DataFrameJoinConfig α}
    {column : DataFrameColumn α} {rightKey : Nat} {isKey : Bool} {pair : RowPair}
    (rightKey_lt : rightKey < right.columns.length)
    (leftRows : ∀ row ∈ pair.1, row < column.values.length)
    (rightRows : ∀ row ∈ pair.2, row < right.rowCount) :
    Ensures (fun _ => True) Fault.IsFailure (leftCell right rightKey config isKey column pair) := by
  unfold leftCell
  split
  · next row _ => exact (getAt_ensures (leftRows row rfl)).mono fun _ _ => trivial
  · next row =>
    refine Ensures.ite (fun _ => ?_) fun _ => trivial
    refine (getAt_ensures rightKey_lt).bind fun rightColumn found => ?_
    have inside := rightRows row rfl
    rw [← rightWell.rows rightColumn found.1] at inside
    exact (getAt_ensures inside).mono fun _ _ => trivial
  · trivial

theorem rightCell_ensures {config : DataFrameJoinConfig α} {column : DataFrameColumn α} {pair : RowPair}
    (rightRows : ∀ row ∈ pair.2, row < column.values.length) :
    Ensures (fun _ => True) Fault.IsFailure (rightCell config column pair) := by
  unfold rightCell
  split
  · next row found => exact (getAt_ensures (rightRows row found)).mono fun _ _ => trivial
  · trivial

theorem joinedColumns_ensures (leftWell : left.WellFormed) (rightWell : right.WellFormed)
    {config : DataFrameJoinConfig α} {leftKey rightKey : Nat} {pairs : List RowPair}
    (rightKey_lt : rightKey < right.columns.length)
    (distinct : joinDuplicate left right rightKey = none)
    (inRange : InRange left.rowCount right.rowCount pairs) :
    Ensures DataFrameResource.WellFormed Fault.IsFailure
      (joinedColumns left right config leftKey rightKey pairs) := by
  refine (mapM_columns (fun entry => entry.1.name) pairs.length fun entry member => ?_).bind
    fun leftColumns fromLeft => ?_
  · have inLeft := List.fst_mem_of_mem_zipIdx member
    refine (mapM_length fun pair inPairs => ?_).bind fun values length => ⟨rfl, length⟩
    obtain ⟨leftRows, rightRows⟩ := inRange pair inPairs
    rw [← leftWell.rows _ inLeft] at leftRows
    exact leftCell_ensures rightWell rightKey_lt leftRows rightRows
  refine (mapM_columns (fun entry => entry.1.name) pairs.length fun entry member => ?_).bind
    fun rightColumns fromRight => ?_
  · have inRight := List.fst_mem_of_mem_zipIdx (List.mem_filter.1 member).1
    refine (mapM_length fun pair inPairs => ?_).bind fun values length => ⟨rfl, length⟩
    have rightRows := (inRange pair inPairs).2
    rw [← rightWell.rows _ inRight] at rightRows
    exact rightCell_ensures rightRows
  · obtain ⟨leftNames, leftLengths⟩ := fromLeft
    obtain ⟨rightNames, rightLengths⟩ := fromRight
    have lengths : ∀ column ∈ leftColumns ++ rightColumns, column.values.length = pairs.length :=
      fun column member => (List.mem_append.1 member).elim (leftLengths column) (rightLengths column)
    refine wellFormed_of_length lengths ?_
    have left_eq : left.columns.zipIdx.map (fun entry => entry.1.name) = left.names := by
      show _ = left.columns.map DataFrameColumn.name
      conv_rhs => rw [← List.zipIdx_map_fst 0 left.columns, List.map_map]
      rfl
    have right_eq : right.columns.zipIdx.map (fun entry => entry.1.name) = right.names := by
      show _ = right.columns.map DataFrameColumn.name
      conv_rhs => rw [← List.zipIdx_map_fst 0 right.columns, List.map_map]
      rfl
    rw [List.map_append, leftNames, rightNames, left_eq, List.nodup_append]
    refine ⟨leftWell.names, ?_, ?_⟩
    · exact (right_eq ▸ rightWell.names).sublist (List.filter_sublist.map _)
    · rintro name inLeft _ inRight rfl
      obtain ⟨entry, kept, same⟩ := List.mem_map.1 inRight
      obtain ⟨inZip, notKey⟩ := List.mem_filter.1 kept
      have unique := List.find?_eq_none.1 distinct entry inZip
      obtain ⟨column, inColumns, named⟩ := List.mem_map.1 inLeft
      refine unique (Bool.and_eq_true_iff.2 ⟨notKey, List.any_eq_true.2 ⟨column, inColumns, ?_⟩⟩)
      rw [named, same]
      exact beq_self_eq_true name

theorem joinDataframes_ensures (leftWell : left.WellFormed) (rightWell : right.WellFormed)
    (config : DataFrameJoinConfig α) :
    Ensures DataFrameResource.WellFormed Fault.IsFailure (joinDataframes left right config) := by
  unfold joinDataframes
  split
  · next leftKey leftFound =>
    have leftKey_lt := (List.findIdx?_eq_some_iff_getElem.1 leftFound).1
    split
    · next rightKey rightFound =>
      have rightKey_lt := (List.findIdx?_eq_some_iff_getElem.1 rightFound).1
      split
      · exact isFailure_failure _
      · next distinct =>
        refine (joinPairs_ensures fun leftRow leftRow_lt rightRow rightRow_lt => ?_).bind
          fun pairs inRange => joinedColumns_ensures leftWell rightWell rightKey_lt distinct inRange
        exact keysMatch_ensures leftWell rightWell leftKey_lt rightKey_lt leftRow_lt rightRow_lt
    · exact isFailure_failure _
  · exact isFailure_failure _

end BasicNext.Data
