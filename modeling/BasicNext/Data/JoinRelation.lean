import BasicNext.Data.Join
import BasicNext.Lib.Matching
import Mathlib.Data.Multiset.Range

/-!
# The rows of a join

A join that succeeds has the rows of the relational join: one for each pair of rows whose keys are there and equal, and
in the outer joins one for each row of a preserved side without a match, as often as the frames have them. The loops of
the source go row by row over one side and mark what they use of the other; the reference filters the product.
-/

namespace BasicNext.Data

open Lib

variable {α : Type} {left right result : DataFrameResource α} {config : DataFrameJoinConfig α} {leftKey rightKey : Nat}

/-! ### The reference -/

namespace DataFrameResource

def row (frame : DataFrameResource α) (position : Nat) : List (Option α) :=
  frame.columns.map fun column => column.values[position]?

/-- The rows, by the length of the first column. -/
def rows (frame : DataFrameResource α) : List (List (Option α)) := (List.range frame.rowCount).map frame.row

def cell (frame : DataFrameResource α) (column position : Nat) : Option α :=
  frame.columns[column]?.bind fun column => column.values[position]?

/-- The columns but one. -/
def without (frame : DataFrameResource α) (column : Nat) : DataFrameResource α :=
  { columns := frame.columns.eraseIdx column }

end DataFrameResource

/-- The keys of the rows are both there, not missing, and equal. -/
def RowsJoin (left right : DataFrameResource α) (config : DataFrameJoinConfig α) (leftKey rightKey leftRow rightRow : Nat) :
    Bool :=
  match left.cell leftKey leftRow, right.cell rightKey rightRow with
  | some leftValue, some rightValue =>
    !config.isNotAvailable leftValue && !config.isNotAvailable rightValue && config.equals leftValue rightValue
  | _, _ => false

/-- The kinds that keep the left rows without a match. -/
def DataFrameJoin.KeepsLeft (kind : DataFrameJoin) : Bool := kind == .left || kind == .full

def DataFrameJoin.KeepsRight (kind : DataFrameJoin) : Bool := kind == .right || kind == .full

def pairRow (left right : DataFrameResource α) (rightKey leftRow rightRow : Nat) : List (Option α) :=
  left.row leftRow ++ (right.without rightKey).row rightRow

def leftAloneRow (left right : DataFrameResource α) (config : DataFrameJoinConfig α) (rightKey leftRow : Nat) :
    List (Option α) :=
  left.row leftRow ++ (right.without rightKey).columns.map fun _ => some config.notAvailable

def rightAloneRow (left right : DataFrameResource α) (config : DataFrameJoinConfig α) (leftKey rightKey rightRow : Nat) :
    List (Option α) :=
  (left.columns.map fun _ => some config.notAvailable).set leftKey (right.cell rightKey rightRow)
    ++ (right.without rightKey).row rightRow

def relationalJoin (left right : DataFrameResource α) (config : DataFrameJoinConfig α) (leftKey rightKey : Nat) :
    Multiset (List (Option α)) :=
  let leftRows := Multiset.range left.rowCount
  let rightRows := Multiset.range right.rowCount
  let joins := RowsJoin left right config leftKey rightKey
  (matched joins leftRows rightRows).map (fun pair => pairRow left right rightKey pair.1 pair.2)
    + (if config.kind.KeepsLeft then (leftAlone joins leftRows rightRows).map (leftAloneRow left right config rightKey)
      else 0)
    + (if config.kind.KeepsRight then
        (rightAlone joins leftRows rightRows).map (rightAloneRow left right config leftKey rightKey)
      else 0)

/-! ### The loops -/

section
variable {rowsMatch : Nat → Nat → Except Fault Bool} {holds : Nat → Nat → Bool} {kind : DataFrameJoin}
  {leftRows rightRows : Nat} {pairs : List RowPair}

theorem foldl_matches (pair : Nat → RowPair) {test : Nat → Bool} {others : List Nat} {found : Bool} :
    others.foldl (fun state other => if test other then (state.1 ++ [pair other], true) else state) (pairs, found) =
      (pairs ++ (others.filter test).map pair, found || others.any test) := by
  induction others generalizing pairs found with
  | nil => simp
  | cons other others ih =>
    rw [List.foldl_cons]
    by_cases here : test other
    · simp [here, ih]
    · simp [here, ih]

/-- Marks of the right rows, given by a function of the row. -/
def marks (rightRows : Nat) (used : Nat → Bool) : List Bool := (List.range rightRows).map used

theorem marks_set {used : Nat → Bool} {rightRow : Nat} :
    (marks rightRows used).set rightRow true = marks rightRows fun row => used row || row == rightRow := by
  unfold marks
  refine List.ext_getElem (by simp) fun row bound _ => ?_
  by_cases same : rightRow = row
  · simp [same]
  · simp [same, Ne.symm same]

theorem marks_congr {used used' : Nat → Bool} (same : ∀ row < rightRows, used row = used' row) :
    marks rightRows used = marks rightRows used' :=
  List.map_congr_left fun row member => same row (List.mem_range.1 member)

theorem foldl_marks (pair : Nat → RowPair) {test used : Nat → Bool} {others : List Nat} {found : Bool} :
    others.foldl (fun state other =>
        if test other then (state.1 ++ [pair other], state.2.1.set other true, true) else state)
      (pairs, marks rightRows used, found) =
      (pairs ++ (others.filter test).map pair,
        marks rightRows fun row => used row || others.any fun other => test other && row == other,
        found || others.any test) := by
  induction others generalizing pairs found used with
  | nil => simp
  | cons other others ih =>
    rw [List.foldl_cons]
    by_cases here : test other
    · simp [here, marks_set, ih, Bool.or_assoc]
    · simp [here, ih]

def pairsOfRight (holds : Nat → Nat → Bool) (leftRows rightRow : Nat) : List RowPair :=
  ((List.range leftRows).filter fun leftRow => holds leftRow rightRow).map (fun leftRow => (some leftRow, some rightRow))
    ++ if (List.range leftRows).any (fun leftRow => holds leftRow rightRow) then [] else [(none, some rightRow)]

def pairsOfLeft (holds : Nat → Nat → Bool) (kind : DataFrameJoin) (rightRows leftRow : Nat) : List RowPair :=
  ((List.range rightRows).filter (holds leftRow)).map (fun rightRow => (some leftRow, some rightRow))
    ++ if (List.range rightRows).any (holds leftRow) || kind == .inner then [] else [(some leftRow, none)]

variable (answers : ∀ leftRow rightRow answer, rowsMatch leftRow rightRow = .ok answer → answer = holds leftRow rightRow)
include answers

theorem rightPairs_eq (h : rightPairs rowsMatch leftRows rightRows = .ok pairs) :
    pairs = (List.range rightRows).flatMap (pairsOfRight holds leftRows) := by
  unfold rightPairs at h
  have loop := foldlM_eq_foldl (g := fun pairs rightRow => pairs ++ pairsOfRight holds leftRows rightRow) ?_ h
  · rw [loop, List.foldl_append_eq_append, List.nil_append, List.flatMap_def]
  intro pairs rightRow next _ step
  obtain ⟨state, inner, step⟩ := bind_eq_ok.1 step
  have loop := foldlM_eq_foldl (g := fun state leftRow =>
    if holds leftRow rightRow then (state.1 ++ [(some leftRow, some rightRow)], true) else state) ?_ inner
  · rw [foldl_matches fun leftRow => (some leftRow, some rightRow), Bool.false_or] at loop
    subst loop
    obtain rfl := pure_eq_ok.1 step
    unfold pairsOfRight
    by_cases found : (List.range leftRows).any fun leftRow => holds leftRow rightRow
    · simp only [found, if_true, List.append_nil]
    · simp only [found, Bool.false_eq_true, if_false, List.append_assoc]
  · intro state leftRow next _ step
    obtain ⟨answer, matched, step⟩ := bind_eq_ok.1 step
    obtain rfl := answers leftRow rightRow answer matched
    split at step
    · next holds => rw [if_pos holds, ← pure_eq_ok.1 step]
    · next holds => rw [if_neg holds, ← pure_eq_ok.1 step]

theorem leftRowPairs_eq {used : Nat → Bool} {leftRow : Nat} {next : List RowPair × List Bool}
    (h : leftRowPairs rowsMatch kind (pairs, marks rightRows used) leftRow = .ok next) :
    next = (pairs ++ pairsOfLeft holds kind rightRows leftRow, marks rightRows fun row => used row || holds leftRow row) := by
  obtain ⟨state, inner, step⟩ := bind_eq_ok.1 h
  have length : (marks rightRows used).length = rightRows := by simp [marks]
  have loop := foldlM_eq_foldl (g := fun state rightRow =>
    if holds leftRow rightRow then (state.1 ++ [(some leftRow, some rightRow)], state.2.1.set rightRow true, true)
    else state) ?_ inner
  · rw [length, foldl_marks fun rightRow => (some leftRow, some rightRow), Bool.false_or] at loop
    subst loop
    have marked : (marks rightRows fun row => used row || (List.range rightRows).any fun other =>
        holds leftRow other && row == other) = marks rightRows fun row => used row || holds leftRow row := by
      refine marks_congr fun row bound => congrArg _ ?_
      rw [Bool.eq_iff_iff]
      simp [bound]
    rw [← marked]
    obtain rfl := pure_eq_ok.1 step
    unfold pairsOfLeft
    by_cases alone : (List.range rightRows).any (holds leftRow) || kind == .inner
    · have kept : (!(List.range rightRows).any (holds leftRow) && kind != .inner) = false := by
        rw [bne, ← Bool.not_or, alone]
        rfl
      simp only [kept, alone, Bool.false_eq_true, if_false, if_true, List.append_nil]
    · have kept : (!(List.range rightRows).any (holds leftRow) && kind != .inner) = true := by
        rw [bne, ← Bool.not_or, Bool.eq_false_of_not_eq_true alone]
        rfl
      simp only [kept, alone, Bool.false_eq_true, if_false, if_true, List.append_assoc]
  · intro state rightRow next _ step
    obtain ⟨answer, matched, step⟩ := bind_eq_ok.1 step
    obtain rfl := answers leftRow rightRow answer matched
    split at step
    · next holds => rw [if_pos holds, ← pure_eq_ok.1 step]
    · next holds => rw [if_neg holds, ← pure_eq_ok.1 step]

theorem leftRows_eq {used : Nat → Bool} {rows : List Nat} {final : List RowPair × List Bool}
    (h : rows.foldlM (leftRowPairs rowsMatch kind) (pairs, marks rightRows used) = .ok final) :
    final = (pairs ++ rows.flatMap (pairsOfLeft holds kind rightRows),
      marks rightRows fun row => used row || rows.any fun leftRow => holds leftRow row) := by
  induction rows generalizing pairs used with
  | nil => simpa [pure_eq_ok] using (pure_eq_ok.1 h).symm
  | cons leftRow rows ih =>
    obtain ⟨next, first, rest⟩ := foldlM_cons_eq_ok.1 h
    obtain rfl := leftRowPairs_eq answers first
    rw [ih rest]
    simp [Bool.or_assoc]

omit answers in
theorem unused_eq {used : Nat → Bool} : (marks rightRows used).zipIdx.foldl (fun pairs (used, rightRow) =>
      if used then pairs else pairs ++ [(none, some rightRow)]) pairs =
      pairs ++ ((List.range rightRows).filter fun row => !used row).map fun row => (none, some row) := by
  have zipped : (marks rightRows used).zipIdx = (List.range rightRows).map fun row => (used row, row) := by
    refine List.ext_getElem (by simp [marks]) fun row bound _ => ?_
    simp [marks]
  rw [zipped, List.foldl_map]
  generalize List.range rightRows = rows
  induction rows generalizing pairs with
  | nil => simp
  | cons row rows ih =>
    rw [List.foldl_cons, ih]
    cases mark : used row with
    | true => simp [mark]
    | false => simp [mark]

theorem leftPairs_eq (h : leftPairs rowsMatch kind leftRows rightRows = .ok pairs) :
    pairs = (List.range leftRows).flatMap (pairsOfLeft holds kind rightRows) ++ if kind = .full then
        ((List.range rightRows).filter fun row => !(List.range leftRows).any fun leftRow => holds leftRow row).map
          fun row => (none, some row)
      else [] := by
  obtain ⟨final, loop, step⟩ := bind_eq_ok.1 h
  have none : List.replicate rightRows false = marks rightRows fun _ => false := by simp [marks, List.map_const']
  rw [none] at loop
  obtain rfl := leftRows_eq answers loop
  simp only [List.nil_append, Bool.false_or] at step
  split at step
  · next full =>
    rw [if_pos full, ← pure_eq_ok.1 step, unused_eq]
  · next other => rw [if_neg other, ← pure_eq_ok.1 step, List.append_nil]

omit answers in
theorem coe_pairsOfRight : (↑((List.range rightRows).flatMap (pairsOfRight holds leftRows)) : Multiset RowPair) =
    (matched holds (Multiset.range leftRows) (Multiset.range rightRows)).map (fun pair => (some pair.1, some pair.2))
      + (rightAlone holds (Multiset.range leftRows) (Multiset.range rightRows)).map fun row => (none, some row) := by
  unfold pairsOfRight
  rw [← Multiset.coe_eq_coe.2 (List.flatMap_append_perm _ _ _), ← Multiset.coe_add]
  congr 1
  · exact coe_flatMap_right _ _ fun pair : Nat × Nat => (some pair.1, some pair.2)
  · rw [flatMap_ite, Multiset.range, Multiset.range, coe_rightAlone, Multiset.map_coe]

omit answers in
theorem coe_pairsOfLeft : (↑((List.range leftRows).flatMap (pairsOfLeft holds kind rightRows)) : Multiset RowPair) =
    (matched holds (Multiset.range leftRows) (Multiset.range rightRows)).map (fun pair => (some pair.1, some pair.2))
      + if kind == .inner then 0 else
        (leftAlone holds (Multiset.range leftRows) (Multiset.range rightRows)).map fun row => (some row, none) := by
  unfold pairsOfLeft
  rw [← Multiset.coe_eq_coe.2 (List.flatMap_append_perm _ _ _), ← Multiset.coe_add]
  congr 1
  · exact coe_flatMap_left _ _ fun pair : Nat × Nat => (some pair.1, some pair.2)
  · rw [flatMap_ite, Multiset.range, Multiset.range, coe_leftAlone, Multiset.map_coe]
    cases inner : kind == .inner with
    | true => simp
    | false => simp

theorem joinPairs_coe (h : joinPairs rowsMatch kind leftRows rightRows = .ok pairs) : (pairs : Multiset RowPair) =
      (matched holds (Multiset.range leftRows) (Multiset.range rightRows)).map (fun pair => (some pair.1, some pair.2))
      + (if kind.KeepsLeft then
          (leftAlone holds (Multiset.range leftRows) (Multiset.range rightRows)).map fun row => (some row, none) else 0)
      + (if kind.KeepsRight then
          (rightAlone holds (Multiset.range leftRows) (Multiset.range rightRows)).map fun row => (none, some row) else 0) := by
  cases kind with
  | right =>
    rw [rightPairs_eq answers h, coe_pairsOfRight]
    simp [DataFrameJoin.KeepsLeft, DataFrameJoin.KeepsRight]
  | inner =>
    rw [leftPairs_eq answers h, if_neg (by simp), List.append_nil, coe_pairsOfLeft]
    simp [DataFrameJoin.KeepsLeft, DataFrameJoin.KeepsRight]
  | left =>
    rw [leftPairs_eq answers h, if_neg (by simp), List.append_nil, coe_pairsOfLeft]
    simp [DataFrameJoin.KeepsLeft, DataFrameJoin.KeepsRight]
  | full =>
    rw [leftPairs_eq answers h, if_pos rfl, ← Multiset.coe_add, coe_pairsOfLeft, Multiset.range, Multiset.range,
      coe_rightAlone, Multiset.map_coe]
    simp [DataFrameJoin.KeepsLeft, DataFrameJoin.KeepsRight]

end

/-! ### The columns -/

theorem getAt_toOption {β : Type} {xs : List β} {position : Nat} : (getAt xs position).toOption = xs[position]? := by
  unfold getAt
  cases xs[position]? <;> rfl

theorem keysMatch_eq (leftRow rightRow : Nat) (answer : Bool)
    (h : keysMatch left right config leftKey rightKey leftRow rightRow = .ok answer) :
    answer = RowsJoin left right config leftKey rightKey leftRow rightRow := by
  have found {β : Type} {xs : List β} {position : Nat} {x : β} (h : getAt xs position = .ok x) : xs[position]? = some x := by
    rw [← getAt_toOption, h]
    rfl
  obtain ⟨leftColumn, leftFound, h⟩ := bind_eq_ok.1 h
  obtain ⟨leftValue, leftCell, h⟩ := bind_eq_ok.1 h
  obtain ⟨rightColumn, rightFound, h⟩ := bind_eq_ok.1 h
  obtain ⟨rightValue, rightCell, h⟩ := bind_eq_ok.1 h
  obtain rfl := pure_eq_ok.1 h
  unfold RowsJoin DataFrameResource.cell
  simp only [found leftFound, found leftCell, found rightFound, found rightCell, Option.bind_some]

def outputRow (left right : DataFrameResource α) (config : DataFrameJoinConfig α) (leftKey rightKey : Nat) (pair : RowPair) :
    List (Option α) :=
  (left.columns.zipIdx.map fun (column, index) =>
      (leftCell right rightKey config (index == leftKey) column pair).toOption)
    ++ (right.without rightKey).columns.map fun column => (rightCell config column pair).toOption

theorem zipIdx_filter_ne {β : Type} (xs : List β) (start key : Nat) :
    ((xs.zipIdx start).filter fun (_, index) => index != start + key).map Prod.fst = xs.eraseIdx key := by
  induction xs generalizing start key with
  | nil => rfl
  | cons x xs ih =>
    rw [List.zipIdx_cons]
    cases key with
    | zero =>
      have later : (xs.zipIdx (start + 1)).filter (fun (_, index) => index != start + 0) = xs.zipIdx (start + 1) := by
        refine List.filter_eq_self.2 fun entry member => ?_
        have := List.le_snd_of_mem_zipIdx member
        simp only [bne_iff_ne]
        omega
      rw [List.filter_cons_of_neg (by simp), later, List.zipIdx_map_fst, List.eraseIdx_zero, List.tail_cons]
    | succ key =>
      have next := ih (start + 1) key
      rw [Nat.add_right_comm start 1 key] at next
      rw [List.filter_cons_of_pos (by simp), List.map_cons, List.eraseIdx_cons_succ, ← next]
      rfl

theorem mapM_pairs {β : Type} (name : β → String) (cell : β → RowPair → Except Fault α) {entries : List β}
    {pairs : List RowPair} {columns : List (DataFrameColumn α)}
    (h : (entries.mapM fun entry => do
      let values ← pairs.mapM (cell entry)
      return { name := name entry, values }) = Except.ok columns) :
    columns.map DataFrameColumn.name = entries.map name ∧ (∀ column ∈ columns, column.values.length = pairs.length) ∧
      ∀ position (bound : position < pairs.length), (columns.map fun column => column.values[position]?) =
        entries.map fun entry => (cell entry pairs[position]).toOption := by
  induction entries generalizing columns with
  | nil =>
    rw [List.mapM_nil, pure_eq_ok] at h
    subst h
    simp
  | cons entry entries ih =>
    rw [List.mapM_cons, bind_eq_ok] at h
    obtain ⟨first, here, h⟩ := h
    obtain ⟨values, filled, here⟩ := bind_eq_ok.1 here
    obtain rfl := pure_eq_ok.1 here
    obtain ⟨others, rest, h⟩ := bind_eq_ok.1 h
    obtain rfl := pure_eq_ok.1 h
    obtain ⟨names, lengths, cells⟩ := ih rest
    refine ⟨by simp [names], List.forall_mem_cons.2 ⟨length_mapM filled, lengths⟩, fun position bound => ?_⟩
    rw [List.map_cons, List.map_cons, cells position bound, getElem?_mapM filled position, List.getElem?_eq_getElem bound]
    rfl

theorem joinedColumns_rows {pairs : List RowPair} (some : left.columns ≠ [])
    (h : joinedColumns left right config leftKey rightKey pairs = .ok result) :
    result.names = left.names ++ (right.without rightKey).names ∧
      (∀ column ∈ result.columns, column.values.length = pairs.length) ∧
        result.rows = pairs.map (outputRow left right config leftKey rightKey) := by
  obtain ⟨leftColumns, fromLeft, h⟩ := bind_eq_ok.1 h
  obtain ⟨rightColumns, fromRight, h⟩ := bind_eq_ok.1 h
  obtain rfl := pure_eq_ok.1 h
  obtain ⟨leftNames, leftLengths, leftCells⟩ := mapM_pairs (fun entry : DataFrameColumn α × Nat => entry.1.name)
    (fun entry => leftCell right rightKey config (entry.2 == leftKey) entry.1) fromLeft
  obtain ⟨rightNames, rightLengths, rightCells⟩ := mapM_pairs (fun entry : DataFrameColumn α × Nat => entry.1.name)
    (fun entry => rightCell config entry.1) fromRight
  have erased := zipIdx_filter_ne right.columns 0 rightKey
  rw [Nat.zero_add] at erased
  have lengths : ∀ column ∈ leftColumns ++ rightColumns, column.values.length = pairs.length :=
    fun column member => (List.mem_append.1 member).elim (leftLengths column) (rightLengths column)
  have count : DataFrameResource.rowCount { columns := leftColumns ++ rightColumns } = pairs.length := by
    cases columns : leftColumns with
    | nil =>
      rw [columns, List.map_nil, eq_comm, List.map_eq_nil_iff, List.zipIdx_eq_nil_iff] at leftNames
      exact absurd leftNames some
    | cons first others => exact lengths first (by simp [columns])
  refine ⟨?_, lengths, ?_⟩
  · unfold DataFrameResource.names DataFrameResource.without
    rw [List.map_append, leftNames, rightNames, ← erased, List.map_map]
    conv_rhs => rw [← List.zipIdx_map_fst 0 left.columns, List.map_map]
    rfl
  · unfold DataFrameResource.rows outputRow DataFrameResource.row DataFrameResource.without
    rw [count, ← erased]
    refine List.ext_getElem (by simp) fun position bound bound' => ?_
    rw [List.length_map] at bound'
    rw [List.getElem_map, List.getElem_map, List.getElem_range, List.map_append, leftCells position bound',
      rightCells position bound', List.map_map]
    rfl

/-! ### The rows -/

theorem outputRow_pair (leftRow rightRow : Nat) :
    outputRow left right config leftKey rightKey (some leftRow, some rightRow) = pairRow left right rightKey leftRow rightRow := by
  unfold outputRow pairRow DataFrameResource.row
  conv_rhs => rw [← List.zipIdx_map_fst 0 left.columns, List.map_map]
  simp only [leftCell, rightCell, getAt_toOption]
  rfl

theorem outputRow_left (leftRow : Nat) :
    outputRow left right config leftKey rightKey (some leftRow, none) = leftAloneRow left right config rightKey leftRow := by
  unfold outputRow leftAloneRow DataFrameResource.row
  conv_rhs => rw [← List.zipIdx_map_fst 0 left.columns, List.map_map]
  simp only [leftCell, rightCell, getAt_toOption]
  rfl

theorem outputRow_right (rightRow : Nat) :
    outputRow left right config leftKey rightKey (none, some rightRow) =
      rightAloneRow left right config leftKey rightKey rightRow := by
  unfold outputRow rightAloneRow DataFrameResource.row
  simp only [leftCell, rightCell, getAt_toOption]
  refine congrArg (· ++ _) (List.ext_getElem (by simp) fun index bound bound' => ?_)
  rw [List.getElem_map, List.getElem_zipIdx, List.getElem_set, Nat.zero_add]
  have key : (do getAt (← getAt right.columns rightKey).values rightRow).toOption = right.cell rightKey rightRow := by
    unfold DataFrameResource.cell
    rw [← getAt_toOption]
    cases getAt right.columns rightKey with
    | error fault => rfl
    | ok column => exact getAt_toOption
  by_cases isKey : leftKey = index
  · simp only [isKey, beq_self_eq_true, if_true, key]
  · simp only [isKey, beq_eq_false_iff_ne.2 (Ne.symm isKey), Bool.false_eq_true, if_false, List.getElem_map]
    rfl

/-- A join that succeeds has the columns of the left frame and those of the right one but its key, and the rows of the
relational join. -/
theorem joinDataframes_relational (joined : joinDataframes left right config = .ok result) :
    ∃ leftKey rightKey, left.columns.findIdx? (fun column => column.name == config.leftLabel) = some leftKey ∧
      right.columns.findIdx? (fun column => column.name == config.rightLabel) = some rightKey ∧
      result.names = left.names ++ (right.without rightKey).names ∧
      (∀ column ∈ result.columns, column.values.length = result.rowCount) ∧
      (result.rows : Multiset (List (Option α))) = relationalJoin left right config leftKey rightKey := by
  unfold joinDataframes at joined
  split at joined
  · next leftKey leftFound =>
    split at joined
    · next rightKey rightFound =>
      split at joined
      · cases joined
      · obtain ⟨pairs, loops, columns⟩ := bind_eq_ok.1 joined
        have some : left.columns ≠ [] := by
          intro none
          simp [none] at leftFound
        obtain ⟨names, lengths, rows⟩ := joinedColumns_rows some columns
        refine ⟨leftKey, rightKey, leftFound, rightFound, names, ?_, ?_⟩
        · have count : result.rowCount = pairs.length := by
            have same := congrArg List.length rows
            simpa [DataFrameResource.rows] using same
          rwa [count]
        · rw [rows, ← Multiset.map_coe, joinPairs_coe keysMatch_eq loops, Multiset.map_add, Multiset.map_add,
            Multiset.map_map]
          unfold relationalJoin
          congr 1
          · congr 1
            · exact Multiset.map_congr rfl fun pair _ => outputRow_pair pair.1 pair.2
            · split
              · rw [Multiset.map_map]
                exact Multiset.map_congr rfl fun row _ => outputRow_left row
              · rfl
          · split
            · rw [Multiset.map_map]
              exact Multiset.map_congr rfl fun row _ => outputRow_right row
            · rfl
    · cases joined
  · cases joined

/-- A full join of two columns of numbers, zero for a missing one: a key twice on the left, keys of one side only, and
missing keys, which match nothing. -/
theorem joinDataframes_relational_full :
    let left : DataFrameResource Nat := { columns := [⟨"id", [1, 1, 0, 2]⟩, ⟨"name", [10, 11, 12, 13]⟩] }
    let right : DataFrameResource Nat := { columns := [⟨"code", [0, 1, 3]⟩, ⟨"size", [20, 21, 22]⟩] }
    let config : DataFrameJoinConfig Nat := ⟨"id", "code", .full, (· == ·), (· == 0), 0⟩
    let result : DataFrameResource Nat := { columns := [⟨"id", [1, 1, 0, 2, 0, 3]⟩, ⟨"name", [10, 11, 12, 13, 0, 0]⟩,
      ⟨"size", [21, 21, 0, 0, 20, 22]⟩] }
    joinDataframes left right config = .ok result ∧
      ∃ leftKey rightKey, left.columns.findIdx? (fun column => column.name == config.leftLabel) = some leftKey ∧
        right.columns.findIdx? (fun column => column.name == config.rightLabel) = some rightKey ∧
        result.names = left.names ++ (right.without rightKey).names ∧
        (∀ column ∈ result.columns, column.values.length = result.rowCount) ∧
        (result.rows : Multiset (List (Option Nat))) = relationalJoin left right config leftKey rightKey := by
  intro left right config result
  have joined : joinDataframes left right config = .ok result := by decide
  exact ⟨joined, joinDataframes_relational joined⟩

end BasicNext.Data
