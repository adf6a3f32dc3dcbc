import BasicNext.Data.Join
import Mathlib.Data.Fintype.EquivFin

/-!
# The operations on data frames

Every operation on well-formed frames keeps the same promise. None of them looks for a name that a frame
already has twice, or for a column of another length, so that a frame which is not well formed spoils
what is made from it.
-/

namespace BasicNext.Data

open BasicNext.Lib

variable {α : Type} {frame : DataFrameResource α}

/-- An operation on a receiver, with its arguments. -/
inductive Operation (α : Type) where
  | select (rowIndices columnIndices : List Int)
  | appendRows (other : DataFrameResource α) (isNotAvailable : α → Bool) (sameType : α → α → Bool)
  | appendColumns (other : DataFrameResource α)
  | addColumn (name : String) (values : List α)
  | setColumnLabel (oldLabel newLabel : String)
  | transpose (render : α → String) (makeString : String → α)
  | join (other : DataFrameResource α) (config : DataFrameJoinConfig α)
  | convert (name : String) (converter : α → Except DataFailure α)
  | slice (reserves : Nat → Bool) (startRow rowCount startColumn columnCount : Int)
  | drop (isNotAvailable : α → Bool)
  | fill (name : String) (value : Float) (cells : FillCells α)
  /-- A new frame from CSV rows, which has no receiver. -/
  | readCsv (rows : List (List String)) (hasHeader : Bool) (value : String → α)

namespace Operation

/-- The receiver after the operation, and its result: a fault, a new frame, or nothing. -/
def run (frame : DataFrameResource α) :
    Operation α → DataFrameResource α × Except Fault (Option (DataFrameResource α))
  | .select rowIndices columnIndices =>
    (frame, (selectDataframe frame rowIndices columnIndices).map some)
  | .appendRows other isNotAvailable sameType =>
    (frame, (Data.appendRows frame other isNotAvailable sameType).map some)
  | .appendColumns other => (frame, (Data.appendColumns frame other).map some)
  | .addColumn name values => (addDataframeColumn frame name values).map id (·.map fun _ => none)
  | .setColumnLabel oldLabel newLabel =>
    (Data.setColumnLabel frame oldLabel newLabel).map id (·.map fun _ => none)
  | .transpose render makeString => (frame, (transposeDataframe frame render makeString).map some)
  | .join other config => (frame, (joinDataframes frame other config).map some)
  | .convert name converter =>
    (convertDataframeColumn frame name converter).map id (·.map fun _ => none)
  | .slice reserves startRow rowCount startColumn columnCount =>
    (frame, (sliceDataframe reserves frame startRow rowCount startColumn columnCount).map some)
  | .drop isNotAvailable => (frame, (dropNotAvailable frame isNotAvailable).map some)
  | .fill name value cells => (fillNotAvailable frame name value cells).map id (·.map fun _ => none)
  | .readCsv rows hasHeader value => (frame, (frameFromCsvRows rows hasHeader value).map some)

/-- The frame that is given beside the receiver. -/
def other : Operation α → Option (DataFrameResource α)
  | .appendRows other _ _ | .appendColumns other | .join other _ => some other
  | _ => none

/-- The operation keeps its promise: an error leaves the receiver as it was, a success yields a
well-formed frame, and no index is out of range. -/
def Keeps (frame : DataFrameResource α) (operation : Operation α) : Prop :=
  match operation.run frame with
  | (after, .error fault) => after = frame ∧ fault.IsFailure
  | (after, .ok none) => after.WellFormed
  | (after, .ok (some result)) => after = frame ∧ result.WellFormed

theorem keeps_of_ensures {result : Except Fault (DataFrameResource α)}
    (ensures : Ensures DataFrameResource.WellFormed Fault.IsFailure result) :
    match ((frame, result.map some) :
        DataFrameResource α × Except Fault (Option (DataFrameResource α))) with
    | (after, .error fault) => after = frame ∧ fault.IsFailure
    | (after, .ok none) => after.WellFormed
    | (after, .ok (some result)) => after = frame ∧ result.WellFormed := by
  cases result with
  | ok result => exact ⟨rfl, ensures⟩
  | error fault => exact ⟨rfl, ensures⟩

theorem keeps_of_inPlace {outcome : DataFrameResource α × Except Fault Unit} (keeps : KeepsInPlace frame outcome) :
    match (outcome.map id (·.map fun _ => none) :
        DataFrameResource α × Except Fault (Option (DataFrameResource α))) with
    | (after, .error fault) => after = frame ∧ fault.IsFailure
    | (after, .ok none) => after.WellFormed
    | (after, .ok (some result)) => after = frame ∧ result.WellFormed := by
  obtain ⟨after, result⟩ := outcome
  cases result with
  | ok => exact keeps
  | error fault => exact keeps

theorem keeps_of_wellFormed {operation : Operation α} (wellFormed : frame.WellFormed)
    (others : ∀ other ∈ operation.other, other.WellFormed) : operation.Keeps frame := by
  cases operation with
  | select rowIndices columnIndices =>
    exact keeps_of_ensures (selectDataframe_ensures wellFormed rowIndices columnIndices)
  | appendRows other isNotAvailable sameType =>
    exact keeps_of_ensures (appendRows_ensures wellFormed (others other rfl) isNotAvailable sameType)
  | appendColumns other =>
    exact keeps_of_ensures (appendColumns_ensures wellFormed (others other rfl))
  | addColumn name values => exact keeps_of_inPlace (addDataframeColumn_keeps wellFormed name values)
  | setColumnLabel oldLabel newLabel =>
    exact keeps_of_inPlace (setColumnLabel_keeps wellFormed oldLabel newLabel)
  | transpose render makeString =>
    exact keeps_of_ensures (transposeDataframe_ensures wellFormed render makeString)
  | join other config =>
    exact keeps_of_ensures (joinDataframes_ensures wellFormed (others other rfl) config)
  | convert name converter =>
    exact keeps_of_inPlace (convertDataframeColumn_keeps wellFormed name converter)
  | slice reserves startRow rowCount startColumn columnCount =>
    exact keeps_of_ensures
      (sliceDataframe_ensures wellFormed reserves startRow rowCount startColumn columnCount)
  | drop isNotAvailable => exact keeps_of_ensures (dropNotAvailable_ensures wellFormed isNotAvailable)
  | fill name value cells => exact keeps_of_inPlace (fillNotAvailable_keeps wellFormed name value cells)
  | readCsv rows hasHeader value =>
    exact keeps_of_ensures (frameFromCsvRows_ensures rows hasHeader value)

end Operation

theorem addDataframeColumn_fresh {name : String} {first : DataFrameColumn α}
    {rest : List (DataFrameColumn α)} (columns : frame.columns = first :: rest)
    (fresh : name ∉ frame.names) :
    addDataframeColumn frame name first.values
      = ({ columns := frame.columns ++ [⟨name, first.values⟩] }, .ok ()) := by
  unfold addDataframeColumn
  have unknown : ¬ (frame.columns.any fun column => column.name == name) = true := by
    intro known
    obtain ⟨column, member, same⟩ := List.any_eq_true.1 known
    exact fresh (List.mem_map.2 ⟨column, member, beq_iff_eq.1 same⟩)
  rw [if_neg unknown, if_neg (by simp [columns])]

theorem wellFormed_of_keeps (keeps : ∀ operation : Operation α, operation.other = none →
    operation.Keeps frame) : frame.WellFormed := by
  cases columns : frame.columns with
  | nil => exact ⟨by simp [columns], by simp [DataFrameResource.names, columns]⟩
  | cons first rest =>
    obtain ⟨name, fresh⟩ := Infinite.exists_notMem_finset frame.names.toFinset
    rw [List.mem_toFinset] at fresh
    have kept := keeps (.addColumn name first.values) rfl
    rw [Operation.Keeps, Operation.run, addDataframeColumn_fresh columns fresh] at kept
    obtain ⟨rows, names⟩ := kept
    refine ⟨fun column member => ?_, ?_⟩
    · have rows := rows column (List.mem_append_left _ member)
      simpa [DataFrameResource.rowCount, columns] using rows
    · exact List.Nodup.of_append_left (by simpa [DataFrameResource.names] using names)

/-- The operations that take their frames from some frames keep their promise, whatever their other
arguments are, exactly when all these frames are well formed. -/
theorem operations_keep_iff (frames : List (DataFrameResource α)) :
    (∀ frame ∈ frames, ∀ operation : Operation α, (∀ other ∈ operation.other, other ∈ frames) → operation.Keeps frame)
      ↔ ∀ frame ∈ frames, frame.WellFormed := by
  constructor
  · intro keeps frame member
    refine wellFormed_of_keeps fun operation alone => keeps frame member operation ?_
    rw [alone]
    exact fun other none => nomatch none
  · intro wellFormed frame member operation others
    exact Operation.keeps_of_wellFormed (wellFormed frame member) fun other given =>
      wellFormed other (others other given)

/-- A frame whose two columns have one name, as a query with `SELECT 1 AS a, 2 AS a` gives it. -/
def twiceNamed : DataFrameResource Nat := ⟨[⟨"a", [1]⟩, ⟨"a", [2]⟩]⟩

/-- A well-formed receiver and that frame: `AppendColumns` yields the name twice. -/
theorem appendColumns_twiceNamed : (DataFrameResource.mk [⟨"x", [0]⟩]).WellFormed
      ∧ appendColumns ⟨[⟨"x", [0]⟩]⟩ twiceNamed = .ok ⟨[⟨"x", [0]⟩, ⟨"a", [1]⟩, ⟨"a", [2]⟩]⟩
      ∧ ¬ (Operation.appendColumns twiceNamed).Keeps ⟨[⟨"x", [0]⟩]⟩ := by
  have result : appendColumns ⟨[⟨"x", [0]⟩]⟩ twiceNamed
      = .ok ⟨[⟨"x", [0]⟩, ⟨"a", [1]⟩, ⟨"a", [2]⟩]⟩ := by decide
  refine ⟨⟨by decide, by decide⟩, result, ?_⟩
  rw [Operation.Keeps, Operation.run, result]
  rintro ⟨-, -, names⟩
  revert names
  decide

end BasicNext.Data
