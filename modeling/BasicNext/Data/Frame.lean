import Mathlib.Data.List.Basic

/-!
# Data frames

The frames of `bn_stdlib` and the operations of `dataframe.rs` on them, over cells of any type. An
operation on `&mut` returns the frame as it leaves it, beside its result. Indexing that the source does
with `[]` faults with `outOfRange`, where the source panics. The capacity a vector is given in advance is
left out.
-/

namespace BasicNext.Data

inductive DataFailure where
  | invalidArgument (reason : String)
  | invalidSeparator (separator : String)
  | negativeBound (bound : String) (value : Int)
  | columnLengthMismatch (expected got : Nat)
  | rowCountsDiffer (left right : Nat)
  | columnLayoutsDiffer
  | duplicateColumn (name : String)
  | columnNotFound (name : String)
  | keyColumnNotFound (key side : String)
  | conversionFailed (column reason : String)
  | columnTypesDiffer (column : String)
  | nonNumericColumn (column : String)
  | rowIndexOutOfRange (row : Int) (count : Nat)
  | columnIndexOutOfRange (column : Int) (count : Nat)
  | sliceOutOfRange (start len total : Nat) (dim : String)
  | raggedRow (expected got : Nat)
  | unterminatedQuotedField
  | invalidFormat (reason : String)
deriving DecidableEq, Repr

/-- How an operation ends early: with an error value, or with a panic. -/
inductive Fault where
  | failure (failure : DataFailure)
  | outOfRange
deriving DecidableEq, Repr

structure DataFrameColumn (α : Type) where
  name : String
  values : List α
deriving DecidableEq, Repr

structure DataFrameResource (α : Type) where
  columns : List (DataFrameColumn α)
deriving DecidableEq, Repr

variable {α β : Type}

/-- `xs[position]` -/
def getAt (xs : List β) (position : Nat) : Except Fault β :=
  match xs[position]? with
  | some x => .ok x
  | none => .error .outOfRange

/-- `xs[start..start + len]` -/
def rangeAt (xs : List β) (start len : Nat) : Except Fault (List β) :=
  if start + len ≤ xs.length then .ok ((xs.drop start).take len) else .error .outOfRange

/-- `iter_mut().find`: the first element that satisfies `p`, with what stands before and after it. -/
def findMut (p : β → Bool) : List β → Option (List β × β × List β)
  | [] => none
  | x :: xs =>
    if p x then some ([], x, xs)
    else (findMut p xs).map fun (before, found, after) => (x :: before, found, after)

namespace DataFrameResource

/-- `columns.first().map_or(0, |column| column.values.len())` -/
def rowCount (frame : DataFrameResource α) : Nat := frame.columns.head?.elim 0 fun column => column.values.length

def names (frame : DataFrameResource α) : List String := frame.columns.map DataFrameColumn.name

/-- `find_column` by name, for an in-place change. -/
def findColumn (frame : DataFrameResource α) (name : String) :
    Option (List (DataFrameColumn α) × DataFrameColumn α × List (DataFrameColumn α)) :=
  findMut (fun column => column.name == name) frame.columns

end DataFrameResource

/-! ### Checks -/

/-- 0-based indices as positions below `count`, or the first index that is not one. -/
def checkedIndices (indices : List Int) (count : Nat) : Except Int (List Nat) :=
  indices.mapM fun index =>
    if 0 ≤ index ∧ index.toNat < count then .ok index.toNat else .error index

/-- The first column name that appears twice, with the names seen before. -/
def firstDuplicateFrom (seen : List String) : List (DataFrameColumn α) → Option String
  | [] => none
  | column :: columns =>
    if column.name ∈ seen then some column.name else firstDuplicateFrom (column.name :: seen) columns

def firstDuplicateColumn (columns : List (DataFrameColumn α)) : Option String := firstDuplicateFrom [] columns

/-- The end of the operations that check their result for a name that appears twice. -/
def rejectDuplicate (columns : List (DataFrameColumn α)) : Except Fault (DataFrameResource α) :=
  match firstDuplicateColumn columns with
  | some name => .error (.failure (.duplicateColumn name))
  | none => .ok { columns }

/-! ### New frames from frames -/

def appendRows (left right : DataFrameResource α) (isNotAvailable : α → Bool)
    (sameType : α → α → Bool) : Except Fault (DataFrameResource α) := do
  if left.columns.length ≠ right.columns.length
      ∨ (left.columns.zip right.columns).any fun (left, right) => left.name != right.name then
    throw (.failure .columnLayoutsDiffer)
  let columns ← (left.columns.zip right.columns).mapM fun (column, other) => do
    let leftValue := column.values.find? fun value => !isNotAvailable value
    let rightValue := other.values.find? fun value => !isNotAvailable value
    if leftValue.any fun left => rightValue.any fun right => !sameType left right then
      throw (.failure (.columnTypesDiffer column.name))
    return { column with values := column.values ++ other.values }
  return { columns }

def appendColumns (left right : DataFrameResource α) : Except Fault (DataFrameResource α) := do
  let rows := left.rowCount
  let rightRows := right.rowCount
  if rows ≠ rightRows then
    throw (.failure (.rowCountsDiffer rows rightRows))
  match left.names.find? fun name => right.names.any fun other => name == other with
  | some name => throw (.failure (.duplicateColumn name))
  | none => return { columns := left.columns ++ right.columns }

def selectDataframe (frame : DataFrameResource α) (rowIndices columnIndices : List Int) :
    Except Fault (DataFrameResource α) := do
  let rowCount := frame.rowCount
  let rows ← (checkedIndices rowIndices rowCount).mapError fun row =>
    .failure (.rowIndexOutOfRange row rowCount)
  let columnTotal := frame.columns.length
  let columns ← (checkedIndices columnIndices columnTotal).mapError fun column =>
    .failure (.columnIndexOutOfRange column columnTotal)
  let columns ← columns.mapM fun column => do
    let source ← getAt frame.columns column
    return { name := source.name, values := ← rows.mapM fun row => getAt source.values row }
  rejectDuplicate columns

def transposeDataframe (frame : DataFrameResource α) (render : α → String) (makeString : String → α) :
    Except Fault (DataFrameResource α) := do
  let source := frame.columns
  let columns ← (List.range frame.rowCount).mapM fun row => do
    return {
      name := "Row" ++ Nat.repr row
      values := ← source.mapM fun column => do
        return makeString (render (← getAt column.values row)) }
  return {
    columns := { name := "Column", values := source.map fun column => makeString column.name } :: columns }

/-! ### Changes in place -/

def setColumnLabel (frame : DataFrameResource α) (oldLabel newLabel : String) :
    DataFrameResource α × Except Fault Unit :=
  if newLabel.isEmpty then
    (frame, .error (.failure (.invalidArgument "a column label must not be empty")))
  else if frame.columns.any fun column => column.name == newLabel && column.name != oldLabel then
    (frame, .error (.failure (.duplicateColumn newLabel)))
  else
    match frame.findColumn oldLabel with
    | none => (frame, .error (.failure (.columnNotFound oldLabel)))
    | some (before, column, after) =>
      ({ columns := before ++ { column with name := newLabel } :: after }, .ok ())

def addDataframeColumn (frame : DataFrameResource α) (name : String) (values : List α) :
    DataFrameResource α × Except Fault Unit :=
  if frame.columns.any fun column => column.name == name then
    (frame, .error (.failure (.duplicateColumn name)))
  else if frame.columns.head?.any fun first => first.values.length != values.length then
    (frame, .error (.failure (.columnLengthMismatch frame.rowCount values.length)))
  else ({ columns := frame.columns ++ [{ name, values }] }, .ok ())

def convertDataframeColumn (frame : DataFrameResource α) (name : String)
    (converter : α → Except DataFailure α) : DataFrameResource α × Except Fault Unit :=
  match frame.findColumn name with
  | none => (frame, .error (.failure (.columnNotFound name)))
  | some (before, column, after) =>
    match column.values.mapM converter with
    | .error failure => (frame, .error (.failure failure))
    | .ok newValues => ({ columns := before ++ { column with values := newValues } :: after }, .ok ())

end BasicNext.Data

/-!
## Frames from CSV rows, and slices

The operations of `dataframe/checked.rs`. Memory may run out at any reservation: `reserves` says whether
the reservation of that number succeeds.
-/

namespace BasicNext.Data

variable {α : Type}

/-- `rows.remove(0)` under a header flag: the header, and the other rows. -/
def takeHeader (rows : List (List String)) (hasHeader : Bool) : List String × List (List String) :=
  match rows with
  | first :: rest => if hasHeader then (first, rest) else ([], first :: rest)
  | [] => ([], [])

def csvColumns (headers : List String) (rows : List (List String)) (width : Nat) (value : String → α) :
    Except Fault (List (DataFrameColumn α)) :=
  (List.range width).mapM fun index => do
    let values ← rows.mapM fun row => do return value (← getAt row index)
    return { name := headers[index]?.getD ("Column" ++ Nat.repr (index + 1)), values }

def frameFromCsvRows (rows : List (List String)) (hasHeader : Bool) (value : String → α) :
    Except Fault (DataFrameResource α) := do
  let headers := (takeHeader rows hasHeader).1
  let rows := (takeHeader rows hasHeader).2
  let width := max headers.length (rows.head?.elim 0 List.length)
  if hasHeader ∧ headers.length ≠ width then
    throw (.failure (.raggedRow width headers.length))
  match rows.find? fun row => row.length != width with
  | some row => throw (.failure (.raggedRow width row.length))
  | none => rejectDuplicate (← csvColumns headers rows width value)

/-- `usize::try_from` of a slice bound. -/
def sliceBound (value : Int) : Except Fault Nat :=
  if 0 ≤ value then .ok value.toNat else .error (.failure (.negativeBound "slice bound" value))

def checkSlice (start len total : Nat) (dim : String) : Except Fault Unit :=
  if len = 0 ∨ (start < total ∧ len ≤ total - start) then .ok ()
  else .error (.failure (.sliceOutOfRange start len total dim))

/-- `try_reserve_exact` -/
def reserve (reserves : Nat → Bool) (number : Nat) : Except Fault Unit :=
  if reserves number then .ok ()
  else .error (.failure (.invalidFormat "DataFrame allocation failed"))

def sliceDataframe (reserves : Nat → Bool) (frame : DataFrameResource α)
    (startRow rowCount startColumn columnCount : Int) : Except Fault (DataFrameResource α) := do
  let startRow ← sliceBound startRow
  let rowCount ← sliceBound rowCount
  let startColumn ← sliceBound startColumn
  let columnCount ← sliceBound columnCount
  checkSlice startRow rowCount frame.rowCount "row"
  checkSlice startColumn columnCount frame.columns.length "column"
  reserve reserves 0
  if columnCount = 0 then
    return { columns := [] }
  let sources ← rangeAt frame.columns startColumn columnCount
  let columns ← sources.zipIdx.mapM fun (source, number) => do
    reserve reserves (number + 1)
    let values ← if rowCount = 0 then pure [] else rangeAt source.values startRow rowCount
    return { name := source.name, values }
  return { columns }

end BasicNext.Data

/-!
## Missing values

The operations of `dataframe/na.rs`.
-/

namespace BasicNext.Data

variable {α : Type}

inductive CellKind where
  | notAvailable
  | integer
  | float
  /-- A `STRING`, `BOOLEAN` or any other non-numeric value. -/
  | other
deriving DecidableEq, Repr

/-- How `FillNA` reads and makes the cells of one backend. -/
structure FillCells (α : Type) where
  kind : α → CellKind
  integer : Int32 → α
  float : Float → α

/-- `row` has no cell that is not available. -/
def completeRow (frame : DataFrameResource α) (isNotAvailable : α → Bool) (row : Nat) :
    Except Fault Bool :=
  frame.columns.allM fun column => do return !isNotAvailable (← getAt column.values row)

def dropNotAvailable (frame : DataFrameResource α) (isNotAvailable : α → Bool) :
    Except Fault (DataFrameResource α) := do
  let complete ← (List.range frame.rowCount).foldlM (fun kept row => do
    return if ← completeRow frame isNotAvailable row then kept ++ [row] else kept) []
  let columns ← frame.columns.mapM fun column => do
    return { column with values := ← complete.mapM fun row => getAt column.values row }
  return { columns }

/-- `value.trunc()` -/
def truncated (value : Float) : Float := if value < 0 then value.ceil else value.floor

/-- `value` as an `INTEGER`, when it is a whole number within `INTEGER`. -/
def wholeInteger (value : Float) : Option Int32 :=
  if truncated value == value && value ≥ -2147483648 && value ≤ 2147483647 then some value.toInt32
  else none

def notInteger (column : String) : DataFailure :=
  .invalidArgument
    ("FillNA needs a whole number within INTEGER for the INTEGER column \"" ++ column ++ "\"")

def fillNotAvailable (frame : DataFrameResource α) (name : String) (value : Float)
    (cells : FillCells α) : DataFrameResource α × Except Fault Unit :=
  match frame.findColumn name with
  | none => (frame, .error (.failure (.columnNotFound name)))
  | some (before, column, after) =>
    let kinds := (column.values.map cells.kind).filter fun kind => kind != .notAvailable
    if kinds.contains .other then (frame, .error (.failure (.nonNumericColumn name)))
    else
      let integerColumn := !kinds.isEmpty && kinds.all fun kind => kind == .integer
      let fill := if integerColumn then (wholeInteger value).map cells.integer
        else some (cells.float value)
      match fill with
      | none => (frame, .error (.failure (notInteger name)))
      | some fill =>
        let values := column.values.map fun cell =>
          if cells.kind cell = .notAvailable then fill else cell
        ({ columns := before ++ { column with values } :: after }, .ok ())

end BasicNext.Data
