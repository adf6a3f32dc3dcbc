import BasicNext.Data.Frame
import BasicNext.Lib.Except

/-!
# CSV text

The reader `parse_csv` of `bn_stdlib` and the writer of `bn_lib_data`. The reader's loop is a recursion
on the characters that are left, with the rows, the row and the field it has so far; where it peeks, it
looks at the rest. The writer renders a cell, quotes it where it must, and ends every line with a line
feed.
-/

namespace BasicNext.Data

variable {α : Type}

/-! ### The reader -/

structure CsvReader where
  rows : List (List String) := []
  row : List String := []
  field : String := ""
  quoted : Bool := false
deriving DecidableEq, Repr

namespace CsvReader

def push (reader : CsvReader) (ch : Char) : CsvReader := { reader with field := reader.field.push ch }

def endField (reader : CsvReader) : CsvReader := { reader with row := reader.row ++ [reader.field], field := "" }

def endRow (reader : CsvReader) : CsvReader :=
  { reader with rows := reader.rows ++ [reader.row ++ [reader.field]], row := [], field := "" }

end CsvReader

@[grind] def readChars (separator : Char) (reader : CsvReader) : List Char → CsvReader
  | [] => reader
  | ch :: rest =>
    if reader.quoted then
      if ch = '"' then
        match rest with
        | '"' :: rest => readChars separator (reader.push '"') rest
        | rest => readChars separator { reader with quoted := false } rest
      else readChars separator (reader.push ch) rest
    else if ch = '"' ∧ reader.field.isEmpty then
      readChars separator { reader with quoted := true } rest
    else if ch = separator then readChars separator reader.endField rest
    else if ch = '\n' then readChars separator reader.endRow rest
    else if ch = '\r' then
      if rest.head? = some '\n' then readChars separator reader rest
      else readChars separator reader.endRow rest
    else readChars separator (reader.push ch) rest

/-- The last row goes when it is one empty cell and the row before it is not one cell. -/
def dropEmptyRow (rows : List (List String)) : List (List String) :=
  match rows.reverse with
  | last :: previous :: _ =>
    if last = [""] ∧ previous.length ≠ 1 then rows.dropLast else rows
  | _ => rows

def parseCsv (text : String) (separator : Char) : Except DataFailure (List (List String)) :=
  let reader := readChars separator {} text.toList
  if reader.quoted then .error .unterminatedQuotedField
  else
    let row :=
      if !reader.field.isEmpty ∨ !reader.row.isEmpty ∨ text.toList.getLast? = some separator then
        reader.row ++ [reader.field]
      else reader.row
    let rows := if row.isEmpty then reader.rows else reader.rows ++ [row]
    .ok (dropEmptyRow rows)

/-! ### The writer -/

/-- The separator a call names: one character, neither a quote nor a line break. -/
def csvSeparator (separator : String) : Except DataFailure Char :=
  match separator.toList with
  | [ch] =>
    if ch = '"' ∨ ch = '\n' ∨ ch = '\r' then .error (.invalidSeparator separator) else .ok ch
  | _ => .error (.invalidSeparator separator)

/-- `text.replace('"', "\"\"")` -/
def escapeQuotes (text : List Char) : List Char := text.flatMap fun ch => if ch = '"' then ['"', '"'] else [ch]

def quote (separator : Char) (text : String) : String :=
  if text.toList.any fun ch => ch == separator || ch == '"' || ch == '\n' || ch == '\r' then
    "\"" ++ String.ofList (escapeQuotes text.toList) ++ "\""
  else text

def csvLine (separator : Char) (cells : List String) : String :=
  (String.singleton separator).intercalate (cells.map (quote separator))

def csvRow (render : α → String) (frame : DataFrameResource α) (row : Nat) :
    Except Fault (List String) :=
  frame.columns.mapM fun column => do return render (← getAt column.values row)

def csvBody (lines : List String) : String :=
  if lines.isEmpty then "" else "\n".intercalate lines ++ "\n"

def writeCsv (render : α → String) (frame : DataFrameResource α) (writeHeader : Bool)
    (separator : Char) : Except Fault String := do
  let header := if writeHeader then [csvLine separator frame.names] else []
  let rows ← (List.range frame.rowCount).mapM fun row => do
    return csvLine separator (← csvRow render frame row)
  return csvBody (header ++ rows)

end BasicNext.Data

/-!
## Reading back what was written

What the reader does with a cell as the writer writes it is to put the cell's text into the field: a cell
without special characters as it stands, a quoted one through the quoted state, whose doubled quotes
become one. From cells to lines to the whole text by induction.
-/

namespace BasicNext.Data

variable {α : Type} {separator : Char} {reader : CsvReader} {rest : List Char}

/-! ### One character -/

theorem readChars_unquoted {ch : Char} (unquoted : reader.quoted = false) :
    readChars separator reader (ch :: rest) =
      if ch = '"' ∧ reader.field.isEmpty then readChars separator { reader with quoted := true } rest
      else if ch = separator then readChars separator reader.endField rest
      else if ch = '\n' then readChars separator reader.endRow rest
      else if ch = '\r' then
        if rest.head? = some '\n' then readChars separator reader rest
        else readChars separator reader.endRow rest
      else readChars separator (reader.push ch) rest := by
  rw [readChars.eq_def]
  simp only [unquoted, Bool.false_eq_true, if_false]

theorem readChars_quoted_other {ch : Char} (quoted : reader.quoted = true) (notQuote : ch ≠ '"') :
    readChars separator reader (ch :: rest) = readChars separator (reader.push ch) rest := by
  rw [readChars.eq_def]
  simp only [quoted, if_true, notQuote, if_false]

theorem readChars_doubled (quoted : reader.quoted = true) :
    readChars separator reader ('"' :: '"' :: rest) = readChars separator (reader.push '"') rest := by
  rw [readChars.eq_def]
  simp only [quoted, if_true]

theorem readChars_closing (quoted : reader.quoted = true) (closed : rest.head? ≠ some '"') :
    readChars separator reader ('"' :: rest)
      = readChars separator { reader with quoted := false } rest := by
  rw [readChars.eq_def]
  simp only [quoted, if_true]
  split
  · exact absurd rfl closed
  · rfl

theorem readChars_lineFeed (unquoted : reader.quoted = false) (differs : separator ≠ '\n') :
    readChars separator reader ('\n' :: rest) = readChars separator reader.endRow rest := by
  rw [readChars_unquoted unquoted, if_neg (by simp), if_neg differs.symm, if_pos rfl]

theorem readChars_separator (unquoted : reader.quoted = false) (differs : separator ≠ '"') :
    readChars separator reader (separator :: rest) = readChars separator reader.endField rest := by
  rw [readChars_unquoted unquoted, if_neg (by simp [differs]), if_pos rfl]

/-! ### One cell -/

theorem push_append (field : String) (ch : Char) (chars : List Char) :
    field.push ch ++ String.ofList chars = field ++ String.ofList (ch :: chars) := by
  apply String.toList_inj.1
  simp

theorem readChars_plain {chars : List Char} (plain : ∀ ch ∈ chars, ch ≠ separator ∧ ch ≠ '"' ∧ ch ≠ '\n' ∧ ch ≠ '\r')
    (unquoted : reader.quoted = false) :
    readChars separator reader (chars ++ rest)
      = readChars separator { reader with field := reader.field ++ String.ofList chars } rest := by
  induction chars generalizing reader with
  | nil => simp
  | cons ch chars ih =>
    obtain ⟨⟨notSeparator, notQuote, notFeed, notReturn⟩, plain⟩ := List.forall_mem_cons.1 plain
    have pushed : (reader.push ch).quoted = false := unquoted
    rw [List.cons_append, readChars_unquoted unquoted, if_neg (by simp [notQuote]),
      if_neg notSeparator, if_neg notFeed, if_neg notReturn, ih plain pushed]
    simp only [CsvReader.push, push_append]

theorem readChars_quoted {chars : List Char} (closed : rest.head? ≠ some '"') (quoted : reader.quoted = true) :
    readChars separator reader (escapeQuotes chars ++ '"' :: rest)
      = readChars separator
          { reader with field := reader.field ++ String.ofList chars, quoted := false } rest := by
  induction chars generalizing reader with
  | nil =>
    show readChars separator reader ('"' :: rest) = _
    rw [readChars_closing quoted closed]
    simp
  | cons ch chars ih =>
    have pushed : (reader.push ch).quoted = true := quoted
    by_cases isQuote : ch = '"'
    · subst isQuote
      show readChars separator reader ('"' :: '"' :: (escapeQuotes chars ++ '"' :: rest)) = _
      rw [readChars_doubled quoted, ih pushed]
      simp only [CsvReader.push, push_append]
    · have escaped : escapeQuotes (ch :: chars) = ch :: escapeQuotes chars := by
        simp [escapeQuotes, isQuote]
      rw [escaped, List.cons_append, readChars_quoted_other quoted isQuote, ih pushed]
      simp only [CsvReader.push, push_append]

theorem readChars_cell {text : String} (closed : rest.head? ≠ some '"')
    (unquoted : reader.quoted = false) (empty : reader.field = "") :
    readChars separator reader ((quote separator text).toList ++ rest)
      = readChars separator { reader with field := text } rest := by
  unfold quote
  split
  · next special =>
    have chars : ("\"" ++ String.ofList (escapeQuotes text.toList) ++ "\"").toList ++ rest
        = '"' :: (escapeQuotes text.toList ++ '"' :: rest) := by
      simp
    have opened : ({ reader with quoted := true } : CsvReader).quoted = true := rfl
    rw [chars, readChars_unquoted unquoted, if_pos (by simp [empty]), readChars_quoted closed opened]
    simp [empty, unquoted]
  · next plain =>
    have plain : ∀ ch ∈ text.toList, ch ≠ separator ∧ ch ≠ '"' ∧ ch ≠ '\n' ∧ ch ≠ '\r' := by
      intro ch member
      have ordinary := fun special => plain (List.any_eq_true.2 ⟨ch, member, special⟩)
      simpa [not_or, and_assoc] using ordinary
    rw [readChars_plain plain unquoted]
    simp [empty]

/-! ### Lines -/

theorem readChars_line {cells : List String} (notQuote : separator ≠ '"') (notFeed : separator ≠ '\n')
    (nonempty : cells ≠ []) {rows : List (List String)} {row : List String} :
    readChars separator { rows, row } ((csvLine separator cells).toList ++ '\n' :: rest)
      = readChars separator { rows := rows ++ [row ++ cells] } rest := by
  have feed : ('\n' :: rest).head? ≠ some '"' := by simp
  induction cells generalizing row with
  | nil => exact absurd rfl nonempty
  | cons cell cells ih =>
    cases cells with
    | nil =>
      have line : (csvLine separator [cell]).toList = (quote separator cell).toList := by
        simp [csvLine]
      rw [line, readChars_cell feed rfl rfl, readChars_lineFeed rfl notFeed]
      rfl
    | cons next cells =>
      have line : (csvLine separator (cell :: next :: cells)).toList ++ '\n' :: rest
          = (quote separator cell).toList
            ++ separator :: ((csvLine separator (next :: cells)).toList ++ '\n' :: rest) := by
        simp [csvLine]
      have closed : (separator :: ((csvLine separator (next :: cells)).toList ++ '\n' :: rest)).head?
          ≠ some '"' := by
        simpa using notQuote
      rw [line, readChars_cell closed rfl rfl, readChars_separator rfl notQuote]
      show readChars separator { rows, row := row ++ [cell] } _ = _
      rw [ih (by simp)]
      simp

theorem toList_csvBody (lines : List String) :
    (csvBody lines).toList = lines.flatMap fun line => line.toList ++ ['\n'] := by
  induction lines with
  | nil => rfl
  | cons line lines ih =>
    cases lines with
    | nil => simp [csvBody]
    | cons next lines =>
      rw [List.flatMap_cons, ← ih]
      simp [csvBody]

theorem readChars_lines {table : List (List String)} (notQuote : separator ≠ '"')
    (notFeed : separator ≠ '\n') (nonempty : ∀ row ∈ table, row ≠ []) {rows : List (List String)} :
    readChars separator { rows } (csvBody (table.map (csvLine separator))).toList
      = { rows := rows ++ table } := by
  rw [toList_csvBody]
  induction table generalizing rows with
  | nil => simp [readChars]
  | cons row table ih =>
    obtain ⟨here, others⟩ := List.forall_mem_cons.1 nonempty
    rw [List.map_cons, List.flatMap_cons, List.append_assoc, List.singleton_append,
      readChars_line notQuote notFeed here, ih others]
    simp

/-! ### The whole text -/

theorem csvSeparator_eq_ok {text : String} (h : csvSeparator text = .ok separator) :
    separator ≠ '"' ∧ separator ≠ '\n' ∧ separator ≠ '\r' := by
  unfold csvSeparator at h
  split at h
  · split at h
    · cases h
    · next admitted =>
      cases h
      simpa [not_or] using admitted
  · cases h

theorem dropEmptyRow_of_length {rows : List (List String)} {width : Nat}
    (even : ∀ row ∈ rows, row.length = width) : dropEmptyRow rows = rows := by
  unfold dropEmptyRow
  split
  · next last previous others reversed =>
    have members : ∀ row ∈ last :: previous :: others, row.length = width := fun row member =>
      even row (List.mem_reverse.1 (reversed ▸ member))
    refine if_neg ?_
    rintro ⟨rfl, differs⟩
    have one : width = 1 := (members [""] List.mem_cons_self).symm
    have same := members previous (List.mem_cons_of_mem _ List.mem_cons_self)
    omega
  · rfl

theorem getLast_csvBody (lines : List String) :
    (csvBody lines).toList.getLast? = none ∨ (csvBody lines).toList.getLast? = some '\n' := by
  unfold csvBody
  split
  · exact .inl (by simp)
  · exact .inr (by simp)

theorem parseCsv_csvBody {table : List (List String)} {width : Nat} (notQuote : separator ≠ '"')
    (notFeed : separator ≠ '\n') (positive : 0 < width) (even : ∀ row ∈ table, row.length = width) :
    parseCsv (csvBody (table.map (csvLine separator))) separator = .ok table := by
  have nonempty : ∀ row ∈ table, row ≠ [] := by
    rintro row member rfl
    have length := even [] member
    simp only [List.length_nil] at length
    omega
  have last : (csvBody (table.map (csvLine separator))).toList.getLast? ≠ some separator := by
    rcases getLast_csvBody (table.map (csvLine separator)) with ends | ends
    · simp [ends]
    · rw [ends]
      exact fun same => notFeed (Option.some.inj same).symm
  unfold parseCsv
  rw [show ({} : CsvReader) = { rows := [] } from rfl, readChars_lines notQuote notFeed nonempty]
  simp [last, dropEmptyRow_of_length even]

/-- The header and the rows that a frame has, with its cells as text. -/
def csvTable (render : α → String) (frame : DataFrameResource α) (writeHeader : Bool) :
    List (List String) :=
  (if writeHeader then [frame.names] else [])
    ++ (List.range frame.rowCount).map fun row =>
      frame.columns.map fun column => column.values[row]?.elim "" render

theorem writeCsv_eq_ok {render : α → String} {frame : DataFrameResource α}
    (rows : ∀ column ∈ frame.columns, column.values.length = frame.rowCount) (writeHeader : Bool) :
    writeCsv render frame writeHeader separator
      = .ok (csvBody ((csvTable render frame writeHeader).map (csvLine separator))) := by
  have cells : ∀ row ∈ List.range frame.rowCount, csvRow render frame row
      = .ok (frame.columns.map fun column => column.values[row]?.elim "" render) := by
    intro row member
    refine Lib.mapM_eq_ok_map fun column inFrame => ?_
    have inside : row < column.values.length := by
      rw [rows column inFrame]
      exact List.mem_range.1 member
    simp only [getAt, List.getElem?_eq_getElem inside]
    rfl
  have lines : ((List.range frame.rowCount).mapM fun row => do
        return csvLine separator (← csvRow render frame row) : Except Fault (List String))
      = .ok ((List.range frame.rowCount).map fun row =>
          csvLine separator (frame.columns.map fun column => column.values[row]?.elim "" render)) := by
    refine Lib.mapM_eq_ok_map fun row member => ?_
    rw [cells row member]
    rfl
  unfold writeCsv
  rw [lines]
  cases writeHeader <;> simp [csvTable, bind, Except.bind, pure, Except.pure, Function.comp_def]

/-- What is written is read back cell for cell, for every table of one or more columns and every
separator that is admitted. -/
theorem parseCsv_writeCsv {render : α → String} {frame : DataFrameResource α} {separatorText : String}
    (admitted : csvSeparator separatorText = .ok separator) (columns : frame.columns ≠ [])
    (rows : ∀ column ∈ frame.columns, column.values.length = frame.rowCount) (writeHeader : Bool) :
    ∃ text, writeCsv render frame writeHeader separator = .ok text
      ∧ parseCsv text separator = .ok (csvTable render frame writeHeader) := by
  obtain ⟨notQuote, notFeed, -⟩ := csvSeparator_eq_ok admitted
  refine ⟨_, writeCsv_eq_ok rows writeHeader, ?_⟩
  refine parseCsv_csvBody notQuote notFeed (List.length_pos_of_ne_nil columns) fun row member => ?_
  rcases List.mem_append.1 member with header | body
  · cases writeHeader with
    | false => exact absurd header List.not_mem_nil
    | true =>
      rw [List.mem_singleton.1 header]
      exact List.length_map ..
  · obtain ⟨number, -, rfl⟩ := List.mem_map.1 body
    exact List.length_map ..

/-- Cells with quotes, separators and line breaks, and a row of empty cells. -/
theorem parseCsv_writeCsv_special : ∃ text,
    writeCsv id ⟨[⟨"a,\"", ["", "x\r\n", "\""]⟩, ⟨"b", ["", "\r", ","]⟩]⟩ true ',' = .ok text
      ∧ parseCsv text ',' = .ok [["a,\"", "b"], ["", ""], ["x\r\n", "\r"], ["\"", ","]] := by
  have admitted : csvSeparator "," = .ok ',' := rfl
  exact parseCsv_writeCsv admitted (by decide) (by decide) true

end BasicNext.Data
