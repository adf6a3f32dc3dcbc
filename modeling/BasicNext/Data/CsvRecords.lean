import BasicNext.Data.Csv
import Mathlib.Data.List.TakeWhile

/-!
# The records of a CSV text

A text outside a quoted field is a sequence of records, each a sequence of cells, with line breaks between them.
The reader takes a record to one row, so appending a line break to a text that ends in a record gives the same rows,
but where the record leaves nothing behind: the reader takes an empty row without cells for no record at all, and a
last record `""` looks the same to it.
-/

namespace BasicNext.Data

variable {separator : Char} {reader : CsvReader} {chars rest lineBreak : List Char} {text : String}
  {cells : List String} {rows : List (List String)} {row : List String}

/-! ### Cells, records and line breaks -/

/-- Characters of one cell that a quote does not open. -/
def Unquoted (separator : Char) (chars : List Char) : Prop :=
  (∀ ch ∈ chars, ch ≠ separator ∧ ch ≠ '\n' ∧ ch ≠ '\r') ∧ chars.head? ≠ some '"'

/-- A cell with its text: plain characters, or a quoted text that plain characters may follow. -/
inductive Cell (separator : Char) : List Char → String → Prop
  | plain {chars : List Char} : Unquoted separator chars → Cell separator chars (String.ofList chars)
  | quoted {text chars : List Char} : Unquoted separator chars →
      Cell separator ('"' :: (escapeQuotes text ++ '"' :: chars)) (String.ofList text ++ String.ofList chars)

/-- Cells with separators between them. -/
inductive Record (separator : Char) : List Char → List String → Prop
  | last {chars : List Char} {text : String} : Cell separator chars text → Record separator chars [text]
  | more {chars rest : List Char} {text : String} {cells : List String} :
      Cell separator chars text → Record separator rest cells →
        Record separator (chars ++ separator :: rest) (text :: cells)

/-- A line break before the rest of a text: a carriage return is one where no line feed follows it. -/
def LineBreak (lineBreak rest : List Char) : Prop :=
  lineBreak = ['\n'] ∨ lineBreak = ['\r', '\n'] ∨ lineBreak = ['\r'] ∧ rest.head? ≠ some '\n'

/-- The last record of the text is `""`, and the one before it has one cell. -/
inductive QuotedEmptyLast (separator : Char) : List Char → Prop
  | last {chars lineBreak : List Char} {text : String} : Cell separator chars text → LineBreak lineBreak ['"', '"'] →
      QuotedEmptyLast separator (chars ++ (lineBreak ++ ['"', '"']))
  | line {chars lineBreak rest : List Char} {cells : List String} : Record separator chars cells →
      LineBreak lineBreak rest → QuotedEmptyLast separator rest → QuotedEmptyLast separator (chars ++ (lineBreak ++ rest))

theorem LineBreak.head (isBreak : LineBreak lineBreak rest) : (lineBreak ++ rest).head? ≠ some '"' := by
  obtain rfl | rfl | ⟨rfl, -⟩ := isBreak <;> simp

theorem Record.ne_nil (record : Record separator chars cells) : cells ≠ [] := by
  cases record <;> simp

theorem Record.cell (record : Record separator chars [text]) : Cell separator chars text := by
  cases record with
  | last cell => exact cell
  | more _ rest => exact absurd rfl rest.ne_nil

/-! ### What the reader does with them -/

theorem getLast_ne_of_cons {ch other : Char} (ends : (ch :: chars).getLast? ≠ some other) :
    chars.getLast? ≠ some other := by
  cases chars with
  | nil => simp
  | cons next chars => rwa [List.getLast?_cons_cons] at ends

theorem readChars_append (ends : chars.getLast? ≠ some '\r') (next : rest.head? ≠ some '"') :
    readChars separator reader (chars ++ rest) = readChars separator (readChars separator reader chars) rest := by
  fun_induction readChars separator reader chars with
  | case1 reader => rfl
  | case2 reader quoted chars ih =>
    rw [List.cons_append, List.cons_append, readChars_doubled quoted]
    exact ih (getLast_ne_of_cons (getLast_ne_of_cons ends))
  | case3 reader quoted chars single ih =>
    have closed : (chars ++ rest).head? ≠ some '"' := by
      cases chars with
      | nil => exact next
      | cons ch chars =>
        intro again
        obtain rfl : ch = '"' := by simpa using again
        exact single chars rfl
    rw [List.cons_append, readChars_closing quoted closed]
    exact ih (getLast_ne_of_cons ends)
  | case4 reader ch chars quoted other ih =>
    rw [List.cons_append, readChars_quoted_other quoted other]
    exact ih (getLast_ne_of_cons ends)
  | case5 reader ch chars unquoted opens ih =>
    rw [List.cons_append, readChars_unquoted (by simpa using unquoted), if_pos opens]
    exact ih (getLast_ne_of_cons ends)
  | case6 reader chars unquoted closed ih =>
    rw [List.cons_append, readChars_unquoted (by simpa using unquoted), if_neg closed, if_pos rfl]
    exact ih (getLast_ne_of_cons ends)
  | case7 reader chars unquoted closed other ih =>
    rw [List.cons_append, readChars_unquoted (by simpa using unquoted), if_neg closed, if_neg other, if_pos rfl]
    exact ih (getLast_ne_of_cons ends)
  | case8 reader chars unquoted feed closed other notFeed ih =>
    have feed' : (chars ++ rest).head? = some '\n' := by
      rw [List.head?_append, feed]
      rfl
    rw [List.cons_append, readChars_unquoted (by simpa using unquoted), if_neg closed, if_neg other, if_neg notFeed,
      if_pos rfl, if_pos feed']
    exact ih (getLast_ne_of_cons ends)
  | case9 reader chars unquoted feed closed other notFeed ih =>
    have feed' : (chars ++ rest).head? ≠ some '\n' := by
      cases chars with
      | nil => simp at ends
      | cons ch chars => exact feed
    rw [List.cons_append, readChars_unquoted (by simpa using unquoted), if_neg closed, if_neg other, if_neg notFeed,
      if_pos rfl, if_neg feed']
    exact ih (getLast_ne_of_cons ends)
  | case10 reader ch chars unquoted closed other notFeed notReturn ih =>
    rw [List.cons_append, readChars_unquoted (by simpa using unquoted), if_neg closed, if_neg other, if_neg notFeed,
      if_neg notReturn]
    exact ih (getLast_ne_of_cons ends)

theorem readChars_literal (plain : ∀ ch ∈ chars, ch ≠ separator ∧ ch ≠ '\n' ∧ ch ≠ '\r') (unquoted : reader.quoted = false)
    (open' : reader.field ≠ "" ∨ chars.head? ≠ some '"') :
    readChars separator reader (chars ++ rest) =
      readChars separator { reader with field := reader.field ++ String.ofList chars } rest := by
  induction chars generalizing reader with
  | nil => simp
  | cons ch chars ih =>
    obtain ⟨⟨notSeparator, notFeed, notReturn⟩, plain⟩ := List.forall_mem_cons.1 plain
    have closed : ¬ (ch = '"' ∧ reader.field.isEmpty = true) := by
      intro ⟨quote, empty⟩
      simp [quote, String.isEmpty_iff.1 empty] at open'
    have pushed : (reader.push ch).quoted = false := unquoted
    rw [List.cons_append, readChars_unquoted unquoted, if_neg closed, if_neg notSeparator, if_neg notFeed,
      if_neg notReturn, ih plain pushed (.inl (by simp [CsvReader.push]))]
    simp only [CsvReader.push, push_append]

theorem readChars_cellText (cell : Cell separator chars text) (unquoted : reader.quoted = false) (empty : reader.field = "")
    (closed : rest.head? ≠ some '"') :
    readChars separator reader (chars ++ rest) = readChars separator { reader with field := text } rest := by
  cases cell with
  | plain plain =>
    rw [readChars_literal plain.1 unquoted (.inr plain.2), empty]
    simp
  | quoted plain =>
    rename_i text after
    have opened : ({ reader with quoted := true } : CsvReader).quoted = true := rfl
    have closed' : (after ++ rest).head? ≠ some '"' := by
      cases after with
      | nil => exact closed
      | cons ch after => exact plain.2
    rw [List.cons_append, List.append_assoc, List.cons_append, readChars_unquoted unquoted,
      if_pos (by simp [empty]), readChars_quoted closed' opened]
    by_cases none : String.ofList text = ""
    · rw [readChars_literal plain.1 rfl (.inr plain.2)]
      simp [empty, unquoted]
    · rw [readChars_literal plain.1 rfl (.inl (by simpa [empty] using none))]
      simp [empty, unquoted]

theorem readChars_record (rows : List (List String)) (row : List String) (notQuote : separator ≠ '"')
    (record : Record separator chars cells) (closed : rest.head? ≠ some '"') :
    ∃ init last, cells = init ++ [last] ∧
      readChars separator { rows, row } (chars ++ rest) = readChars separator { rows, row := row ++ init, field := last } rest := by
  induction record generalizing row with
  | last cell =>
    refine ⟨[], _, rfl, ?_⟩
    rw [readChars_cellText cell rfl rfl closed, List.append_nil]
  | more cell record ih =>
    rename_i chars following text cells
    obtain ⟨init, last, rfl, reads⟩ := ih (row ++ [text])
    refine ⟨text :: init, last, rfl, ?_⟩
    rw [List.append_assoc, List.cons_append, readChars_cellText cell rfl rfl (by simp [notQuote]),
      readChars_separator rfl notQuote]
    simpa [CsvReader.endField] using reads

section
variable (notFeed : separator ≠ '\n') (notReturn : separator ≠ '\r')
include notFeed notReturn

theorem readChars_lineBreak (isBreak : LineBreak lineBreak rest) (unquoted : reader.quoted = false) :
    readChars separator reader (lineBreak ++ rest) = readChars separator reader.endRow rest := by
  obtain rfl | rfl | ⟨rfl, alone⟩ := isBreak
  · exact readChars_lineFeed unquoted notFeed
  · rw [List.cons_append, readChars_unquoted unquoted, if_neg (by simp), if_neg notReturn.symm, if_neg (by simp),
      if_pos rfl, if_pos (by simp)]
    exact readChars_lineFeed unquoted notFeed
  · rw [List.cons_append, readChars_unquoted unquoted, if_neg (by simp), if_neg notReturn.symm, if_neg (by simp),
      if_pos rfl, List.nil_append, if_neg alone]

end

/-! ### Every text is records -/

/-- Where the rest of a text may begin after a cell. -/
def EndsCell (separator : Char) (rest : List Char) : Prop := ∀ ch ∈ rest.head?, ch = separator ∨ ch = '\n' ∨ ch = '\r'

theorem unquoted_split (separator : Char) (opened : chars.head? ≠ some '"') :
    ∃ plain rest, Unquoted separator plain ∧ chars = plain ++ rest ∧ EndsCell separator rest := by
  let ordinary := fun ch : Char => ch != separator && ch != '\n' && ch != '\r'
  refine ⟨chars.takeWhile ordinary, chars.dropWhile ordinary, ⟨fun ch member => ?_, ?_⟩,
    (List.takeWhile_append_dropWhile).symm, fun ch first => ?_⟩
  · have passes := List.mem_takeWhile_imp member
    simpa [ordinary, and_assoc] using passes
  · cases chars with
    | nil => simp
    | cons ch chars =>
      rw [List.takeWhile_cons]
      split
      · exact opened
      · simp
  · have stops := List.head?_dropWhile_not ordinary chars
    rw [first] at stops
    simpa [ordinary, or_iff_not_imp_left] using stops

theorem quoted_split (chars : List Char) : (∃ text rest, chars = escapeQuotes text ++ '"' :: rest ∧ rest.head? ≠ some '"') ∨
    ∃ text, chars = escapeQuotes text := by
  obtain ⟨size, bound⟩ : ∃ size, chars.length ≤ size := ⟨_, le_rfl⟩
  induction size generalizing chars with
  | zero =>
    obtain rfl := List.length_eq_zero_iff.1 (Nat.le_zero.1 bound)
    exact .inr ⟨[], rfl⟩
  | succ size ih =>
    cases chars with
    | nil => exact .inr ⟨[], rfl⟩
    | cons ch chars =>
      simp only [List.length_cons] at bound
      by_cases quote : ch = '"'
      · subst quote
        cases chars with
        | nil => exact .inl ⟨[], [], by simp [escapeQuotes]⟩
        | cons next chars =>
          by_cases doubled : next = '"'
          · subst doubled
            simp only [List.length_cons] at bound
            obtain ⟨text, rest, rfl, closed⟩ | ⟨text, rfl⟩ := ih chars (by omega)
            · exact .inl ⟨'"' :: text, rest, by simp [escapeQuotes], closed⟩
            · exact .inr ⟨'"' :: text, by simp [escapeQuotes]⟩
          · exact .inl ⟨[], next :: chars, by simp [escapeQuotes], by simpa using doubled⟩
      · obtain ⟨text, rest, rfl, closed⟩ | ⟨text, rfl⟩ := ih chars (by omega)
        · exact .inl ⟨ch :: text, rest, by simp [escapeQuotes, quote], closed⟩
        · exact .inr ⟨ch :: text, by simp [escapeQuotes, quote]⟩

theorem readChars_escapeQuotes (quoted : reader.quoted = true) :
    (readChars separator reader (escapeQuotes chars)).quoted = true := by
  induction chars generalizing reader with
  | nil => simpa [escapeQuotes, readChars] using quoted
  | cons ch chars ih =>
    have pushed : (reader.push ch).quoted = true := quoted
    by_cases isQuote : ch = '"'
    · subst isQuote
      have escaped : escapeQuotes ('"' :: chars) = '"' :: '"' :: escapeQuotes chars := by simp [escapeQuotes]
      rw [escaped, readChars_doubled quoted]
      exact ih pushed
    · have escaped : escapeQuotes (ch :: chars) = ch :: escapeQuotes chars := by simp [escapeQuotes, isQuote]
      rw [escaped, readChars_quoted_other quoted isQuote]
      exact ih pushed

theorem cell_split (separator : Char) (chars : List Char) :
    (∃ cell text rest, Cell separator cell text ∧ chars = cell ++ rest ∧ EndsCell separator rest) ∨
      ∃ text, chars = '"' :: escapeQuotes text := by
  by_cases opened : chars.head? = some '"'
  · cases chars with
    | nil => simp at opened
    | cons ch chars =>
      obtain rfl : ch = '"' := by simpa using opened
      obtain ⟨text, after, rfl, closed⟩ | ⟨text, rfl⟩ := quoted_split chars
      · obtain ⟨plain, rest, unquoted, rfl, ends⟩ := unquoted_split separator closed
        have cell : Cell separator ('"' :: (escapeQuotes text ++ '"' :: plain)) _ := .quoted unquoted
        exact .inl ⟨_, _, rest, cell, by simp, ends⟩
      · exact .inr ⟨text, rfl⟩
  · obtain ⟨plain, rest, unquoted, rfl, ends⟩ := unquoted_split separator opened
    exact .inl ⟨plain, _, rest, .plain unquoted, rfl, ends⟩

theorem record_split (notQuote : separator ≠ '"') (closed : (readChars separator { rows, row } chars).quoted = false) :
    ∃ record cells rest, Record separator record cells ∧ chars = record ++ rest ∧
      (rest = [] ∨ ∃ lineBreak after, LineBreak lineBreak after ∧ rest = lineBreak ++ after) := by
  obtain ⟨size, bound⟩ : ∃ size, chars.length ≤ size := ⟨_, le_rfl⟩
  induction size generalizing chars row with
  | zero =>
    obtain rfl := List.length_eq_zero_iff.1 (Nat.le_zero.1 bound)
    exact ⟨[], _, [], .last (.plain ⟨by simp, by simp⟩), rfl, .inl rfl⟩
  | succ size ih =>
    obtain ⟨cell, text, rest, isCell, rfl, ends⟩ | ⟨text, rfl⟩ := cell_split separator chars
    swap
    · rw [readChars_unquoted rfl, if_pos (by simp), readChars_escapeQuotes rfl] at closed
      cases closed
    cases rest with
    | nil => exact ⟨cell, _, [], .last isCell, rfl, .inl rfl⟩
    | cons ch rest =>
      obtain rfl | rfl | rfl := ends ch rfl
      · rw [readChars_cellText isCell rfl rfl (by simpa using notQuote), readChars_separator rfl notQuote] at closed
        simp only [List.length_append, List.length_cons] at bound
        obtain ⟨record, cells, after, isRecord, rfl, next⟩ := ih closed (by omega)
        exact ⟨_, _, after, .more isCell isRecord, by simp, next⟩
      · exact ⟨cell, _, _, .last isCell, rfl, .inr ⟨['\n'], rest, .inl rfl, rfl⟩⟩
      · cases rest with
        | nil => exact ⟨cell, _, _, .last isCell, rfl, .inr ⟨['\r'], [], .inr (.inr ⟨rfl, by simp⟩), rfl⟩⟩
        | cons next rest =>
          by_cases feed : next = '\n'
          · subst feed
            exact ⟨cell, _, _, .last isCell, rfl, .inr ⟨['\r', '\n'], rest, .inr (.inl rfl), rfl⟩⟩
          · exact ⟨cell, _, _, .last isCell, rfl, .inr ⟨['\r'], next :: rest, .inr (.inr ⟨rfl, by simpa using feed⟩), rfl⟩⟩

/-! ### What a last record leaves behind -/

/-- The reader stands after a record that left nothing, before any row or after a row of one cell. -/
structure CsvReader.Blank (reader : CsvReader) : Prop where
  row : reader.row = []
  field : reader.field = ""
  single : ∀ last ∈ reader.rows.getLast?, last.length = 1

theorem Cell.of_empty (cell : Cell separator chars "") : chars = [] ∨ chars = ['"', '"'] := by
  generalize none : "" = text at cell
  cases cell with
  | plain => exact .inl (by simpa using congrArg String.toList none.symm)
  | quoted =>
    have none := congrArg String.toList none.symm
    simp only [String.toList_append, String.toList_ofList, String.toList_empty, List.append_eq_nil_iff] at none
    obtain ⟨rfl, rfl⟩ := none
    exact .inr rfl

section
variable (notQuote : separator ≠ '"') (notFeed : separator ≠ '\n') (notReturn : separator ≠ '\r')
include notQuote notFeed notReturn

theorem readChars_recordLine (record : Record separator chars cells) (isBreak : LineBreak lineBreak rest) :
    readChars separator { rows } (chars ++ (lineBreak ++ rest)) = readChars separator { rows := rows ++ [cells] } rest := by
  obtain ⟨init, last, rfl, reads⟩ := readChars_record rows [] notQuote record isBreak.head
  rw [reads, readChars_lineBreak notFeed notReturn isBreak rfl]
  rfl

theorem QuotedEmptyLast.blank (last : QuotedEmptyLast separator chars) : (readChars separator { rows } chars).Blank := by
  induction last generalizing rows with
  | last cell isBreak =>
    rw [readChars_recordLine notQuote notFeed notReturn (.last cell) isBreak]
    have reads : ∀ rows, readChars separator { rows } ['"', '"'] = { rows } := by
      intro rows
      rw [readChars_unquoted rfl, if_pos (by simp), readChars_closing rfl (by simp), readChars]
    rw [reads]
    exact ⟨rfl, rfl, by simp⟩
  | line record isBreak _ ih =>
    rw [readChars_recordLine notQuote notFeed notReturn record isBreak]
    exact ih

theorem blank_split (closed : (readChars separator { rows } chars).quoted = false)
    (blank : (readChars separator { rows } chars).Blank) (ends : chars.getLast? ≠ some '\n' ∧ chars.getLast? ≠ some '\r') :
    QuotedEmptyLast separator chars ∨ (chars = [] ∨ chars = ['"', '"']) ∧ ∀ last ∈ rows.getLast?, last.length = 1 := by
  obtain ⟨size, bound⟩ : ∃ size, chars.length ≤ size := ⟨_, le_rfl⟩
  induction size generalizing chars rows with
  | zero =>
    obtain rfl := List.length_eq_zero_iff.1 (Nat.le_zero.1 bound)
    exact .inr ⟨.inl rfl, by simpa [readChars] using blank.single⟩
  | succ size ih =>
    obtain ⟨record, cells, rest, isRecord, rfl, rfl | ⟨lineBreak, after, isBreak, rfl⟩⟩ := record_split notQuote closed
    · obtain ⟨init, last, rfl, reads⟩ :=
        readChars_record rows [] notQuote isRecord (by simp : ([] : List Char).head? ≠ some '"')
      rw [reads] at blank
      have row : init = [] := by simpa [readChars] using blank.row
      have field : last = "" := by simpa [readChars] using blank.field
      subst row field
      rw [List.append_nil]
      exact .inr ⟨isRecord.cell.of_empty, by simpa [readChars] using blank.single⟩
    · rw [readChars_recordLine notQuote notFeed notReturn isRecord isBreak] at closed blank
      have after_ne : after ≠ [] := by
        rintro rfl
        obtain rfl | rfl | ⟨rfl, -⟩ := isBreak <;> simp at ends
      have shorter : after.length ≤ size := by
        have some : 0 < lineBreak.length := by obtain rfl | rfl | ⟨rfl, -⟩ := isBreak <;> simp
        simp only [List.length_append] at bound
        omega
      have last_eq : (record ++ (lineBreak ++ after)).getLast? = after.getLast? := by
        rw [List.getLast?_append, List.getLast?_append, List.getLast?_eq_some_getLast after_ne]
        rfl
      rw [last_eq] at ends
      obtain later | ⟨empty | rfl, single⟩ := ih closed blank ends shorter
      · exact .inl (.line isRecord isBreak later)
      · exact absurd empty after_ne
      · obtain ⟨text, rfl⟩ := List.length_eq_one_iff.1 (single cells (by simp))
        exact .inl (.last isRecord.cell isBreak)

end

/-! ### A line break at the end -/

theorem dropEmptyRow_append_of_ne {last : List String} (kept : last ≠ [""]) : dropEmptyRow (rows ++ [last]) = rows ++ [last] := by
  unfold dropEmptyRow
  rw [List.reverse_append]
  split
  · next first previous earlier reverse_eq =>
    obtain ⟨rfl, -⟩ := List.cons.inj (reverse_eq : last :: rows.reverse = _)
    rw [if_neg fun drops => kept drops.1]
  · rfl

theorem dropEmptyRow_append_empty (single : ∀ last ∈ rows.getLast?, last.length = 1) :
    dropEmptyRow (rows ++ [[""]]) = rows ++ [[""]] := by
  unfold dropEmptyRow
  rw [List.reverse_append]
  split
  · next first previous earlier reverse_eq =>
    obtain ⟨-, reverse_eq⟩ := List.cons.inj (reverse_eq : [""] :: rows.reverse = _)
    have reverse_eq : rows.reverse = previous :: earlier := reverse_eq
    have one : previous.length = 1 := single previous (by rw [List.getLast?_eq_head?_reverse, reverse_eq]; rfl)
    rw [if_neg fun drops => drops.2 one]
  · rfl

theorem dropEmptyRow_append_dropped {previous : List String} (wide : previous.length ≠ 1) :
    dropEmptyRow (rows ++ [previous] ++ [[""]]) = rows ++ [previous] := by
  unfold dropEmptyRow
  simp [wide]

theorem length_dropEmptyRow_le (rows : List (List String)) : (dropEmptyRow rows).length ≤ rows.length := by
  unfold dropEmptyRow
  split
  · split
    · simp
    · exact le_rfl
  · exact le_rfl

section
variable (notQuote : separator ≠ '"') (notFeed : separator ≠ '\n') (notReturn : separator ≠ '\r')
include notQuote notFeed notReturn

theorem blank_iff (closed : (readChars separator {} chars).quoted = false)
    (ends : chars.getLast? ≠ some '\n' ∧ chars.getLast? ≠ some '\r') :
    (readChars separator {} chars).Blank ↔ chars = [] ∨ chars = ['"', '"'] ∨ QuotedEmptyLast separator chars := by
  constructor
  · intro blank
    obtain last | ⟨empty | quotes, -⟩ := blank_split notQuote notFeed notReturn closed blank ends
    · exact .inr (.inr last)
    · exact .inl empty
    · exact .inr (.inl quotes)
  · rintro (rfl | rfl | last)
    · exact ⟨rfl, rfl, by simp [readChars]⟩
    · rw [readChars_unquoted rfl, if_pos (by simp), readChars_closing rfl (by simp), readChars]
      exact ⟨rfl, rfl, by simp⟩
    · exact last.blank notQuote notFeed notReturn

end

theorem QuotedEmptyLast.getLast (last : QuotedEmptyLast separator chars) : chars.getLast? = some '"' := by
  induction last with
  | last cell isBreak => simp [List.getLast?_append]
  | line record isBreak _ ih => simp [List.getLast?_append, ih]

theorem parseCsv_of_row (closed : (readChars separator {} text.toList).quoted = false)
    (more : (readChars separator {} text.toList).field ≠ "" ∨ (readChars separator {} text.toList).row ≠ [] ∨
      text.toList.getLast? = some separator) :
    parseCsv text separator = .ok (dropEmptyRow ((readChars separator {} text.toList).rows ++
      [(readChars separator {} text.toList).row ++ [(readChars separator {} text.toList).field]])) := by
  simp only [ne_eq] at more
  simp [parseCsv, closed, more]

theorem parseCsv_of_blank (closed : (readChars separator {} text.toList).quoted = false)
    (field : (readChars separator {} text.toList).field = "") (row : (readChars separator {} text.toList).row = [])
    (ends : text.toList.getLast? ≠ some separator) :
    parseCsv text separator = .ok (dropEmptyRow (readChars separator {} text.toList).rows) := by
  unfold parseCsv
  simp [closed, field, row, ends]

/-- A line break at the end of a text changes its rows exactly where the text is empty, or its last record is `""` and
no record or one of one cell stands before it. -/
theorem parseCsv_lineBreak_iff {separatorText : String} (named : csvSeparator separatorText = .ok separator)
    (accepted : parseCsv text separator = .ok rows) (ends : text.toList.getLast? ≠ some '\n' ∧ text.toList.getLast? ≠ some '\r')
    (isBreak : LineBreak lineBreak []) :
    parseCsv (text ++ String.ofList lineBreak) separator = .ok rows ↔
      text.toList ≠ [] ∧ text.toList ≠ ['"', '"'] ∧ ¬ QuotedEmptyLast separator text.toList := by
  obtain ⟨notQuote, notFeed, notReturn⟩ := csvSeparator_eq_ok named
  have closed : (readChars separator {} text.toList).quoted = false := by
    rw [← Bool.not_eq_true]
    intro quoted
    simp [parseCsv, quoted] at accepted
  have appended : readChars separator {} (text ++ String.ofList lineBreak).toList =
      (readChars separator {} text.toList).endRow := by
    rw [String.toList_append, String.toList_ofList,
      readChars_append ends.2 (by simpa using isBreak.head), ← List.append_nil lineBreak,
      readChars_lineBreak notFeed notReturn isBreak closed, readChars]
  have after : parseCsv (text ++ String.ofList lineBreak) separator =
      .ok (dropEmptyRow ((readChars separator {} text.toList).rows ++
        [(readChars separator {} text.toList).row ++ [(readChars separator {} text.toList).field]])) := by
    rw [parseCsv_of_blank, appended]
    · rfl
    · rw [appended]
      exact closed
    · rw [appended]
      rfl
    · rw [appended]
      rfl
    · rw [String.toList_append, String.toList_ofList, List.getLast?_append]
      obtain rfl | rfl | ⟨rfl, -⟩ := isBreak <;> simp [notFeed.symm, notReturn.symm]
  have blank := blank_iff notQuote notFeed notReturn closed ends
  rw [after, ← not_or, ← not_or, ← blank]
  by_cases more : (readChars separator {} text.toList).field ≠ "" ∨ (readChars separator {} text.toList).row ≠ [] ∨
      text.toList.getLast? = some separator
  · rw [parseCsv_of_row closed more] at accepted
    refine iff_of_true accepted fun here => ?_
    obtain field | row | last := more
    · exact field here.field
    · exact row here.row
    · obtain empty | quotes | later := blank.1 here
      · simp [empty] at last
      · simp [quotes, notQuote.symm] at last
      · rw [later.getLast] at last
        exact notQuote (Option.some.inj last).symm
  -- the record at the end has left nothing, so the row before it decides
  · simp only [not_or, not_not] at more
    obtain ⟨field, row, last⟩ := more
    rw [parseCsv_of_blank closed field row last] at accepted
    obtain rfl := Except.ok.inj accepted
    rw [field, row, List.nil_append]
    by_cases single : ∀ last ∈ (readChars separator {} text.toList).rows.getLast?, last.length = 1
    · refine iff_of_false (fun same => ?_) fun none => none ⟨row, field, single⟩
      have longer := congrArg List.length (Except.ok.inj same)
      have shorter := length_dropEmptyRow_le (readChars separator {} text.toList).rows
      rw [dropEmptyRow_append_empty single, List.length_append, List.length_singleton] at longer
      omega
    · refine iff_of_true ?_ fun here => single here.single
      simp only [not_forall] at single
      obtain ⟨previous, member, wide⟩ := single
      obtain ⟨earlier, rows_eq⟩ := List.getLast?_eq_some_iff.1 member
      rw [rows_eq, dropEmptyRow_append_dropped wide, dropEmptyRow_append_of_ne]
      rintro rfl
      exact wide rfl

/-- A column whose last value is empty, written as `""`: without a line break at the end the value is lost. -/
theorem parseCsv_lineBreak_lost : ¬ ∀ (text : String) (separatorText : String) (separator : Char) (rows : List (List String))
    (lineBreak : List Char), csvSeparator separatorText = .ok separator → parseCsv text separator = .ok rows →
      text.toList.getLast? ≠ some '\n' ∧ text.toList.getLast? ≠ some '\r' → LineBreak lineBreak [] →
        parseCsv (text ++ String.ofList lineBreak) separator = .ok rows := by
  intro always
  have kept := always "a\n\"\"" "," ',' [["a"]] ['\n'] (by decide) (by decide) (by decide) (.inl rfl)
  revert kept
  decide

theorem parseCsv_lineBreak_iff_quotedEmpty : (csvSeparator "," = .ok ',' ∧ parseCsv "a\n\"\"" ',' = .ok [["a"]]) ∧
      (parseCsv ("a\n\"\"" ++ String.ofList ['\n']) ',' = .ok [["a"]] ↔
        "a\n\"\"".toList ≠ [] ∧ "a\n\"\"".toList ≠ ['"', '"'] ∧ ¬ QuotedEmptyLast ',' "a\n\"\"".toList) :=
  have named : csvSeparator "," = .ok ',' := by decide
  have accepted : parseCsv "a\n\"\"" ',' = .ok [["a"]] := by decide
  ⟨⟨named, accepted⟩, parseCsv_lineBreak_iff named accepted (by decide) (.inl rfl)⟩

end BasicNext.Data
