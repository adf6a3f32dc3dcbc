import BasicNext.Frontend.Lexer
import BasicNext.Text.TemporalSlices
import Mathlib.Data.List.Induction
import Mathlib.Data.List.TakeWhile

/-!
# Classified tokens

`scan_classified_tokens` of the interactive session: it walks the bytes of a text, takes each for a character, and slices
a token out of the text in every turn.
-/

namespace BasicNext.Frontend.Session

open Text

inductive ClassifiedTokenKind where
  | keyword | identifier | number | string | comment | symbol | operator | special | newline | whitespace | other
deriving DecidableEq, Repr

/-- A token; its text stands as its bytes. -/
structure ClassifiedToken where
  kind : ClassifiedTokenKind
  text : List UInt8
  offset : Nat
  length : Nat
  line : Nat
  column : Nat
deriving DecidableEq, Repr

inductive Failure where
  | panics (panic : Panic)
  | outOfFuel
deriving DecidableEq, Repr

structure Place where
  offset : Nat
  line : Nat
  column : Nat
deriving DecidableEq, Repr

namespace Place

def forward (place : Place) (count : Nat) : Place := { place with
  offset := place.offset + count
  column := place.column + count }

/-- One byte inside of a comment or a string. -/
def advance (place : Place) (byte : UInt8) : Place :=
  if byte = byteOf '\n' then ⟨place.offset + 1, place.line + 1, 1⟩ else place.forward 1

end Place

structure Scanner where
  place : Place
  tokens : List ClassifiedToken
  incompleteReason : Option String
deriving DecidableEq, Repr

/-! ### Bytes as characters -/

/-- `(byte as char).is_whitespace()` -/
def isWhitespace (byte : UInt8) : Bool := (9 ≤ byte && byte ≤ 13) || byte == 32 || byte == 0x85 || byte == 0xA0

def isAlphabetic (byte : UInt8) : Bool :=
  (byteOf 'a' ≤ byte && byte ≤ byteOf 'z') || (byteOf 'A' ≤ byte && byte ≤ byteOf 'Z')

def isAlphanumeric (byte : UInt8) : Bool := isAlphabetic byte || isDigit byte

def isSpace (byte : UInt8) : Bool := isWhitespace byte && byte != byteOf '\n'

def isLine (byte : UInt8) : Bool := byte != byteOf '\n' && byte != byteOf '\r'

def isNumberPart (byte : UInt8) : Bool := isAlphanumeric byte || byte == byteOf '.'

def isWordPart (byte : UInt8) : Bool := isAlphanumeric byte || byte == byteOf '_'

def symbolKind (byte : UInt8) : ClassifiedTokenKind :=
  if "+-*/%^=<>".toList.any (byteOf · == byte) then .operator
  else if "()[],.:;".toList.any (byteOf · == byte) then .symbol
  else .other

variable (words : Words)

def isReservedWord (text : List UInt8) : Bool := words.reserved.any fun word => asBytes word == text

def wordKind (text : List UInt8) : ClassifiedTokenKind :=
  if isReservedWord words text then .keyword
  else if ["NULL", "NA", "EOF", "TRUE", "FALSE"].any fun word => asBytes word == text then .special
  else .identifier

/-! ### The inner loops -/

/-- The bytes in front of the first that does not belong. -/
def run (belongs : UInt8 → Bool) : List UInt8 → Place → Place
  | [], place => place
  | byte :: rest, place => if belongs byte then run belongs rest (place.forward 1) else place

/-- To behind the end of a block comment, if it has one. -/
def blockLoop : List UInt8 → Place → Option Place
  | byte :: next :: rest, place =>
    if byte = byteOf '*' ∧ next = byteOf '/' then some (place.forward 2)
    else blockLoop (next :: rest) (place.advance byte)
  | _, _ => none

/-- To behind the end of a string literal, if it has one. -/
def stringLoop : List UInt8 → Place → Option Place
  | [], _ => none
  | byte :: rest, place =>
    if byte = byteOf '"' then some (place.forward 1)
    else if byte = byteOf '\\' then
      match rest with
      | _ :: rest => stringLoop rest (place.forward 2)
      | [] => none
    else stringLoop rest (place.advance byte)

/-! ### Turns -/

variable (source : List UInt8)

/-- `source[start..stop]` -/
def slice (start stop : Nat) : Except Failure (List UInt8) :=
  if start ≤ stop ∧ isCharBoundary source start ∧ isCharBoundary source stop then .ok ((source.take stop).drop start)
  else .error (.panics .charBoundary)

def Scanner.push (kind : List UInt8 → ClassifiedTokenKind) (stop : Place) (scanner : Scanner) : Except Failure Scanner := do
  let start := scanner.place
  let text ← slice source start.offset stop.offset
  let token : ClassifiedToken := ⟨kind text, text, start.offset, stop.offset - start.offset, start.line, start.column⟩
  return { scanner with place := stop, tokens := scanner.tokens ++ [token] }

/-- Pushes a comment or a string, or all that is left if it has no end. -/
def Scanner.pushClosed (kind : ClassifiedTokenKind) (reason : String) (scanner : Scanner) :
    Option Place → Except Failure (Scanner × Bool)
  | some stop => do
    let scanner ← scanner.push source (fun _ => kind) stop
    return (scanner, true)
  | none => do
    let scanner := { scanner with incompleteReason := some reason }
    let scanner ← scanner.push source (fun _ => kind) { scanner.place with offset := source.length }
    return (scanner, false)

def Scanner.pushOpen (kind : List UInt8 → ClassifiedTokenKind) (stop : Place) (scanner : Scanner) :
    Except Failure (Scanner × Bool) := do
  let scanner ← scanner.push source kind stop
  return (scanner, true)

def Scanner.newline (scanner : Scanner) : Scanner :=
  let place := scanner.place
  { scanner with
    place := ⟨place.offset + 1, place.line + 1, 1⟩
    tokens := scanner.tokens ++ [⟨.newline, [byteOf '\n'], place.offset, 1, place.line, place.column⟩] }

/-- One turn of the outer loop, and whether there is another one. -/
def turn (scanner : Scanner) : Except Failure (Scanner × Bool) :=
  let place := scanner.place
  match source.drop place.offset with
  | [] => .ok (scanner, false)
  | byte :: rest =>
    if byte = byteOf '\n' then .ok (scanner.newline, true)
    else if isWhitespace byte then scanner.pushOpen source (fun _ => .whitespace) (run isSpace (byte :: rest) place)
    else if byte = byteOf '/' ∧ rest.head? = some (byteOf '/') then
      scanner.pushOpen source (fun _ => .comment) (run isLine (byte :: rest) place)
    else if byte = byteOf '/' ∧ rest.head? = some (byteOf '*') then
      scanner.pushClosed source .comment "comment" (blockLoop (rest.drop 1) (place.forward 2))
    else if byte = byteOf '"' then scanner.pushClosed source .string "string" (stringLoop rest (place.forward 1))
    else if isDigit byte then scanner.pushOpen source (fun _ => .number) (run isNumberPart (byte :: rest) place)
    else if isAlphabetic byte ∨ byte = byteOf '_' then
      scanner.pushOpen source (wordKind words) (run isWordPart (byte :: rest) place)
    else scanner.pushOpen source (fun _ => symbolKind byte) (place.forward 1)

def scanLoop : Nat → Scanner → Except Failure Scanner
  | fuel, scanner =>
    if source.length ≤ scanner.place.offset then .ok scanner
    else
      match fuel with
      | 0 => .error .outOfFuel
      | fuel + 1 => do
        let (scanner, continues) ← turn words source scanner
        if continues then scanLoop fuel scanner else return scanner

def scanClassifiedTokens (text : String) : Except Failure (List ClassifiedToken × Option String) := do
  let source := asBytes text
  let scanner ← scanLoop words source source.length ⟨⟨0, 1, 1⟩, [], none⟩
  return (scanner.tokens, scanner.incompleteReason)

end BasicNext.Frontend.Session

/-!
## Tokens partition their text

Outside of comments and string literals the scanner slices single bytes, so it panics at each character there that is more
than one byte long. With no such character its tokens are the text, piece after piece.
-/

namespace BasicNext.Frontend.Session

open Text Lib

/-! ### Comments and strings -/

/-- What a reader of characters is in. -/
inductive Mode where
  | code | line | opening | block | closing | string | escaped
deriving DecidableEq, Repr

def Mode.next : Mode → Char → Option Char → Mode
  | .code, c, following =>
    if c = '"' then .string
    else if c = '/' ∧ following = some '/' then .line
    else if c = '/' ∧ following = some '*' then .opening
    else .code
  | .line, c, _ => if c = '\n' ∨ c = '\r' then .code else .line
  | .opening, _, _ => .block
  | .block, c, following => if c = '*' ∧ following = some '/' then .closing else .block
  | .closing, _, _ => .code
  | .string, c, _ => if c = '"' then .code else if c = '\\' then .escaped else .string
  | .escaped, _, _ => .string

/-- Whether each character outside of comments and strings is one byte long. -/
def asciiOutside : Mode → List Char → Bool
  | _, [] => true
  | mode, c :: rest => (mode != .code || c.toNat < 128) && asciiOutside (mode.next c rest.head?) rest

/-- Each token stands behind those in front of it, between boundaries of the characters of its source. -/
def Placed (source : List UInt8) (tokens : List ClassifiedToken) : Prop :=
  ∀ before token after, tokens = before ++ token :: after →
    token.offset = (before.flatMap (·.text)).length ∧ token.length = token.text.length ∧
      isCharBoundary source token.offset = true ∧ isCharBoundary source (token.offset + token.length) = true

/-- Tokens that are a text, piece after piece. -/
structure Partitions (source : List UInt8) (tokens : List ClassifiedToken) : Prop where
  texts : tokens.flatMap (·.text) = source
  placed : Placed source tokens

/-! ### Bytes of characters -/

abbrev encode (characters : List Char) : List UInt8 := characters.flatMap String.utf8EncodeChar

variable {c d : Char} {cs before taken left : List Char} {first : UInt8} {rest : List UInt8} {place : Place}

theorem byteOf_inj (ascii : c.toNat < 128) (ascii' : d.toNat < 128) : byteOf c = byteOf d ↔ c = d := by
  constructor
  · intro same
    have values := congrArg UInt8.toNat same
    rw [toNat_byteOf, toNat_byteOf, Nat.mod_eq_of_lt (by omega), Nat.mod_eq_of_lt (by omega)] at values
    exact Char.toNat_inj.1 values
  · rintro rfl
    rfl

theorem byteOf_lt (ascii : d.toNat < 128) : byteOf d < 0x80 := by
  rw [UInt8.lt_iff_toNat_lt, toNat_byteOf, Nat.mod_eq_of_lt (by omega)]
  exact ascii

theorem utf8EncodeChar_high (high : ¬c.toNat < 128) : ∃ first second rest,
    String.utf8EncodeChar c = first :: second :: rest ∧ 0xC0 ≤ first ∧ startsChar second = false ∧
      ∀ byte ∈ first :: second :: rest, ¬byte < 0x80 := by
  have value : c.val.toNat = c.toNat := rfl
  have bound : c.toNat < 0x110000 := by
    have := c.valid
    simp only [UInt32.isValidChar, Nat.isValidChar] at this
    omega
  simp only [String.utf8EncodeChar, value, startsChar, Bool.or_eq_false_iff, decide_eq_false_iff_not,
    UInt8.lt_iff_toNat_lt, UInt8.le_iff_toNat_le, List.mem_cons, forall_eq_or_imp]
  split_ifs with one two three
  · omega
  · refine ⟨_, _, _, rfl, ?_, ?_, ?_⟩ <;> simp <;> omega
  · refine ⟨_, _, _, rfl, ?_, ?_, ?_⟩ <;> simp <;> omega
  · refine ⟨_, _, _, rfl, ?_, ?_, ?_⟩ <;> simp <;> omega

theorem ne_byteOf_of_high (high : ¬c.toNat < 128) (ascii : d.toNat < 128) :
    ∀ byte ∈ String.utf8EncodeChar c, byte ≠ byteOf d := by
  obtain ⟨first, second, rest, encoded, -, -, bytes⟩ := utf8EncodeChar_high high
  rw [encoded]
  rintro byte member rfl
  exact bytes _ member (byteOf_lt ascii)

theorem ne_byteOf (apart : c ≠ d) (ascii : d.toNat < 128) : ∀ byte ∈ String.utf8EncodeChar c, byte ≠ byteOf d := by
  by_cases low : c.toNat < 128
  · rw [utf8EncodeChar_ascii low]
    intro byte member same
    rw [List.mem_singleton.1 member] at same
    exact apart ((byteOf_inj low ascii).1 same)
  · exact ne_byteOf_of_high low ascii

theorem head?_encode (ascii : d.toNat < 128) : (encode cs).head? = some (byteOf d) ↔ cs.head? = some d := by
  cases cs with
  | nil => exact iff_of_false (Option.some_ne_none _).symm (Option.some_ne_none _).symm
  | cons c cs =>
    rw [List.head?_cons, Option.some.injEq, encode, List.flatMap_cons]
    by_cases same : c = d
    · rw [same, utf8EncodeChar_ascii ascii]
      exact iff_of_true rfl rfl
    · obtain ⟨first, rest, encoded, -⟩ := utf8EncodeChar_cases c
      refine iff_of_false ?_ same
      intro head
      rw [encoded] at head
      exact ne_byteOf same ascii first (encoded ▸ List.mem_cons_self) (Option.some.inj head)

theorem encode_cons_ascii (ascii : c.toNat < 128) : encode (c :: cs) = byteOf c :: encode cs := by
  rw [encode, List.flatMap_cons, utf8EncodeChar_ascii ascii]
  rfl

theorem encode_cons : encode (c :: cs) = String.utf8EncodeChar c ++ encode cs := List.flatMap_cons

theorem encode_append : encode (before ++ left) = encode before ++ encode left := List.flatMap_append

theorem encode_eq_nil : encode cs = [] ↔ cs = [] := by
  cases cs with
  | nil => exact iff_of_true rfl rfl
  | cons c cs =>
    obtain ⟨first, rest, encoded, -⟩ := utf8EncodeChar_cases c
    rw [encode, List.flatMap_cons, encoded]
    exact iff_of_false (List.cons_ne_nil _ _) (List.cons_ne_nil _ _)

theorem isCharBoundary_encode : isCharBoundary (encode (before ++ left)) (encode before).length = true := by
  rw [encode_append]
  cases left with
  | nil =>
    show isCharBoundary (encode before ++ []) (encode before).length = true
    rw [List.append_nil]
    exact isCharBoundary_length
  | cons c left =>
    obtain ⟨first, rest, encoded, starts, -⟩ := utf8EncodeChar_cases c
    unfold isCharBoundary
    rw [List.getElem?_append_right (Nat.le_refl _), Nat.sub_self, encode, List.flatMap_cons, encoded]
    simp [starts]

theorem not_isCharBoundary_encode (high : ¬c.toNat < 128) :
    isCharBoundary (encode (before ++ c :: left)) ((encode before).length + 1) = false := by
  obtain ⟨first, second, rest, encoded, -, inside, -⟩ := utf8EncodeChar_high high
  rw [encode_append]
  unfold isCharBoundary
  rw [List.getElem?_append_right (Nat.le_add_right _ _), Nat.add_sub_cancel_left, encode, List.flatMap_cons, encoded]
  simp [inside]

/-! ### The inner loops -/

theorem run_encode {belongs : UInt8 → Bool} {member : Char → Bool}
    (inside : ∀ c, member c = true → ∀ byte ∈ String.utf8EncodeChar c, belongs byte = true)
    (outside : ∀ c, member c = false → ∃ first rest, String.utf8EncodeChar c = first :: rest ∧ belongs first = false)
    (cs : List Char) (place : Place) :
    (run belongs (encode cs) place).offset = place.offset + (encode (cs.takeWhile member)).length := by
  have passes (bytes : List UInt8) (all : ∀ byte ∈ bytes, belongs byte = true) (rest : List UInt8) (place : Place) :
      ∃ place', place'.offset = place.offset + bytes.length ∧ run belongs (bytes ++ rest) place = run belongs rest place' := by
    induction bytes generalizing place with
    | nil => exact ⟨place, rfl, rfl⟩
    | cons byte bytes ih =>
      obtain ⟨place', moved, same⟩ := ih (fun other later => all other (List.mem_cons_of_mem _ later)) (place.forward 1)
      refine ⟨place', ?_, ?_⟩
      · rw [moved, List.length_cons]
        show place.offset + 1 + bytes.length = _
        omega
      · rw [List.cons_append, run, if_pos (all byte List.mem_cons_self), same]
  induction cs generalizing place with
  | nil => rfl
  | cons c cs ih =>
    cases belongs' : member c with
    | true =>
      obtain ⟨place', moved, same⟩ := passes _ (inside c belongs') (encode cs) place
      rw [List.takeWhile_cons_of_pos belongs', encode_cons, same, ih, moved, encode_cons, List.length_append]
      omega
    | false =>
      obtain ⟨first, rest, encoded, apart⟩ := outside c belongs'
      rw [List.takeWhile_cons_of_neg (Bool.eq_false_iff.1 belongs'), encode_cons, encoded, List.cons_append, run, apart]
      rfl

/-- The ASCII characters whose byte belongs. -/
def isMember (belongs : UInt8 → Bool) (c : Char) : Bool := decide (c.toNat < 128) && belongs (byteOf c)

/-- The characters of a line comment. -/
def staysOnLine (c : Char) : Bool := c != '\n' && c != '\r'

theorem run_ascii {belongs : UInt8 → Bool} (starts : ∀ byte, 0xC0 ≤ byte → belongs byte = false) (cs : List Char)
    (place : Place) : (run belongs (encode cs) place).offset =
      place.offset + (encode (cs.takeWhile (isMember belongs))).length := by
  apply run_encode
  · intro c member byte listed
    obtain ⟨ascii, inside⟩ := (Bool.and_eq_true _ _).mp member
    rw [utf8EncodeChar_ascii (of_decide_eq_true ascii)] at listed
    rwa [List.mem_singleton.1 listed]
  · intro c apart
    by_cases ascii : c.toNat < 128
    · refine ⟨byteOf c, [], utf8EncodeChar_ascii ascii, ?_⟩
      rwa [isMember, decide_eq_true ascii, Bool.true_and] at apart
    · obtain ⟨first, second, rest, encoded, high, -⟩ := utf8EncodeChar_high ascii
      exact ⟨first, second :: rest, encoded, starts first high⟩

theorem run_line (cs : List Char) (place : Place) : (run isLine (encode cs) place).offset =
    place.offset + (encode (cs.takeWhile staysOnLine)).length := by
  apply run_encode
  · intro c member byte listed
    obtain ⟨noFeed, noReturn⟩ := (Bool.and_eq_true _ _).mp member
    unfold isLine
    rw [Bool.and_eq_true, bne_iff_ne, bne_iff_ne]
    exact ⟨ne_byteOf (bne_iff_ne.1 noFeed) (by decide) byte listed, ne_byteOf (bne_iff_ne.1 noReturn) (by decide) byte listed⟩
  · intro c ends
    rw [staysOnLine, Bool.and_eq_false_iff, bne_eq_false_iff_eq, bne_eq_false_iff_eq] at ends
    rcases ends with rfl | rfl
    · exact ⟨_, _, utf8EncodeChar_ascii (by decide), by decide⟩
    · exact ⟨_, _, utf8EncodeChar_ascii (by decide), by decide⟩

/-- What a loop for a comment or a string comes to: its end, behind which code follows, or no end. -/
structure Closes (mode : Mode) (cs : List Char) (place : Place) (result : Option Place) : Prop where
  closed : ∀ stop, result = some stop → ∃ taken left, cs = taken ++ left ∧ taken ≠ [] ∧
    stop.offset = place.offset + (encode taken).length ∧ asciiOutside mode cs = asciiOutside .code left
  unclosed : result = none → asciiOutside mode cs = true

theorem Closes.cons {mode mode' : Mode} {place' : Place} {result : Option Place} (closes : Closes mode' cs place' result)
    (moved : place'.offset = place.offset + (String.utf8EncodeChar c).length)
    (same : asciiOutside mode (c :: cs) = asciiOutside mode' cs) : Closes mode (c :: cs) place result := by
  constructor
  · intro stop found
    obtain ⟨taken, left, rfl, _, offset, outside⟩ := closes.closed stop found
    refine ⟨c :: taken, left, rfl, List.cons_ne_nil _ _, ?_, same.trans outside⟩
    rw [offset, moved, encode_cons, List.length_append, Nat.add_assoc]
  · intro nothing
    rw [same]
    exact closes.unclosed nothing

theorem offset_advance (byte : UInt8) : (place.advance byte).offset = place.offset + 1 := by
  unfold Place.advance
  split
  · rfl
  · rfl

theorem blockLoop_skip {bytes : List UInt8} (plain : ∀ byte ∈ bytes, byte ≠ byteOf '*') (rest : List UInt8)
    (place : Place) : ∃ place', place'.offset = place.offset + bytes.length ∧
      blockLoop (bytes ++ rest) place = blockLoop rest place' := by
  induction bytes generalizing place with
  | nil => exact ⟨place, rfl, rfl⟩
  | cons byte bytes ih =>
    obtain ⟨place', moved, same⟩ := ih (fun other later => plain other (List.mem_cons_of_mem _ later)) (place.advance byte)
    refine ⟨place', ?_, ?_⟩
    · rw [moved, offset_advance, List.length_cons]
      omega
    · rw [← same, List.cons_append]
      cases more : bytes ++ rest with
      | nil => rfl
      | cons next more => rw [blockLoop, if_neg fun star => plain byte List.mem_cons_self star.1]

theorem blockLoop_character (stays : ¬(c = '*' ∧ cs.head? = some '/')) (place : Place) :
    ∃ place', place'.offset = place.offset + (String.utf8EncodeChar c).length ∧
      blockLoop (encode (c :: cs)) place = blockLoop (encode cs) place' := by
  by_cases star : c = '*'
  · subst star
    have noSlash : (encode cs).head? ≠ some (byteOf '/') := fun head =>
      stays ⟨rfl, (head?_encode (by decide)).1 head⟩
    rw [encode_cons_ascii (by decide)]
    refine ⟨place.advance (byteOf '*'), offset_advance _, ?_⟩
    cases more : encode cs with
    | nil => rfl
    | cons next more' =>
      rw [more, List.head?_cons, ne_eq, Option.some.injEq] at noSlash
      rw [blockLoop, if_neg fun slash => noSlash slash.2]
  · exact blockLoop_skip (ne_byteOf star (by decide)) (encode cs) place

theorem blockLoop_closes (cs : List Char) (place : Place) : Closes .block cs place (blockLoop (encode cs) place) := by
  induction cs generalizing place with
  | nil =>
    refine ⟨fun stop found => ?_, fun _ => rfl⟩
    cases found
  | cons c cs ih =>
    by_cases ends : c = '*' ∧ cs.head? = some '/'
    · obtain ⟨rfl, slash⟩ := ends
      obtain ⟨cs, rfl⟩ := List.head?_eq_some_iff.1 slash
      rw [encode_cons_ascii (by decide), encode_cons_ascii (by decide), blockLoop, if_pos ⟨rfl, rfl⟩]
      refine ⟨fun stop found => ?_, fun nothing => ?_⟩
      · cases found
        exact ⟨['*', '/'], cs, rfl, List.cons_ne_nil _ _, rfl, rfl⟩
      · cases nothing
    · obtain ⟨place', moved, same⟩ := blockLoop_character ends place
      rw [same]
      refine (ih place').cons moved ?_
      rw [asciiOutside, Mode.next, if_neg ends]
      rfl

theorem stringLoop_quote : stringLoop (byteOf '"' :: rest) place = some (place.forward 1) := by
  rw [stringLoop.eq_def]
  rfl

theorem stringLoop_plain {byte : UInt8} (noQuote : byte ≠ byteOf '"') (noEscape : byte ≠ byteOf '\\') :
    stringLoop (byte :: rest) place = stringLoop rest (place.advance byte) := by
  rw [stringLoop.eq_def]
  dsimp only
  rw [if_neg noQuote, if_neg noEscape]

theorem stringLoop_escape {byte : UInt8} :
    stringLoop (byteOf '\\' :: byte :: rest) place = stringLoop rest (place.forward 2) := by
  rw [stringLoop.eq_def]
  rfl

theorem stringLoop_skip {bytes : List UInt8} (plain : ∀ byte ∈ bytes, byte ≠ byteOf '"' ∧ byte ≠ byteOf '\\')
    (rest : List UInt8) (place : Place) : ∃ place', place'.offset = place.offset + bytes.length ∧
      stringLoop (bytes ++ rest) place = stringLoop rest place' := by
  induction bytes generalizing place with
  | nil => exact ⟨place, rfl, rfl⟩
  | cons byte bytes ih =>
    obtain ⟨place', moved, same⟩ := ih (fun other later => plain other (List.mem_cons_of_mem _ later)) (place.advance byte)
    obtain ⟨noQuote, noEscape⟩ := plain byte List.mem_cons_self
    refine ⟨place', ?_, ?_⟩
    · rw [moved, offset_advance, List.length_cons]
      omega
    · rw [← same, List.cons_append, stringLoop_plain noQuote noEscape]

theorem stringLoop_nil (place : Place) : Closes .string [] place (stringLoop (encode []) place) := by
  refine ⟨fun stop found => ?_, fun _ => rfl⟩
  cases found

theorem stringLoop_character (noEscape : c ≠ '\\')
    (later : ∀ place, Closes .string cs place (stringLoop (encode cs) place)) (place : Place) :
    Closes .string (c :: cs) place (stringLoop (encode (c :: cs)) place) := by
  by_cases quote : c = '"'
  · subst quote
    rw [encode_cons_ascii (by decide), stringLoop_quote]
    refine ⟨fun stop found => ?_, fun nothing => ?_⟩
    · cases found
      exact ⟨['"'], cs, rfl, List.cons_ne_nil _ _, rfl, rfl⟩
    · cases nothing
  · have plain : ∀ byte ∈ String.utf8EncodeChar c, byte ≠ byteOf '"' ∧ byte ≠ byteOf '\\' := fun byte member =>
      ⟨ne_byteOf quote (by decide) byte member, ne_byteOf noEscape (by decide) byte member⟩
    obtain ⟨place', moved, same⟩ := stringLoop_skip plain (encode cs) place
    rw [encode_cons, same]
    refine (later place').cons moved ?_
    rw [asciiOutside, Mode.next, if_neg quote, if_neg noEscape]
    rfl

theorem utf8EncodeChar_plain (c : Char) : ∃ first rest, String.utf8EncodeChar c = first :: rest ∧
    ∀ byte ∈ rest, byte ≠ byteOf '"' ∧ byte ≠ byteOf '\\' := by
  by_cases ascii : c.toNat < 128
  · exact ⟨byteOf c, [], utf8EncodeChar_ascii ascii, fun _ member => absurd member List.not_mem_nil⟩
  · obtain ⟨first, second, rest, encoded, -⟩ := utf8EncodeChar_high ascii
    refine ⟨first, second :: rest, encoded, fun byte member => ?_⟩
    have listed : byte ∈ String.utf8EncodeChar c := encoded ▸ List.mem_cons_of_mem _ member
    exact ⟨ne_byteOf_of_high ascii (by decide) byte listed, ne_byteOf_of_high ascii (by decide) byte listed⟩

theorem stringLoop_closes (cs : List Char) (place : Place) : Closes .string cs place (stringLoop (encode cs) place) := by
  induction cs using List.twoStepInduction generalizing place with
  | nil => exact stringLoop_nil place
  | singleton c =>
    by_cases escape : c = '\\'
    · subst escape
      refine ⟨fun stop found => ?_, fun _ => rfl⟩
      cases found
    · exact stringLoop_character escape stringLoop_nil place
  | cons_cons c d cs ih ih' =>
    by_cases escape : c = '\\'
    · subst escape
      obtain ⟨first, rest, encoded, plain⟩ := utf8EncodeChar_plain d
      obtain ⟨place', moved, same⟩ := stringLoop_skip plain (encode cs) (place.forward 2)
      rw [encode_cons_ascii (by decide), encode_cons, encoded, List.cons_append, stringLoop_escape, same]
      have behind : Closes .escaped (d :: cs) (place.forward 1) (stringLoop (encode cs) place') := by
        refine (ih place').cons ?_ rfl
        rw [moved, encoded, List.length_cons]
        show place.offset + 2 + rest.length = place.offset + 1 + (rest.length + 1)
        omega
      exact behind.cons rfl rfl
    · exact stringLoop_character escape (ih' d) place

/-! ### Turns -/

/-- A scanner between two turns: its tokens are what is before it. -/
structure Stands (source : List UInt8) (before left : List Char) (scanner : Scanner) : Prop where
  whole : source = encode (before ++ left)
  offset : scanner.place.offset = (encode before).length
  texts : scanner.tokens.flatMap (·.text) = encode before
  placed : Placed source scanner.tokens

variable {source : List UInt8} {scanner : Scanner}

theorem Stands.token (stands : Stands source before (taken ++ left) scanner) (kind : ClassifiedTokenKind) (stop : Place)
    (moved : stop.offset = scanner.place.offset + (encode taken).length) (line column : Nat) :
    Stands source (before ++ taken) left { scanner with
      place := stop
      tokens := scanner.tokens ++ [⟨kind, encode taken, scanner.place.offset, (encode taken).length, line, column⟩] } := by
  have same : source = encode (before ++ taken ++ left) := by rw [List.append_assoc, ← stands.whole]
  refine ⟨same, ?_, ?_, ?_⟩
  · show stop.offset = _
    rw [moved, stands.offset, encode_append, List.length_append]
  · show (scanner.tokens ++ _).flatMap _ = _
    rw [List.flatMap_append, stands.texts, encode_append, List.flatMap_singleton]
  · intro front token after shape
    rcases List.eq_nil_or_concat after with rfl | ⟨after, last, rfl⟩
    · obtain ⟨rfl, single⟩ := List.append_inj' shape rfl
      obtain rfl := (List.cons.inj single).1
      refine ⟨?_, rfl, ?_, ?_⟩
      · rw [stands.texts, stands.offset]
      · show isCharBoundary source scanner.place.offset = true
        rw [stands.whole, stands.offset]
        exact isCharBoundary_encode
      · show isCharBoundary source (scanner.place.offset + (encode taken).length) = true
        rw [same, stands.offset, ← List.length_append, ← encode_append]
        exact isCharBoundary_encode
    · rw [List.concat_eq_append, ← List.cons_append, ← List.append_assoc] at shape
      exact stands.placed front token after (List.append_inj' shape rfl).1

theorem Stands.slice_eq (stands : Stands source before (taken ++ left) scanner) :
    slice source scanner.place.offset (scanner.place.offset + (encode taken).length) = .ok (encode taken) := by
  have same : source = encode (before ++ taken ++ left) := by rw [List.append_assoc, ← stands.whole]
  unfold slice
  rw [if_pos]
  · rw [same, encode_append, stands.offset, ← List.length_append, ← encode_append, List.take_left, encode_append,
      List.drop_left]
  · refine ⟨Nat.le_add_right _ _, ?_, ?_⟩
    · rw [stands.whole, stands.offset]
      exact isCharBoundary_encode
    · rw [same, stands.offset, ← List.length_append, ← encode_append]
      exact isCharBoundary_encode

theorem Stands.push_eq (stands : Stands source before (taken ++ left) scanner)
    (kind : List UInt8 → ClassifiedTokenKind) {stop : Place}
    (moved : stop.offset = scanner.place.offset + (encode taken).length) :
    ∃ scanner', scanner.push source kind stop = .ok scanner' ∧ Stands source (before ++ taken) left scanner' := by
  refine ⟨_, ?_, stands.token (kind (encode taken)) stop moved scanner.place.line scanner.place.column⟩
  unfold Scanner.push
  dsimp only
  rw [moved, stands.slice_eq, Nat.add_sub_cancel_left]
  rfl

/-- What a turn in front of some characters does: it takes the first of them, and their reader is outside again. -/
structure Turned (source : List UInt8) (before cs : List Char) (result : Except Failure (Scanner × Bool)) : Prop where
  taken : ∃ taken left scanner' continues, result = .ok (scanner', continues) ∧ cs = taken ++ left ∧ taken ≠ [] ∧
    Stands source (before ++ taken) left scanner' ∧ asciiOutside .code cs = asciiOutside .code left ∧
    (continues = false → left = [])

theorem Stands.pushOpen (stands : Stands source before (taken ++ left) scanner) (nonempty : taken ≠ [])
    (kind : List UInt8 → ClassifiedTokenKind) {stop : Place}
    (moved : stop.offset = scanner.place.offset + (encode taken).length)
    (outside : asciiOutside .code (taken ++ left) = asciiOutside .code left) :
    Turned source before (taken ++ left) (scanner.pushOpen source kind stop) := by
  obtain ⟨scanner', pushed, stands'⟩ := stands.push_eq kind moved
  refine ⟨taken, left, scanner', true, ?_, rfl, nonempty, stands', outside, fun last => Bool.noConfusion last⟩
  unfold Scanner.pushOpen
  rw [pushed]
  rfl

theorem Stands.pushClosed (stands : Stands source before (c :: cs) scanner) (kind : ClassifiedTokenKind) (reason : String)
    {result : Option Place} (closes : Closes .code (c :: cs) scanner.place result) :
    Turned source before (c :: cs) (scanner.pushClosed source kind reason result) := by
  cases result with
  | some stop =>
    obtain ⟨taken, left, split, nonempty, moved, outside⟩ := closes.closed stop rfl
    rw [split] at stands outside ⊢
    exact stands.pushOpen nonempty (fun _ => kind) moved outside
  | none =>
    have reasoned : Stands source before ((c :: cs) ++ []) { scanner with incompleteReason := some reason } := by
      rw [List.append_nil]
      exact ⟨stands.whole, stands.offset, stands.texts, stands.placed⟩
    let stop : Place := { scanner.place with offset := source.length }
    have moved : stop.offset = scanner.place.offset + (encode (c :: cs)).length := by
      show source.length = _
      rw [stands.offset, ← List.length_append, ← encode_append, ← stands.whole]
    obtain ⟨scanner', pushed, stands'⟩ := reasoned.push_eq (fun _ => kind) moved
    refine ⟨c :: cs, [], scanner', false, ?_, (List.append_nil _).symm, List.cons_ne_nil _ _, stands',
      closes.unclosed rfl, fun _ => rfl⟩
    unfold Scanner.pushClosed
    dsimp only
    rw [pushed]
    rfl

theorem asciiOutside_append (plain : ∀ c ∈ taken, c.toNat < 128 ∧ c ≠ '"' ∧ c ≠ '/') :
    asciiOutside .code (taken ++ left) = asciiOutside .code left := by
  induction taken with
  | nil => rfl
  | cons c taken ih =>
    obtain ⟨ascii, noQuote, noSlash⟩ := plain c List.mem_cons_self
    rw [List.cons_append, asciiOutside, Mode.next, if_neg noQuote, if_neg fun slash => noSlash slash.1,
      if_neg fun slash => noSlash slash.1, ih fun other later => plain other (List.mem_cons_of_mem _ later),
      decide_eq_true ascii]
    rfl

theorem Stands.run (stands : Stands source before (c :: cs) scanner) (kind : List UInt8 → ClassifiedTokenKind)
    {belongs : UInt8 → Bool} (starts : ∀ byte, 0xC0 ≤ byte → belongs byte = false)
    (noQuote : belongs (byteOf '"') = false) (noSlash : belongs (byteOf '/') = false) (ascii : c.toNat < 128)
    (first : belongs (byteOf c) = true) :
    Turned source before (c :: cs) (scanner.pushOpen source kind (run belongs (encode (c :: cs)) scanner.place)) := by
  have moved := run_ascii starts (c :: cs) scanner.place
  have split := List.takeWhile_append_dropWhile (p := isMember belongs) (l := c :: cs)
  have nonempty : (c :: cs).takeWhile (isMember belongs) ≠ [] := by
    rw [List.takeWhile_cons_of_pos (by rw [isMember, decide_eq_true ascii, first]; rfl)]
    exact List.cons_ne_nil _ _
  have plain : ∀ d ∈ (c :: cs).takeWhile (isMember belongs), d.toNat < 128 ∧ d ≠ '"' ∧ d ≠ '/' := by
    intro d member
    have belongs' : isMember belongs d = true := List.mem_takeWhile_imp member
    obtain ⟨low, inside⟩ := (Bool.and_eq_true _ _).mp belongs'
    refine ⟨of_decide_eq_true low, ?_, ?_⟩
    · rintro rfl
      rw [noQuote] at inside
      cases inside
    · rintro rfl
      rw [noSlash] at inside
      cases inside
  rw [← split] at stands
  have turned := stands.pushOpen nonempty kind moved (asciiOutside_append plain)
  rwa [split] at turned

theorem asciiOutside_line (cs : List Char) :
    asciiOutside .line cs = asciiOutside .code (cs.dropWhile staysOnLine) := by
  induction cs with
  | nil => rfl
  | cons c cs ih =>
    by_cases ends : c = '\n' ∨ c = '\r'
    · have stays : ¬staysOnLine c = true := by
        rcases ends with rfl | rfl <;> decide
      rw [List.dropWhile_cons_of_neg stays, asciiOutside, Mode.next, if_pos ends]
      rcases ends with rfl | rfl <;> rfl
    · have goes : staysOnLine c = true := by
        rw [not_or] at ends
        rw [staysOnLine, Bool.and_eq_true, bne_iff_ne, bne_iff_ne]
        exact ends
      rw [List.dropWhile_cons_of_pos goes, ← ih, asciiOutside, Mode.next, if_neg ends]
      rfl

theorem unknown_of_high {byte : UInt8} (high : 0xC0 ≤ byte) : isWhitespace byte = false ∧ isDigit byte = false ∧
    isAlphabetic byte = false := by
  rw [UInt8.le_iff_toNat_le] at high
  simp only [isWhitespace, isDigit, isAlphabetic, UInt8.le_iff_toNat_le, toNat_byteOf, Bool.or_eq_false_iff,
    Bool.and_eq_false_iff, decide_eq_false_iff_not, beq_eq_false_iff_ne, ne_eq, ← UInt8.toNat_inj] at high ⊢
  simp at high ⊢
  omega

theorem ne_byteOf_of_le {byte : UInt8} (high : 0xC0 ≤ byte) (ascii : d.toNat < 128) : byte ≠ byteOf d := by
  rintro rfl
  have low := byteOf_lt ascii
  rw [UInt8.le_iff_toNat_le] at high
  rw [UInt8.lt_iff_toNat_lt] at low
  simp at high low
  omega

theorem drop_source (stands : Stands source before left scanner) : source.drop scanner.place.offset = encode left := by
  rw [stands.whole, stands.offset, encode_append, List.drop_left]

theorem turn_high (words : Words) (stands : Stands source before (c :: cs) scanner) (high : ¬c.toNat < 128) :
    turn words source scanner = .error (.panics .charBoundary) := by
  obtain ⟨first, second, rest, encoded, starts, -, bytes⟩ := utf8EncodeChar_high high
  have apart {d : Char} (ascii : d.toNat < 128) : first ≠ byteOf d :=
    ne_byteOf_of_high high ascii first (encoded ▸ List.mem_cons_self)
  obtain ⟨noSpace, noDigit, noLetter⟩ := unknown_of_high starts
  have boundary : isCharBoundary source (scanner.place.offset + 1) = false := by
    rw [stands.whole, stands.offset]
    exact not_isCharBoundary_encode high
  unfold turn
  dsimp only
  rw [drop_source stands, encode_cons, encoded, List.cons_append]
  dsimp only
  rw [if_neg (apart (by decide)), noSpace, if_neg Bool.false_ne_true, if_neg fun slash => apart (by decide) slash.1,
    if_neg fun slash => apart (by decide) slash.1, if_neg (apart (by decide)), noDigit, if_neg Bool.false_ne_true, noLetter,
    if_neg fun letter => letter.elim Bool.false_ne_true (apart (by decide))]
  unfold Scanner.pushOpen Scanner.push
  dsimp only [Place.forward]
  rw [slice, if_neg fun all => Bool.false_ne_true (boundary.symm.trans all.2.2)]
  rfl

theorem Stands.newline (stands : Stands source before ('\n' :: cs) scanner) :
    Turned source before ('\n' :: cs) (.ok (scanner.newline, true)) := by
  have one : Stands source before (['\n'] ++ cs) scanner := stands
  exact ⟨['\n'], cs, scanner.newline, true, rfl, rfl, List.cons_ne_nil _ _,
    one.token .newline _ rfl scanner.place.line scanner.place.column, rfl, fun last => Bool.noConfusion last⟩

theorem Stands.lineComment (stands : Stands source before ('/' :: '/' :: cs) scanner) :
    Turned source before ('/' :: '/' :: cs)
      (scanner.pushOpen source (fun _ => .comment) (Session.run isLine (encode ('/' :: '/' :: cs)) scanner.place)) := by
  have moved := run_line ('/' :: '/' :: cs) scanner.place
  have split := List.takeWhile_append_dropWhile (p := staysOnLine) (l := '/' :: '/' :: cs)
  have outside : asciiOutside .code ('/' :: '/' :: cs) = asciiOutside .code (('/' :: '/' :: cs).dropWhile staysOnLine) :=
    (asciiOutside_line ('/' :: '/' :: cs))
  rw [← split] at stands
  have turned := stands.pushOpen (List.cons_ne_nil _ _) (fun _ => .comment) moved (by rw [split]; exact outside)
  rwa [split] at turned

theorem turn_ascii (words : Words) (stands : Stands source before (c :: cs) scanner) (ascii : c.toNat < 128) :
    Turned source before (c :: cs) (turn words source scanner) := by
  have slashes {d : Char} (ascii' : d.toNat < 128) :
      (byteOf c = byteOf '/' ∧ (encode cs).head? = some (byteOf d)) ↔ c = '/' ∧ cs.head? = some d := by
    rw [byteOf_inj ascii (by decide), head?_encode ascii']
  unfold turn
  dsimp only
  rw [drop_source stands, encode_cons_ascii ascii]
  dsimp only
  by_cases newline : byteOf c = byteOf '\n'
  · rw [if_pos newline]
    obtain rfl := (byteOf_inj ascii (by decide)).1 newline
    exact stands.newline
  rw [if_neg newline]
  by_cases space : isWhitespace (byteOf c) = true
  · have first : isSpace (byteOf c) = true := by
      rw [isSpace, space, bne_iff_ne.2 newline]
      rfl
    rw [if_pos space, ← encode_cons_ascii ascii]
    refine stands.run _ ?_ rfl rfl ascii first
    intro byte high
    rw [isSpace, (unknown_of_high high).1]
    rfl
  rw [if_neg space]
  by_cases line : c = '/' ∧ cs.head? = some '/'
  · rw [if_pos ((slashes (by decide)).2 line), ← encode_cons_ascii ascii]
    obtain ⟨rfl, next⟩ := line
    obtain ⟨cs, rfl⟩ := List.head?_eq_some_iff.1 next
    exact stands.lineComment
  rw [if_neg fun both => line ((slashes (by decide)).1 both)]
  by_cases block : c = '/' ∧ cs.head? = some '*'
  · rw [if_pos ((slashes (by decide)).2 block)]
    obtain ⟨rfl, next⟩ := block
    obtain ⟨cs, rfl⟩ := List.head?_eq_some_iff.1 next
    have closes := blockLoop_closes cs (scanner.place.forward 2)
    have opening : Closes .opening ('*' :: cs) (scanner.place.forward 1) (blockLoop (encode cs) (scanner.place.forward 2)) :=
      closes.cons rfl rfl
    rw [encode_cons_ascii (by decide)]
    exact stands.pushClosed .comment "comment" (opening.cons rfl rfl)
  rw [if_neg fun both => block ((slashes (by decide)).1 both)]
  by_cases quote : byteOf c = byteOf '"'
  · rw [if_pos quote]
    obtain rfl := (byteOf_inj ascii (by decide)).1 quote
    exact stands.pushClosed .string "string" ((stringLoop_closes cs (scanner.place.forward 1)).cons rfl rfl)
  rw [if_neg quote]
  by_cases digit : isDigit (byteOf c) = true
  · have first : isNumberPart (byteOf c) = true := by
      rw [isNumberPart, isAlphanumeric, digit, Bool.or_true, Bool.true_or]
    rw [if_pos digit, ← encode_cons_ascii ascii]
    refine stands.run _ ?_ rfl rfl ascii first
    intro byte high
    obtain ⟨-, noDigit, noLetter⟩ := unknown_of_high high
    rw [isNumberPart, isAlphanumeric, noDigit, noLetter, beq_eq_false_iff_ne.2 (ne_byteOf_of_le high (by decide))]
    rfl
  rw [if_neg digit]
  by_cases letter : isAlphabetic (byteOf c) = true ∨ byteOf c = byteOf '_'
  · have first : isWordPart (byteOf c) = true := by
      rcases letter with letter | underscore
      · rw [isWordPart, isAlphanumeric, letter, Bool.true_or, Bool.true_or]
      · rw [isWordPart, underscore, beq_self_eq_true, Bool.or_true]
    rw [if_pos letter, ← encode_cons_ascii ascii]
    refine stands.run _ ?_ rfl rfl ascii first
    intro byte high
    obtain ⟨-, noDigit, noLetter⟩ := unknown_of_high high
    rw [isWordPart, isAlphanumeric, noDigit, noLetter, beq_eq_false_iff_ne.2 (ne_byteOf_of_le high (by decide))]
    rfl
  rw [if_neg letter]
  have moved : (scanner.place.forward 1).offset = scanner.place.offset + (encode [c]).length := by
    rw [encode_cons_ascii ascii]
    rfl
  have one : Stands source before ([c] ++ cs) scanner := stands
  refine one.pushOpen (List.cons_ne_nil _ _) _ moved ?_
  have noQuote : c ≠ '"' := fun same => quote (congrArg byteOf same)
  rw [List.singleton_append, asciiOutside, Mode.next, if_neg noQuote, if_neg line, if_neg block, decide_eq_true ascii]
  rfl

/-! ### Runs -/

theorem Stands.length_le (stands : Stands source before left scanner) :
    source.length ≤ scanner.place.offset ↔ left = [] := by
  rw [stands.whole, stands.offset, encode_append, List.length_append, ← encode_eq_nil, ← List.length_eq_zero_iff]
  omega

theorem scanLoop_eq (words : Words) (stands : Stands source before left scanner) {fuel : Nat} (enough : left.length ≤ fuel) :
    (asciiOutside .code left = true → ∃ scanner', scanLoop words source fuel scanner = .ok scanner' ∧
      Stands source (before ++ left) [] scanner') ∧
    (asciiOutside .code left = false → scanLoop words source fuel scanner = .error (.panics .charBoundary)) := by
  induction fuel generalizing before left scanner with
  | zero =>
    obtain rfl := List.eq_nil_of_length_eq_zero (Nat.le_zero.1 enough)
    refine ⟨fun _ => ⟨scanner, ?_, ?_⟩, fun outside => Bool.noConfusion outside⟩
    · rw [scanLoop, if_pos (stands.length_le.2 rfl)]
    · rwa [List.append_nil]
  | succ fuel ih =>
    cases left with
    | nil =>
      refine ⟨fun _ => ⟨scanner, ?_, ?_⟩, fun outside => Bool.noConfusion outside⟩
      · rw [scanLoop, if_pos (stands.length_le.2 rfl)]
      · rwa [List.append_nil]
    | cons c cs =>
      have more : ¬source.length ≤ scanner.place.offset := fun ends => List.cons_ne_nil _ _ (stands.length_le.1 ends)
      rw [scanLoop, if_neg more]
      by_cases ascii : c.toNat < 128
      · obtain ⟨taken, left, scanner', continues, turned, split, nonempty, stands', outside, last⟩ :=
          (turn_ascii words stands ascii).taken
        have shorter : left.length ≤ fuel := by
          have total := congrArg List.length split
          have some_ := List.length_pos_of_ne_nil nonempty
          rw [List.length_append] at total
          omega
        obtain ⟨taken_, panics⟩ := ih stands' shorter
        rw [outside, turned, split, ← List.append_assoc]
        cases continues with
        | true => exact ⟨taken_, panics⟩
        | false =>
          obtain rfl := last rfl
          refine ⟨fun _ => ⟨scanner', rfl, ?_⟩, fun inside => ?_⟩
          · rwa [List.append_nil]
          · cases inside
      · refine ⟨fun outside => ?_, fun _ => ?_⟩
        · rw [asciiOutside, decide_eq_false ascii] at outside
          cases outside
        · rw [turn_high words stands ascii]
          rfl

theorem length_le_encode (cs : List Char) : cs.length ≤ (encode cs).length := by
  induction cs with
  | nil => exact Nat.le_refl _
  | cons c cs ih =>
    obtain ⟨first, rest, encoded, -⟩ := utf8EncodeChar_cases c
    rw [encode_cons, encoded, List.length_append, List.length_cons, List.length_cons]
    omega

/-- The tokens partition a text exactly if the text has no character of more than one byte outside of comments and
strings. -/
theorem scanClassifiedTokens_partitions (words : Words) (text : String) :
    (∃ tokens reason, scanClassifiedTokens words text = .ok (tokens, reason) ∧ Partitions (asBytes text) tokens) ↔
      asciiOutside .code text.toList = true := by
  have stands : Stands (asBytes text) [] text.toList ⟨⟨0, 1, 1⟩, [], none⟩ := by
    refine ⟨rfl, rfl, rfl, ?_⟩
    intro before token after shape
    exact absurd (congrArg List.length shape) (by simp)
  obtain ⟨partitions, panics⟩ := scanLoop_eq words stands (length_le_encode text.toList)
  unfold scanClassifiedTokens
  dsimp only
  constructor
  · rintro ⟨tokens, reason, scanned, -⟩
    cases outside : asciiOutside .code text.toList with
    | true => rfl
    | false =>
      rw [show scanLoop words (asBytes text) (asBytes text).length _ = _ from panics outside] at scanned
      cases scanned
  · intro outside
    obtain ⟨scanner, scanned, all⟩ := partitions outside
    rw [show scanLoop words (asBytes text) (asBytes text).length _ = _ from scanned]
    exact ⟨_, _, rfl, all.texts, all.placed⟩

/-- One letter of two bytes. -/
theorem not_scanClassifiedTokens_partitions : ¬∀ (words : Words) (text : String), ∃ tokens reason,
    scanClassifiedTokens words text = .ok (tokens, reason) ∧ Partitions (asBytes text) tokens := by
  intro always
  obtain ⟨tokens, reason, scanned, -⟩ := always ⟨[], []⟩ "é"
  have panics : scanClassifiedTokens ⟨[], []⟩ "é" = .error (.panics .charBoundary) := by decide
  rw [panics] at scanned
  cases scanned

end BasicNext.Frontend.Session
