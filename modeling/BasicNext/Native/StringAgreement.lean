import BasicNext.Native.IndexBounds
import Mathlib.Data.List.DropRight

/-!
# Strings in native code and in the interpreter

The comparisons, lengths, characters and sums of two texts, and the lines that `INPUT` reads, in compiled programs
(`bn_rt::string`, `bn_llvm::llvm::input_runtime`) and in the interpreter.
-/

namespace BasicNext.Native.StringAgreement

open Lib Lib.Llvm Strings IndexBounds
open Interp (Failure Store Value runtimeError)

/-! ### Lines -/

/-- `read_line`: the bytes up to the first line feed, with it, and those behind. -/
def readLine (input : List UInt8) : List UInt8 × List UInt8 :=
  let count := (input.takeWhile (· ≠ 10)).length + 1
  (input.take count, input.drop count)

/-- The line without the line feed at its end, and without a carriage return before that. -/
def popLineEnd (line : List Char) : List Char :=
  if line.getLast? = some '\n' then
    let line := line.dropLast
    if line.getLast? = some '\r' then line.dropLast else line
  else line

/-- `bn_rt_input_line`: null at the end of the input, and for a line that is no text. -/
def inputLine (input : List UInt8) : Option StringObject × List UInt8 :=
  let read := readLine input
  match fromUtf8 read.1 with
  | none => (none, read.2)
  | some line =>
    if read.1 = [] then (none, read.2)
    else (some (newString (utf8Bytes (popLineEnd line.toList))), read.2)

/-- `bn_input_str`, or `bn_input` with the payload of `.bn_eof` as none. -/
def emitInput (isString : Bool) (input : List UInt8) : Option StringObject × List UInt8 :=
  let read := inputLine input
  match read.1 with
  | some line => (some line, read.2)
  | none => (if isString then some (stringObject immortalRefCount "") else none, read.2)

def isLineEnd (c : Char) : Bool := c = '\n' || c = '\r'

/-- `INPUT` in the interpreter. -/
def input (isString : Bool) (bytes : List UInt8) : Except Failure Value × List UInt8 :=
  let read := readLine bytes
  match fromUtf8 read.1 with
  | none => (.error (runtimeError .inputError "cannot read input: stream did not contain valid UTF-8"), read.2)
  | some line =>
    if read.1 = [] then (.ok (if isString then .string "" else .endOfFile), read.2)
    else (.ok (.string (String.ofList (line.toList.rdropWhile isLineEnd))), read.2)

/-- What native code reads is the value of the interpreter. -/
def LineAlike : Option StringObject → Except Failure Value → Prop
  | some object, .ok (.string text) => stringText object = some text
  | none, .ok .endOfFile => True
  | _, _ => False

def InputAlike (bytes : List UInt8) : Prop :=
  ∀ isString, LineAlike (emitInput isString bytes).1 (input isString bytes).1 ∧
    (emitInput isString bytes).2 = (input isString bytes).2

/-- A line that ends at most once, behind a text that can be read. -/
def PlainLine (bytes : List UInt8) : Prop :=
  ∃ body ending : List Char, fromUtf8 bytes = some (String.ofList (body ++ ending)) ∧
    ending ∈ [[], ['\n'], ['\r', '\n']] ∧ (∀ c ∈ body.getLast?, isLineEnd c = false) ∧
    (String.ofList body).utf8ByteSize ≤ i32Max

theorem popLineEnd_append {body ending : List Char} (among : ending ∈ [[], ['\n'], ['\r', '\n']])
    (plain : ∀ c ∈ body.getLast?, isLineEnd c = false) : popLineEnd (body ++ ending) = body := by
  have notEnd {c : Char} (ends : isLineEnd c = true) : body.getLast? ≠ some c := by
    intro last
    rw [plain c last] at ends
    cases ends
  simp only [List.mem_cons, List.not_mem_nil, or_false] at among
  rcases among with rfl | rfl | rfl
  · rw [List.append_nil, popLineEnd, if_neg (notEnd (by decide))]
  · rw [popLineEnd, if_pos (by simp), List.dropLast_concat, if_neg (notEnd (by decide))]
  · have two : body ++ ['\r', '\n'] = body ++ ['\r'] ++ ['\n'] := by simp
    rw [two, popLineEnd, if_pos (by simp), List.dropLast_concat]
    simp

theorem exists_ending (line : List Char) : ∃ ending ∈ [[], ['\n'], ['\r', '\n']], line = popLineEnd line ++ ending := by
  rw [popLineEnd]
  split
  · next feed =>
    obtain ⟨rest, rfl⟩ := List.getLast?_eq_some_iff.1 feed
    rw [List.dropLast_concat]
    dsimp only
    split
    · next carriage =>
      obtain ⟨rest, rfl⟩ := List.getLast?_eq_some_iff.1 carriage
      exact ⟨['\r', '\n'], by simp, by simp⟩
    · exact ⟨['\n'], by simp, rfl⟩
  · exact ⟨[], by simp, (List.append_nil line).symm⟩

theorem rdropWhile_append {body ending : List Char} (among : ending ∈ [[], ['\n'], ['\r', '\n']])
    (plain : ∀ c ∈ body.getLast?, isLineEnd c = false) : (body ++ ending).rdropWhile isLineEnd = body := by
  have kept : body.rdropWhile isLineEnd = body := by
    rw [List.rdropWhile_eq_self_iff]
    intro some_
    rw [plain _ (List.getLast?_eq_some_getLast some_)]
    exact Bool.false_ne_true
  simp only [List.mem_cons, List.not_mem_nil, or_false] at among
  rcases among with rfl | rfl | rfl
  · rw [List.append_nil, kept]
  · rw [List.rdropWhile_concat_pos _ _ _ (by decide), kept]
  · have two : body ++ ['\r', '\n'] = body ++ ['\r'] ++ ['\n'] := by simp
    rw [two, List.rdropWhile_concat_pos _ _ _ (by decide), List.rdropWhile_concat_pos _ _ _ (by decide), kept]

theorem popLineEnd_eq_iff (line : List Char) : popLineEnd line = line.rdropWhile isLineEnd ↔
    ∀ c ∈ (popLineEnd line).getLast?, isLineEnd c = false := by
  constructor
  · intro same c last
    rw [same] at last
    have some_ : line.rdropWhile isLineEnd ≠ [] := by
      intro none_
      rw [none_] at last
      cases last
    rw [List.getLast?_eq_some_getLast some_] at last
    rw [← Option.some.inj last, ← Bool.not_eq_true]
    exact List.rdropWhile_last_not isLineEnd line some_
  · intro plain
    obtain ⟨ending, among, whole⟩ := exists_ending line
    rw [← rdropWhile_append among plain, ← whole]

theorem utf8Bytes_of_fromUtf8 {bytes : List UInt8} {text : String} (found : fromUtf8 bytes = some text) :
    utf8Bytes text.toList = bytes := by
  rw [fromUtf8, String.fromUTF8?] at found
  split at found
  · cases found
    rw [utf8Bytes_toList]
    rfl
  · cases found

theorem stringText_empty : stringText (stringObject immortalRefCount "") = some "" := by
  have holds : Strings.Holds (fun _ => some (stringObject immortalRefCount "")) 8 "" :=
    ⟨by decide, by decide, ⟨immortalRefCount, .inr rfl, rfl⟩, by decide⟩
  rw [stringText, holds.slice_of_le (by decide), Option.bind_some, fromUtf8_stringBytes]

theorem inputAlike_iff {bytes : List UInt8} (addressable : (readLine bytes).1.length < 2 ^ 64) :
    InputAlike bytes ↔ PlainLine (readLine bytes).1 := by
  rw [InputAlike]
  simp only [emitInput, inputLine, input]
  generalize readLine bytes = read at addressable ⊢
  cases found : fromUtf8 read.1 with
  | none =>
    constructor
    · intro alike
      exact (alike true).1.elim
    · rintro ⟨body, ending, text, -⟩
      rw [found] at text
      cases text
  | some line =>
    by_cases stops : read.1 = []
    · simp only [if_pos stops]
      have empty : PlainLine read.1 := by
        rw [stops]
        exact ⟨[], [], by decide, by simp, by simp, by decide⟩
      refine iff_of_true (fun isString => ⟨?_, trivial⟩) empty
      cases isString
      · exact trivial
      · exact stringText_empty
    · simp only [if_neg stops]
      have bytes_eq : utf8Bytes (popLineEnd line.toList) = stringBytes (String.ofList (popLineEnd line.toList)) := by
        rw [stringBytes_eq, String.toList_ofList]
      have alike : (∀ isString : Bool, LineAlike (some (newString (utf8Bytes (popLineEnd line.toList))))
          (.ok (.string (String.ofList (line.toList.rdropWhile isLineEnd)))) ∧ True) ↔
          stringText (newString (stringBytes (String.ofList (popLineEnd line.toList)))) =
            some (String.ofList (line.toList.rdropWhile isLineEnd)) := by
        rw [← bytes_eq]
        exact ⟨fun all => (all true).1, fun same _ => ⟨same, trivial⟩⟩
      refine alike.trans ?_
      obtain ⟨ending, among, whole⟩ := exists_ending line.toList
      by_cases fits : (String.ofList (popLineEnd line.toList)).utf8ByteSize ≤ i32Max
      · rw [stringText_newString fits, Option.some.injEq, String.ofList_inj, popLineEnd_eq_iff]
        constructor
        · intro plain
          refine ⟨_, ending, ?_, among, plain, fits⟩
          rw [found, ← whole, String.ofList_toList]
        · rintro ⟨body, ending, text, among, plain, -⟩
          rw [found] at text
          rw [Option.some.inj text, String.toList_ofList, popLineEnd_append among plain]
          exact plain
      · have size : (String.ofList (popLineEnd line.toList)).utf8ByteSize < 2 ^ 64 := by
          rw [← utf8Bytes_of_fromUtf8 found, whole, utf8Bytes, List.flatMap_append, List.length_append] at addressable
          rw [← length_utf8Bytes, String.toList_ofList, utf8Bytes]
          omega
        rw [stringText_newString_of_lt (Nat.lt_of_not_le fits) size]
        refine iff_of_false (by simp) ?_
        rintro ⟨body, ending, text, among, plain, short⟩
        rw [found] at text
        rw [Option.some.inj text, String.toList_ofList, popLineEnd_append among plain] at fits
        exact fits short

/-! ### Texts -/

/-- `emit_binary` on two texts: the comparisons. -/
def emitCompare (memory : Strings.Memory) (operator : Interp.Operator) (left right : Address) : Option Bool :=
  match operator with
  | .less => some (icmp .slt (strCmp memory left right) 0)
  | .lessEqual => some (icmp .sle (strCmp memory left right) 0)
  | .greater => some (icmp .sgt (strCmp memory left right) 0)
  | .greaterEqual => some (icmp .sge (strCmp memory left right) 0)
  | .assign => some (icmp .eq (strEq memory left right) 1)
  | .notEqual => some (icmp .ne (strEq memory left right) 1)
  | _ => none

variable {memory : Strings.Memory} {store : Store} {left right ptr : Address} {first second text : String}

def OrderAlike (memory : Strings.Memory) (left right : Address) (first second : String) : Prop :=
  ∀ operator answer, emitCompare memory operator left right = some answer → ∀ ty classes count,
    Interp.binary operator (.string first) (.string second) ty classes count = .ok (.boolean answer)

def ReadsAlike (memory : Strings.Memory) (store : Store) (ptr : Address) (text : String) : Prop :=
  Interp.integerFromCount text.toList.length = .ok (.integer (strLen memory ptr).toInt .int32) ∧
    ∀ (kind : IntegerType) (n : Int), kind.word.InRange n →
      Same (fun object value => ∃ character, value = .string character ∧ stringText object = some character)
        (emitStringIndex memory ptr (lowered kind n)) (Interp.indexValue store (.string text) n)

/-- The text of the result is the interpreter's. -/
def JoinAlike (memory : Strings.Memory) (left right : Address) (first second : String) : Prop :=
  ∀ ty classes count, ∃ joined, Interp.binary .plus (.string first) (.string second) ty classes count = .ok (.string joined) ∧
    stringText (strConcat memory left right) = some joined

theorem sign_spec (first second : String) :
    let sign : BitVec 32 := if first < second then -1 else if first = second then 0 else 1
    icmp .slt sign 0 = decide (first < second) ∧ icmp .sle sign 0 = decide (first ≤ second) ∧
      icmp .sgt sign 0 = decide (second < first) ∧ icmp .sge sign 0 = decide (second ≤ first) := by
  have apart {one other : String} (less : one < other) : ¬other < one := fun greater =>
    String.lt_irrefl one (String.lt_trans less greater)
  simp only [← String.not_lt, decide_not]
  rcases Std.lt_trichotomy first second with less | rfl | greater
  · simp [less, apart less, icmp]
  · simp [icmp]
  · have differ : first ≠ second := by
      rintro rfl
      exact String.lt_irrefl first greater
    simp [greater, apart greater, differ, icmp]

theorem orderAlike (one : Strings.Holds memory left first) (other : Strings.Holds memory right second)
    (fits : first.utf8ByteSize ≤ i32Max) (fits' : second.utf8ByteSize ≤ i32Max) : OrderAlike memory left right first second := by
  intro operator answer emitted ty classes count
  obtain ⟨less, lessEqual, greater, greaterEqual⟩ := sign_spec first second
  have equal : icmp .eq (strEq memory left right) 1 = (first == second) ∧
      icmp .ne (strEq memory left right) 1 = !(first == second) := by
    rw [strEq_eq one other fits fits']
    by_cases same : first = second <;> simp [same, icmp]
  rw [← strCmp_eq one other fits fits'] at less lessEqual greater greaterEqual
  cases operator <;>
    simp only [emitCompare, less, lessEqual, greater, greaterEqual, equal.1, equal.2, Option.some.injEq, reduceCtorEq] at emitted
  all_goals
    subst emitted
    rfl

theorem readsAlike (store : Store) (holds : Strings.Holds memory ptr text) (fits : text.utf8ByteSize ≤ i32Max) :
    ReadsAlike memory store ptr text := by
  refine ⟨?_, fun kind n inRange => (string_same_iff store holds inRange).2 fun _ => fits⟩
  have fewer : text.toList.length < 2 ^ 31 := by
    have counts := length_toList_le_utf8ByteSize text
    rw [i32Max] at fits
    omega
  have exact_ : (BitVec.ofNat 32 text.toList.length).toInt = text.toList.length := by
    rw [BitVec.toInt_eq_toNat_of_lt, BitVec.toNat_ofNat, Nat.mod_eq_of_lt (by omega)]
    rw [BitVec.toNat_ofNat, Nat.mod_eq_of_lt (by omega)]
    omega
  rw [strLen_eq holds fits, Interp.integerFromCount, if_pos fewer, exact_]

/-- What the runtime reads of a text. -/
def readable (text : String) : String := if text.utf8ByteSize ≤ i32Max then text else ""

theorem slice_getD (holds : Strings.Holds memory ptr text) : (sliceFromRaw memory ptr).getD [] = stringBytes (readable text) := by
  rw [holds.slice, readable]
  split <;> rfl

theorem readable_le (text : String) : (readable text).utf8ByteSize ≤ i32Max := by
  rw [readable]
  split
  · assumption
  · decide

theorem joinAlike_iff (one : Strings.Holds memory left first) (other : Strings.Holds memory right second) :
    JoinAlike memory left right first second ↔ first.utf8ByteSize + second.utf8ByteSize ≤ i32Max := by
  have size (first second : String) : (first ++ second).utf8ByteSize = first.utf8ByteSize + second.utf8ByteSize :=
    String.utf8ByteSize_append
  have both : stringBytes (readable first) ++ stringBytes (readable second) = stringBytes (readable first ++ readable second) := by
    rw [stringBytes_eq, stringBytes_eq, stringBytes_eq, String.toList_append, utf8Bytes, utf8Bytes, utf8Bytes, List.flatMap_append]
  have whole : JoinAlike memory left right first second ↔ stringText (strConcat memory left right) = some (first ++ second) := by
    constructor
    · intro alike
      obtain ⟨_, ⟨⟩, reads⟩ := alike .null ⟨∅, ∅⟩ none
      exact reads
    · exact fun reads _ _ _ => ⟨_, rfl, reads⟩
  rw [whole, strConcat, slice_getD one, slice_getD other, both, ← size]
  constructor
  · intro reads
    by_cases short : (readable first ++ readable second).utf8ByteSize ≤ i32Max
    · rw [stringText_newString short] at reads
      rw [← Option.some.inj reads]
      exact short
    · have bound : (readable first ++ readable second).utf8ByteSize < 2 ^ 64 := by
        have parts := Nat.add_le_add (readable_le first) (readable_le second)
        rw [size]
        exact parts.trans_lt (by decide)
      rw [stringText_newString_of_lt (Nat.lt_of_not_le short) bound] at reads
      cases reads
  · intro short
    have parts := size first second
    have one_ : readable first = first := if_pos (by omega)
    have other_ : readable second = second := if_pos (by omega)
    rw [one_, other_, stringText_newString short]

/-! ### All of them -/

/-- Strings agree exactly when both together have no more bytes than an `INTEGER` counts and the line is a text that ends at
most once. -/
theorem strings_agree_iff (store : Store) (one : Strings.Holds memory left first) (other : Strings.Holds memory right second)
    {bytes : List UInt8} (addressable : (readLine bytes).1.length < 2 ^ 64) :
    (OrderAlike memory left right first second ∧ ReadsAlike memory store left first ∧ ReadsAlike memory store right second ∧
      JoinAlike memory left right first second ∧ InputAlike bytes) ↔
      first.utf8ByteSize + second.utf8ByteSize ≤ i32Max ∧ PlainLine (readLine bytes).1 := by
  rw [joinAlike_iff one other, inputAlike_iff addressable]
  constructor
  · exact fun alike => alike.2.2.2
  · intro plain
    have fits : first.utf8ByteSize ≤ i32Max ∧ second.utf8ByteSize ≤ i32Max := by omega
    exact ⟨orderAlike one other fits.1 fits.2, readsAlike store one fits.1, readsAlike store other fits.2, plain⟩

theorem strings_agree_line :
    OrderAlike gridStrings 8 8 "aé" "aé" ∧ ReadsAlike gridStrings gridStore 8 "aé" ∧ ReadsAlike gridStrings gridStore 8 "aé" ∧
      JoinAlike gridStrings 8 8 "aé" "aé" ∧ InputAlike (stringBytes "é\r\nb") := by
  have line : (readLine (stringBytes "é\r\nb")).1 = stringBytes "é\r\n" := by decide +kernel
  have split : String.ofList (['é'] ++ ['\r', '\n']) = "é\r\n" := by decide +kernel
  refine (strings_agree_iff gridStore grid_holds grid_holds (by decide +kernel)).2
    ⟨by decide +kernel, ['é'], ['\r', '\n'], ?_, by simp, by simp [isLineEnd], by decide +kernel⟩
  rw [line, split, fromUtf8_stringBytes]

/-- A line with two carriage returns: the runtime leaves one of them. -/
theorem lines_not_alike : ¬InputAlike (stringBytes "a\r\r\n") := by
  intro alike
  obtain ⟨body, ending, text, among, plain, -⟩ := (inputAlike_iff (by decide)).1 alike
  have line : fromUtf8 (readLine (stringBytes "a\r\r\n")).1 = some "a\r\r\n" := fromUtf8_stringBytes "a\r\r\n"
  rw [line] at text
  have whole : body ++ ending = ['a', '\r', '\r', '\n'] := (String.ofList_inj.1 (Option.some.inj text)).symm
  have last := popLineEnd_append among plain
  rw [whole] at last
  have kept := plain '\r' (by rw [← last]; rfl)
  cases kept

end BasicNext.Native.StringAgreement
