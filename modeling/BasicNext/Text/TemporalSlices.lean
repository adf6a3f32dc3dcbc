import BasicNext.Text.Temporal

/-!
# Where the timestamp parser panics

The parser slices at positions next to bytes it has looked at. Around an ASCII byte every position is the
boundary of a character; the end of the seconds is the one position that is not next to such a byte, and a
timestamp with a longer character there stops the program.
-/

namespace BasicNext.Text

open Lib

variable {text : List UInt8} {start stop index : Nat} {byte : UInt8} {panic : Panic}

/-! ### The bytes of a text -/

/-- The byte behind an ASCII byte begins a character. -/
def NextStarts (text : List UInt8) : Prop :=
  ∀ (index : Nat) (byte next : UInt8), text[index]? = some byte → byte < 0x80 → text[index + 1]? = some next →
    startsChar next = true

theorem utf8EncodeChar_cases (c : Char) :
    ∃ first rest, String.utf8EncodeChar c = first :: rest ∧ startsChar first = true
      ∧ (rest = [] ∧ first.toNat = c.toNat ∨ ¬ first < 0x80 ∧ ∀ byte ∈ rest, ¬ byte < 0x80) := by
  have value : c.val.toNat = c.toNat := rfl
  have bound : c.toNat < 0x110000 := by
    have := c.valid
    simp only [UInt32.isValidChar, Nat.isValidChar] at this
    omega
  simp only [String.utf8EncodeChar, value, startsChar, Bool.or_eq_true, decide_eq_true_eq, UInt8.lt_iff_toNat_lt,
    UInt8.le_iff_toNat_le]
  split_ifs with one two three
  · refine ⟨_, _, rfl, ?_, .inl ⟨rfl, ?_⟩⟩ <;> simp <;> omega
  · refine ⟨_, _, rfl, ?_, .inr ⟨?_, ?_⟩⟩ <;> simp <;> omega
  · refine ⟨_, _, rfl, ?_, .inr ⟨?_, ?_⟩⟩ <;> simp <;> omega
  · refine ⟨_, _, rfl, ?_, .inr ⟨?_, ?_⟩⟩ <;> simp <;> omega

theorem toNat_byteOf (c : Char) : (byteOf c).toNat = c.toNat % 256 := rfl

theorem utf8EncodeChar_ascii {c : Char} (ascii : c.toNat < 128) : String.utf8EncodeChar c = [byteOf c] := by
  have value : c.val.toNat = c.toNat := rfl
  simp only [String.utf8EncodeChar, value]
  rw [if_pos (by omega)]
  rfl

theorem nextStarts_flatMap (characters : List Char) : NextStarts (characters.flatMap String.utf8EncodeChar) := by
  induction characters with
  | nil => intro index byte next found; simp at found
  | cons c characters ih =>
    intro index byte next found ascii after
    obtain ⟨first, rest, encoded, -, bytes⟩ := utf8EncodeChar_cases c
    rw [List.flatMap_cons, encoded] at found after
    rcases bytes with ⟨rfl, -⟩ | ⟨notFirst, notRest⟩
    · cases index with
      | zero =>
        cases characters with
        | nil => simp at after
        | cons c' characters =>
          obtain ⟨first', rest', encoded', starts, -⟩ := utf8EncodeChar_cases c'
          rw [List.flatMap_cons, encoded'] at after
          obtain rfl : first' = next := by simpa using after
          exact starts
      | succ index => exact ih index byte next (by simpa using found) ascii (by simpa using after)
    · have member : byte ∉ first :: rest := by
        simp only [List.mem_cons, not_or]
        exact ⟨fun same => notFirst (same ▸ ascii), fun inside => notRest byte inside ascii⟩
      have beyond : (first :: rest).length ≤ index := by
        by_contra inside
        rw [List.getElem?_append_left (by omega)] at found
        exact member (List.mem_of_getElem? found)
      rw [List.getElem?_append_right beyond] at found
      rw [List.getElem?_append_right (by omega)] at after
      refine ih (index - (first :: rest).length) byte next found ascii ?_
      rw [← after]
      congr 1
      omega

theorem nextStarts_asBytes (text : String) : NextStarts (asBytes text) := nextStarts_flatMap text.toList

theorem NextStarts.take (next : NextStarts text) (count : Nat) : NextStarts (text.take count) := by
  intro index byte later found ascii after
  rw [List.getElem?_take] at found after
  split_ifs at found after
  exact next index byte later found ascii after

theorem NextStarts.drop (next : NextStarts text) (count : Nat) : NextStarts (text.drop count) := by
  intro index byte later found ascii after
  rw [List.getElem?_drop] at found after
  exact next _ byte later found ascii (by rw [← after]; congr 1)

/-! ### Boundaries -/

theorem isCharBoundary_zero : isCharBoundary text 0 = true := by
  unfold isCharBoundary
  cases text <;> simp

theorem isCharBoundary_length : isCharBoundary text text.length = true := by
  simp [isCharBoundary]

theorem isCharBoundary_at (found : text[index]? = some byte) (ascii : byte < 0x80) :
    isCharBoundary text index = true := by
  simp [isCharBoundary, found, startsChar, ascii]

theorem isCharBoundary_after (next : NextStarts text) (found : text[index]? = some byte) (ascii : byte < 0x80) :
    isCharBoundary text (index + 1) = true := by
  unfold isCharBoundary
  cases after : text[index + 1]? with
  | some later => simp [next index byte later found ascii after]
  | none =>
    have inside := (List.getElem?_eq_some_iff.1 found).1
    have outside := List.getElem?_eq_none_iff.1 after
    simp only [beq_iff_eq]
    omega

/-! ### Slices and digits -/

theorem slice_eq_some {result : List UInt8} (sliced : (slice text start stop).run = .ok (some result)) :
    result = (text.take stop).drop start := by
  unfold slice at sliced
  split_ifs at sliced with valid
  · exact (Option.some.inj (Except.ok.inj sliced)).symm
  · cases sliced

theorem slice_of_boundaries (order : start ≤ stop) (first : isCharBoundary text start = true)
    (last : isCharBoundary text stop = true) :
    (slice text start stop).run = .ok (some ((text.take stop).drop start)) := by
  rw [slice, if_pos ⟨order, first, last⟩]
  rfl

theorem ofOption_eq_some {α : Type} {result : Option α} {value : α} :
    (Parse.ofOption result).run = .ok (some value) ↔ result = some value := by
  simp [Parse.ofOption, OptionT.run, OptionT.mk]

theorem ofOption_ne_error {α : Type} {result : Option α} : (Parse.ofOption result).run ≠ .error panic := by
  simp [Parse.ofOption, OptionT.run, OptionT.mk]

theorem guard_eq_some {condition : Prop} [Decidable condition] {value : Unit} :
    (guard condition : Parse Unit).run = .ok (some value) ↔ condition := by
  unfold guard
  split_ifs with holds
  · simp [holds, pure, OptionT.pure, OptionT.run, OptionT.mk, Except.pure]
  · simp [holds, failure, OptionT.fail, OptionT.run, OptionT.mk, pure, Except.pure]

theorem guard_ne_error {condition : Prop} [Decidable condition] : (guard condition : Parse Unit).run ≠ .error panic := by
  unfold guard
  split_ifs <;>
    simp [failure, OptionT.fail, pure, OptionT.pure, OptionT.run, OptionT.mk, Except.pure]

theorem digitsAt_eq_some {value : Int} (read : (digitsAt text start stop).run = .ok (some value)) :
    parseDigits ((text.take stop).drop start) = some value := by
  obtain ⟨digits, sliced, parsed⟩ := optionT_bind_eq_some.1 read
  rw [slice_eq_some sliced] at parsed
  exact ofOption_eq_some.1 parsed

theorem digitsAt_ne_error (order : start ≤ stop) (first : isCharBoundary text start = true)
    (last : isCharBoundary text stop = true) : (digitsAt text start stop).run ≠ .error panic := by
  intro failed
  rcases optionT_bind_eq_error.1 failed with sliced | ⟨digits, -, parsed⟩
  · rw [slice_of_boundaries order first last] at sliced
    cases sliced
  · exact ofOption_ne_error parsed

/-! ### Panics -/

theorem parseYmd_ne_error (next : NextStarts text) : (parseYmd text).run ≠ .error panic := by
  intro failed
  rcases optionT_bind_eq_error.1 failed with wrong | ⟨_, shape, failed⟩
  · exact guard_ne_error wrong
  obtain ⟨length, first, second⟩ := guard_eq_some.1 shape
  have end' : isCharBoundary text 10 = true := by
    rw [← length]
    exact isCharBoundary_length
  rcases optionT_bind_eq_error.1 failed with wrong | ⟨year, -, failed⟩
  · exact digitsAt_ne_error (by omega) isCharBoundary_zero (isCharBoundary_at first (by decide)) wrong
  rcases optionT_bind_eq_error.1 failed with wrong | ⟨month, -, failed⟩
  · exact digitsAt_ne_error (by omega) (isCharBoundary_after next first (by decide))
      (isCharBoundary_at second (by decide)) wrong
  rcases optionT_bind_eq_error.1 failed with wrong | ⟨day, -, failed⟩
  · exact digitsAt_ne_error (by omega) (isCharBoundary_after next second (by decide)) end' wrong
  · cases failed

theorem rfindSign_eq_some (found : rfindSign text = some index) :
    ∃ byte, text[index]? = some byte ∧ (byte = byteOf '+' ∨ byte = byteOf '-') := by
  unfold rfindSign at found
  obtain ⟨back, position, rfl⟩ := Option.map_eq_some_iff.1 found
  obtain ⟨inside, sign, -⟩ := List.findIdx?_eq_some_iff_getElem.1 position
  rw [List.length_reverse] at inside
  rw [List.getElem_reverse] at sign
  refine ⟨text[text.length - 1 - back], List.getElem?_eq_getElem (by omega), ?_⟩
  simpa using sign

theorem splitOffset_ne_error (next : NextStarts text) : (splitOffset text).run ≠ .error panic := by
  intro failed
  unfold splitOffset at failed
  split_ifs at failed with zulu
  · cases failed
  rcases optionT_bind_eq_error.1 failed with wrong | ⟨signIndex, found, failed⟩
  · exact ofOption_ne_error wrong
  obtain ⟨byte, sign, letter⟩ := rfindSign_eq_some (ofOption_eq_some.1 found)
  have ascii : byte < 0x80 := by
    rcases letter with plus | minus
    · rw [plus]
      decide
    · rw [minus]
      decide
  have inside := (List.getElem?_eq_some_iff.1 sign).1
  rcases optionT_bind_eq_error.1 failed with wrong | ⟨_, -, failed⟩
  · exact guard_ne_error wrong
  rcases optionT_bind_eq_error.1 failed with wrong | ⟨time, -, failed⟩
  · rw [slice_of_boundaries (Nat.zero_le _) isCharBoundary_zero (isCharBoundary_at sign ascii)] at wrong
    cases wrong
  rcases optionT_bind_eq_error.1 failed with wrong | ⟨offset, sliced, failed⟩
  · rw [slice_of_boundaries (Nat.le_of_lt inside) (isCharBoundary_at sign ascii) isCharBoundary_length] at wrong
    cases wrong
  obtain rfl := slice_eq_some sliced
  rw [List.take_length] at failed
  have nextOffset := next.drop signIndex
  have head : (text.drop signIndex)[0]? = some byte := by
    rw [List.getElem?_drop]
    exact sign
  rcases optionT_bind_eq_error.1 failed with wrong | ⟨zone, sliced, failed⟩
  · rw [slice_of_boundaries (by rw [List.length_drop]; omega) (isCharBoundary_after nextOffset head ascii)
      isCharBoundary_length] at wrong
    cases wrong
  obtain rfl := slice_eq_some sliced
  rw [List.take_length] at failed
  have nextZone := nextOffset.drop 1
  rcases optionT_bind_eq_error.1 failed with wrong | ⟨_, shape, failed⟩
  · exact guard_ne_error wrong
  obtain ⟨length, colon⟩ := guard_eq_some.1 shape
  rcases optionT_bind_eq_error.1 failed with wrong | ⟨hours, -, failed⟩
  · exact digitsAt_ne_error (by omega) isCharBoundary_zero (isCharBoundary_at colon (by decide)) wrong
  rcases optionT_bind_eq_error.1 failed with wrong | ⟨minutes, -, failed⟩
  · refine digitsAt_ne_error (by omega) (isCharBoundary_after nextZone colon (by decide)) ?_ wrong
    rw [← length]
    exact isCharBoundary_length
  rcases optionT_bind_eq_error.1 failed with wrong | ⟨_, -, failed⟩
  · exact guard_ne_error wrong
  · cases failed

/-- The hour and the minute are read, and the ninth byte is inside a character. -/
structure CutsSeconds (time : List UInt8) : Prop where
  first : time[2]? = some (byteOf ':')
  second : time[5]? = some (byteOf ':')
  hour : (parseDigits (time.take 2)).isSome
  minute : (parseDigits ((time.take 5).drop 3)).isSome
  ninth : isCharBoundary time 8 = false
  longer : 8 ≤ time.length

theorem parseHms_eq_error (next : NextStarts text) (millis : Bool) :
    (∃ panic, (parseHms text millis).run = .error panic) ↔ CutsSeconds text := by
  constructor
  · rintro ⟨panic, failed⟩
    rcases optionT_bind_eq_error.1 failed with wrong | ⟨_, shape, failed⟩
    · exact absurd wrong guard_ne_error
    obtain ⟨length, first, second⟩ := guard_eq_some.1 shape
    rcases optionT_bind_eq_error.1 failed with wrong | ⟨hour, readHour, failed⟩
    · exact absurd wrong (digitsAt_ne_error (by omega) isCharBoundary_zero (isCharBoundary_at first (by decide)))
    rcases optionT_bind_eq_error.1 failed with wrong | ⟨minute, readMinute, failed⟩
    · exact absurd wrong (digitsAt_ne_error (by omega) (isCharBoundary_after next first (by decide))
        (isCharBoundary_at second (by decide)))
    rcases optionT_bind_eq_error.1 failed with cut | ⟨seconds, -, failed⟩
    · have ninth : isCharBoundary text 8 = false := by
        by_contra whole
        exact digitsAt_ne_error (by omega) (isCharBoundary_after next second (by decide))
          (by simpa using whole) cut
      exact ⟨first, second, Option.isSome_of_mem (digitsAt_eq_some readHour),
        Option.isSome_of_mem (digitsAt_eq_some readMinute), ninth, length⟩
    rcases optionT_bind_eq_error.1 failed with wrong | ⟨_, -, failed⟩
    · exact absurd wrong guard_ne_error
    rcases optionT_bind_eq_error.1 failed with wrong | ⟨_, -, failed⟩
    · exact absurd wrong ofOption_ne_error
    · cases failed
  · rintro ⟨first, second, hour, minute, ninth, longer⟩
    obtain ⟨hour, readHour⟩ := Option.isSome_iff_exists.1 hour
    obtain ⟨minute, readMinute⟩ := Option.isSome_iff_exists.1 minute
    refine ⟨.charBoundary, ?_⟩
    have digits {start stop : Nat} {value : Int} (order : start ≤ stop) (low : isCharBoundary text start = true)
        (high : isCharBoundary text stop = true) (read : parseDigits ((text.take stop).drop start) = some value) :
        (digitsAt text start stop).run = .ok (some value) :=
      optionT_bind_eq_some.2 ⟨_, slice_of_boundaries order low high, ofOption_eq_some.2 read⟩
    refine optionT_bind_eq_error.2 (.inr ⟨(), guard_eq_some.2 ⟨longer, first, second⟩, ?_⟩)
    refine optionT_bind_eq_error.2 (.inr ⟨hour, digits (by omega) isCharBoundary_zero
      (isCharBoundary_at first (by decide)) readHour, ?_⟩)
    refine optionT_bind_eq_error.2 (.inr ⟨minute, digits (by omega) (isCharBoundary_after next first (by decide))
      (isCharBoundary_at second (by decide)) readMinute, ?_⟩)
    refine optionT_bind_eq_error.2 (.inl (optionT_bind_eq_error.2 (.inl ?_)))
    rw [slice, if_neg (by simp [ninth])]
    rfl

/-- The date and the zone are read, and the end of the seconds is inside a character. -/
structure Cuts (text : List UInt8) (separator : Nat) (time : List UInt8) : Prop where
  letter : text.findIdx? (fun byte => byte == byteOf 'T') = some separator
  zone : ∃ offset, (splitOffset (text.drop (separator + 1))).run = .ok (some (time, offset))
  date : ∃ year month day, (parseYmd (text.take separator)).run = .ok (some (year, month, day))
    ∧ (daysFromCivil year month day).isSome
  seconds : CutsSeconds time

theorem splitOffset_eq_some {time : List UInt8} {offset : Int}
    (found : (splitOffset text).run = .ok (some (time, offset))) :
    text.getLast? = some (byteOf 'Z') ∧ time = text.take (text.length - 1)
      ∨ ∃ signIndex hours minutes, rfindSign text = some signIndex ∧ time = text.take signIndex
        ∧ (text.drop (signIndex + 1)).length = 5 ∧ (text.drop (signIndex + 1))[2]? = some (byteOf ':')
        ∧ (digitsAt (text.drop (signIndex + 1)) 0 2).run = .ok (some hours)
        ∧ (digitsAt (text.drop (signIndex + 1)) 3 5).run = .ok (some minutes) ∧ hours ≤ 23 ∧ minutes ≤ 59 := by
  unfold splitOffset at found
  split_ifs at found with zulu
  · simp only [pure, OptionT.pure, OptionT.run, OptionT.mk, Except.pure, Except.ok.injEq, Option.some.injEq,
      Prod.mk.injEq] at found
    exact .inl ⟨zulu, by rw [← found.1, List.dropLast_eq_take]⟩
  obtain ⟨signIndex, sign, found⟩ := optionT_bind_eq_some.1 found
  obtain ⟨_, -, found⟩ := optionT_bind_eq_some.1 found
  obtain ⟨time', before, found⟩ := optionT_bind_eq_some.1 found
  obtain ⟨offset, behind, found⟩ := optionT_bind_eq_some.1 found
  obtain ⟨zone, unsigned, found⟩ := optionT_bind_eq_some.1 found
  obtain ⟨_, shape, found⟩ := optionT_bind_eq_some.1 found
  obtain ⟨hours, readHours, found⟩ := optionT_bind_eq_some.1 found
  obtain ⟨minutes, readMinutes, found⟩ := optionT_bind_eq_some.1 found
  obtain ⟨_, range, found⟩ := optionT_bind_eq_some.1 found
  simp only [pure, OptionT.pure, OptionT.run, OptionT.mk, Except.pure, Except.ok.injEq, Option.some.injEq,
    Prod.mk.injEq] at found
  have same := found.1
  obtain rfl := slice_eq_some behind
  rw [List.take_length] at unsigned
  obtain rfl := slice_eq_some unsigned
  rw [List.take_length, List.drop_drop] at shape readHours readMinutes
  obtain ⟨length, colon⟩ := guard_eq_some.1 shape
  refine .inr ⟨signIndex, hours, minutes, ofOption_eq_some.1 sign, ?_, length, colon, readHours, readMinutes,
    guard_eq_some.1 range⟩
  rw [← same, slice_eq_some before, List.drop_zero]

theorem take_of_splitOffset {time : List UInt8} {offset : Int}
    (found : (splitOffset text).run = .ok (some (time, offset))) : ∃ count, time = text.take count := by
  rcases splitOffset_eq_some found with ⟨-, taken⟩ | ⟨signIndex, _, _, -, taken, -⟩
  · exact ⟨_, taken⟩
  · exact ⟨signIndex, taken⟩

theorem findIdx_separator {separator : Nat} (found : text.findIdx? (fun byte => byte == byteOf 'T') = some separator) :
    text[separator]? = some (byteOf 'T') := by
  obtain ⟨inside, same, -⟩ := List.findIdx?_eq_some_iff_getElem.1 found
  rw [List.getElem?_eq_getElem inside]
  simpa using same

theorem parseRfc3339_eq_error (next : NextStarts text) :
    (∃ panic, (parseRfc3339 text).run = .error panic) ↔ ∃ separator time, Cuts text separator time := by
  have pieces {separator : Nat} (found : text.findIdx? (fun byte => byte == byteOf 'T') = some separator) :
      (slice text 0 separator).run = .ok (some (text.take separator))
        ∧ (slice text separator text.length).run = .ok (some (text.drop separator))
        ∧ isCharBoundary (text.drop separator) 1 = true := by
    have letter := findIdx_separator found
    have inside := (List.getElem?_eq_some_iff.1 letter).1
    have boundary := isCharBoundary_at letter (by decide)
    refine ⟨?_, ?_, ?_⟩
    · rw [slice_of_boundaries (Nat.zero_le _) isCharBoundary_zero boundary, List.drop_zero]
    · rw [slice_of_boundaries (Nat.le_of_lt inside) boundary isCharBoundary_length, List.take_length]
    · have head : (text.drop separator)[0]? = some (byteOf 'T') := by
        rw [List.getElem?_drop]
        exact letter
      exact isCharBoundary_after (next.drop separator) head (by decide)
  constructor
  · rintro ⟨panic, failed⟩
    rcases optionT_bind_eq_error.1 failed with wrong | ⟨separator, found, failed⟩
    · exact absurd wrong ofOption_ne_error
    rw [ofOption_eq_some] at found
    obtain ⟨before, behind, boundary⟩ := pieces found
    rcases optionT_bind_eq_error.1 failed with wrong | ⟨date, sliced, failed⟩
    · rw [before] at wrong
      cases wrong
    rw [before] at sliced
    cases sliced
    rcases optionT_bind_eq_error.1 failed with wrong | ⟨rest, sliced, failed⟩
    · rw [behind] at wrong
      cases wrong
    rw [behind] at sliced
    cases sliced
    rcases optionT_bind_eq_error.1 failed with wrong | ⟨rest, got, failed⟩
    · exact absurd wrong ofOption_ne_error
    rw [ofOption_eq_some, if_pos boundary, List.drop_drop] at got
    cases got
    have nextRest := next.drop (separator + 1)
    rcases optionT_bind_eq_error.1 failed with wrong | ⟨⟨time, offset⟩, zone, failed⟩
    · exact absurd wrong (splitOffset_ne_error nextRest)
    rcases optionT_bind_eq_error.1 failed with wrong | ⟨⟨year, month, day⟩, date, failed⟩
    · exact absurd wrong (parseYmd_ne_error (next.take separator))
    rcases optionT_bind_eq_error.1 failed with wrong | ⟨days, exists', failed⟩
    · exact absurd wrong ofOption_ne_error
    obtain ⟨count, rfl⟩ := take_of_splitOffset zone
    rcases optionT_bind_eq_error.1 failed with cut | ⟨millis, -, failed⟩
    · exact ⟨separator, _, found, ⟨offset, zone⟩,
        ⟨year, month, day, date, Option.isSome_of_mem (ofOption_eq_some.1 exists')⟩,
        (parseHms_eq_error (nextRest.take count) false).1 ⟨panic, cut⟩⟩
    rcases optionT_bind_eq_error.1 failed with wrong | ⟨_, -, failed⟩
    · exact absurd wrong guard_ne_error
    rcases optionT_bind_eq_error.1 failed with wrong | ⟨_, -, failed⟩
    · exact absurd wrong guard_ne_error
    · cases failed
  · rintro ⟨separator, time, found, ⟨offset, zone⟩, ⟨year, month, day, date, exists'⟩, seconds⟩
    obtain ⟨before, behind, boundary⟩ := pieces found
    obtain ⟨days, exists'⟩ := Option.isSome_iff_exists.1 exists'
    have nextTime : NextStarts time := by
      obtain ⟨count, rfl⟩ := take_of_splitOffset zone
      exact (next.drop (separator + 1)).take count
    obtain ⟨panic, cut⟩ := (parseHms_eq_error nextTime false).2 seconds
    refine ⟨panic, optionT_bind_eq_error.2 (.inr ⟨separator, ofOption_eq_some.2 found, ?_⟩)⟩
    refine optionT_bind_eq_error.2 (.inr ⟨_, before, optionT_bind_eq_error.2 (.inr ⟨_, behind, ?_⟩)⟩)
    refine optionT_bind_eq_error.2 (.inr ⟨text.drop (separator + 1), ?_, ?_⟩)
    · rw [ofOption_eq_some, if_pos boundary, List.drop_drop]
    · refine optionT_bind_eq_error.2 (.inr ⟨(time, offset), zone, ?_⟩)
      refine optionT_bind_eq_error.2 (.inr ⟨(year, month, day), date, ?_⟩)
      exact optionT_bind_eq_error.2 (.inr ⟨days, ofOption_eq_some.2 exists', optionT_bind_eq_error.2 (.inl cut)⟩)

end BasicNext.Text
