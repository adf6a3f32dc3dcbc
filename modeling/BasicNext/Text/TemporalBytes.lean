import BasicNext.Text.TemporalSlices

/-!
# The bytes of a timestamp

A text that parses as a timestamp has digits, signs and the letters `T` and `Z` only.
-/

namespace BasicNext.Text

open Lib

variable {text : List UInt8} {start stop index : Nat} {byte : UInt8}

def isPrintable (byte : UInt8) : Bool := 0x20 ≤ byte && byte < 0x7F

theorem isPrintable_of_isDigit (digit : isDigit byte = true) : isPrintable byte = true := by
  simp only [isDigit, byteOf, Bool.and_eq_true, decide_eq_true_eq, UInt8.le_iff_toNat_le] at digit
  simp only [isPrintable, Bool.and_eq_true, decide_eq_true_eq, UInt8.le_iff_toNat_le, UInt8.lt_iff_toNat_lt]
  obtain ⟨low, high⟩ := digit
  have zero : (Char.toUInt8 '0').toNat = 48 := rfl
  have nine : (Char.toUInt8 '9').toNat = 57 := rfl
  rw [zero] at low
  rw [nine] at high
  exact ⟨by simp; omega, by simp; omega⟩

theorem isDigit_of_parseDigits {value : Int} (parsed : parseDigits text = some value) :
    ∀ byte ∈ text, isDigit byte = true := by
  unfold parseDigits at parsed
  split_ifs at parsed with digits
  exact List.all_eq_true.1 digits.2

theorem printable_of_digitsAt {value : Int} (read : (digitsAt text start stop).run = .ok (some value))
    (low : start ≤ index) (high : index < stop) (found : text[index]? = some byte) : isPrintable byte = true := by
  have inside : ((text.take stop).drop start)[index - start]? = some byte := by
    rw [List.getElem?_drop, List.getElem?_take, show start + (index - start) = index by omega, if_pos high, found]
  exact isPrintable_of_isDigit (isDigit_of_parseDigits (digitsAt_eq_some read) byte (List.mem_of_getElem? inside))

theorem printable_of_same {c : Char} {other : UInt8} (same : text[index]? = some other)
    (letter : other = byteOf c) (printable : isPrintable (byteOf c) = true) (found : text[index]? = some byte) :
    isPrintable byte = true := by
  rw [same] at found
  obtain rfl := Option.some.inj found
  rw [letter]
  exact printable

theorem printable_of_parseYmd {date : Int × Int × Int} (parsed : (parseYmd text).run = .ok (some date))
    (found : text[index]? = some byte) : isPrintable byte = true := by
  obtain ⟨_, shape, parsed⟩ := optionT_bind_eq_some.1 parsed
  obtain ⟨length, first, second⟩ := guard_eq_some.1 shape
  obtain ⟨year, readYear, parsed⟩ := optionT_bind_eq_some.1 parsed
  obtain ⟨month, readMonth, parsed⟩ := optionT_bind_eq_some.1 parsed
  obtain ⟨day, readDay, -⟩ := optionT_bind_eq_some.1 parsed
  have inside := (List.getElem?_eq_some_iff.1 found).1
  obtain year' | rfl | month' | rfl | day' :
      index < 4 ∨ index = 4 ∨ (5 ≤ index ∧ index < 7) ∨ index = 7 ∨ 8 ≤ index := by omega
  · exact printable_of_digitsAt readYear (Nat.zero_le _) year' found
  · exact printable_of_same first rfl (by decide) found
  · exact printable_of_digitsAt readMonth month'.1 month'.2 found
  · exact printable_of_same second rfl (by decide) found
  · exact printable_of_digitsAt readDay day' (by omega) found

theorem printable_of_parseMillis {requireMillis : Bool} {millis : Int}
    (parsed : parseMillis text requireMillis = some millis) (behind : 8 ≤ index) (found : text[index]? = some byte) :
    isPrintable byte = true := by
  unfold parseMillis at parsed
  dsimp only at parsed
  have inside := (List.getElem?_eq_some_iff.1 found).1
  split_ifs at parsed with short point wrong
  · omega
  · by_cases here : index = 8
    · subst here
      exact printable_of_same point rfl (by decide) found
    · simp only [not_or, List.any_eq_true, not_exists, not_and] at wrong
      have digit : byte ∈ text.drop 9 := by
        apply List.mem_of_getElem? (i := index - 9)
        rw [List.getElem?_drop, ← found]
        congr 1
        omega
      exact isPrintable_of_isDigit (by simpa using wrong.2.1 byte digit)

theorem printable_of_parseHms {requireMillis : Bool} {time : Int}
    (parsed : (parseHms text requireMillis).run = .ok (some time)) (found : text[index]? = some byte) :
    isPrintable byte = true := by
  obtain ⟨_, shape, parsed⟩ := optionT_bind_eq_some.1 parsed
  obtain ⟨length, first, second⟩ := guard_eq_some.1 shape
  obtain ⟨hour, readHour, parsed⟩ := optionT_bind_eq_some.1 parsed
  obtain ⟨minute, readMinute, parsed⟩ := optionT_bind_eq_some.1 parsed
  obtain ⟨seconds, readSeconds, parsed⟩ := optionT_bind_eq_some.1 parsed
  obtain ⟨_, -, parsed⟩ := optionT_bind_eq_some.1 parsed
  obtain ⟨millis, readMillis, -⟩ := optionT_bind_eq_some.1 parsed
  obtain hour' | rfl | minute' | rfl | seconds' | millis' :
      index < 2 ∨ index = 2 ∨ (3 ≤ index ∧ index < 5) ∨ index = 5 ∨ (6 ≤ index ∧ index < 8) ∨ 8 ≤ index := by omega
  · exact printable_of_digitsAt readHour (Nat.zero_le _) hour' found
  · exact printable_of_same first rfl (by decide) found
  · exact printable_of_digitsAt readMinute minute'.1 minute'.2 found
  · exact printable_of_same second rfl (by decide) found
  · exact printable_of_digitsAt readSeconds seconds'.1 seconds'.2 found
  · exact printable_of_parseMillis (ofOption_eq_some.1 readMillis) millis' found

theorem printable_of_splitOffset {time : List UInt8} {offset : Int}
    (parsed : (splitOffset text).run = .ok (some (time, offset))) :
    ∃ count, time = text.take count
      ∧ ∀ index byte, count ≤ index → text[index]? = some byte → isPrintable byte = true := by
  rcases splitOffset_eq_some parsed with ⟨zulu, taken⟩ | ⟨signIndex, hours, minutes, sign, taken, zone⟩
  · refine ⟨_, taken, fun index byte behind found => ?_⟩
    have inside := (List.getElem?_eq_some_iff.1 found).1
    rw [List.getLast?_eq_getElem?] at zulu
    obtain rfl : index = text.length - 1 := by omega
    exact printable_of_same zulu rfl (by decide) found
  · obtain ⟨length, colon, readHours, readMinutes, -⟩ := zone
    refine ⟨_, taken, fun index byte behind found => ?_⟩
    have inside := (List.getElem?_eq_some_iff.1 found).1
    rw [List.length_drop] at length
    by_cases here : index = signIndex
    · obtain ⟨other, same, letter⟩ := rfindSign_eq_some sign
      rw [here, same] at found
      obtain rfl := Option.some.inj found
      rcases letter with plus | minus
      · rw [plus]
        decide
      · rw [minus]
        decide
    · have later : (text.drop (signIndex + 1))[index - (signIndex + 1)]? = some byte := by
        rw [List.getElem?_drop, ← found]
        congr 1
        omega
      obtain hour | colon' | minute : index - (signIndex + 1) < 2 ∨ index - (signIndex + 1) = 2
          ∨ 3 ≤ index - (signIndex + 1) := by omega
      · exact printable_of_digitsAt readHours (Nat.zero_le _) hour later
      · rw [colon'] at later
        exact printable_of_same colon rfl (by decide) later
      · exact printable_of_digitsAt readMinutes minute (by omega) later

theorem printable_of_parseRfc3339 {timestamp : Int} (parsed : (parseRfc3339 text).run = .ok (some timestamp)) :
    ∀ byte ∈ text, isPrintable byte = true := by
  intro byte member
  obtain ⟨index, found⟩ := List.mem_iff_getElem?.1 member
  obtain ⟨separator, letter, parsed⟩ := optionT_bind_eq_some.1 parsed
  rw [ofOption_eq_some] at letter
  obtain ⟨date, before, parsed⟩ := optionT_bind_eq_some.1 parsed
  obtain ⟨rest, behind, parsed⟩ := optionT_bind_eq_some.1 parsed
  obtain ⟨rest', got, parsed⟩ := optionT_bind_eq_some.1 parsed
  obtain ⟨⟨time, offset⟩, zone, parsed⟩ := optionT_bind_eq_some.1 parsed
  obtain ⟨⟨year, month, day⟩, ymd, parsed⟩ := optionT_bind_eq_some.1 parsed
  obtain ⟨days, -, parsed⟩ := optionT_bind_eq_some.1 parsed
  obtain ⟨millis, hms, -⟩ := optionT_bind_eq_some.1 parsed
  obtain rfl := slice_eq_some before
  obtain rfl := slice_eq_some behind
  rw [ofOption_eq_some] at got
  split_ifs at got
  obtain rfl := Option.some.inj got
  rw [List.take_length, List.drop_drop] at zone
  rcases Nat.lt_trichotomy index separator with inDate | here | later
  · have there : ((text.take separator).drop 0)[index]? = some byte := by
      rw [List.drop_zero, List.getElem?_take, if_pos inDate, found]
    exact printable_of_parseYmd ymd there
  · exact printable_of_same (findIdx_separator letter) rfl (by decide) (here ▸ found)
  · have inRest : (text.drop (separator + 1))[index - (separator + 1)]? = some byte := by
      rw [List.getElem?_drop, ← found]
      congr 1
      omega
    obtain ⟨count, rfl, others⟩ := printable_of_splitOffset zone
    by_cases inTime : index - (separator + 1) < count
    · have there : ((text.drop (separator + 1)).take count)[index - (separator + 1)]? = some byte := by
        rw [List.getElem?_take, if_pos inTime, inRest]
      exact printable_of_parseHms hms there
    · exact others _ byte (by omega) inRest

theorem printable_characters {text : String} (printable : ∀ byte ∈ asBytes text, isPrintable byte = true) :
    ∀ c ∈ text.toList, 0x20 ≤ c.toNat ∧ c.toNat < 0x7F := by
  intro c member
  obtain ⟨first, rest, encoded, -, bytes⟩ := utf8EncodeChar_cases c
  have inside : first ∈ asBytes text := by
    refine List.mem_flatMap.2 ⟨c, member, ?_⟩
    rw [encoded]
    exact List.mem_cons_self
  have range := printable first inside
  simp only [isPrintable, Bool.and_eq_true, decide_eq_true_eq, UInt8.le_iff_toNat_le, UInt8.lt_iff_toNat_lt] at range
  simp only [UInt8.lt_iff_toNat_lt] at bytes
  simp only [UInt8.reduceToNat] at range bytes
  rcases bytes with ⟨-, same⟩ | ⟨longer, -⟩ <;> omega

end BasicNext.Text
