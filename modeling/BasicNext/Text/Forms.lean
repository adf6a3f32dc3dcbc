import BasicNext.Text.Checked
import BasicNext.Text.TemporalBytes

/-!
# What the parsers of temporal texts take

The forms of dates, times, timestamps and zone names. The parsers take texts of their form only; they stop the
program on a text whose seconds end inside a character and on a zone name that goes on behind `Etc/GMT` with a
character of several bytes, and they take a zone name with two signs.
-/

namespace BasicNext.Text

open Lib

variable {text : List UInt8} {index : Nat} {byte : UInt8} {name : String}

/-! ### Forms -/

/-- `YYYY-MM-DD` -/
def DateText (text : List UInt8) (year month day : Int) : Prop :=
  ∃ years months days, text = years ++ byteOf '-' :: (months ++ byteOf '-' :: days) ∧ Spells years 4 year
    ∧ Spells months 2 month ∧ Spells days 2 day

/-- `.m`, with zeros behind the third digit. -/
def FractionText (text : List UInt8) (requireMillis : Bool) : Prop :=
  text = [] ∧ requireMillis = false
    ∨ ∃ digits, text = byteOf '.' :: digits ∧ digits ≠ [] ∧ (∀ byte ∈ digits, isDigit byte = true)
      ∧ (requireMillis = true → digits.length = 3) ∧ ∀ byte ∈ digits.drop 3, byte = byteOf '0'

/-- `HH:MM:SS` and a fraction. -/
def TimeText (text : List UInt8) (requireMillis : Bool) : Prop :=
  ∃ hours minutes seconds fraction hour minute second,
    text = hours ++ byteOf ':' :: (minutes ++ byteOf ':' :: (seconds ++ fraction)) ∧ Spells hours 2 hour
      ∧ Spells minutes 2 minute ∧ Spells seconds 2 second ∧ (hour ≤ 23 ∧ minute ≤ 59 ∧ second ≤ 59)
      ∧ FractionText fraction requireMillis

/-- `Z`, or a sign and `HH:MM`. -/
def OffsetText (text : List UInt8) : Prop :=
  text = [byteOf 'Z']
    ∨ ∃ sign hours minutes hour minute, text = sign :: (hours ++ byteOf ':' :: minutes)
      ∧ (sign = byteOf '+' ∨ sign = byteOf '-') ∧ Spells hours 2 hour ∧ Spells minutes 2 minute ∧ hour ≤ 23 ∧ minute ≤ 59

/-- The date, the letter `T`, the time and the offset. -/
def TimestampText (text : List UInt8) : Prop :=
  ∃ date time zone year month day, text = date ++ byteOf 'T' :: (time ++ zone) ∧ DateText date year month day
    ∧ CivilDate.Supported ⟨year, month, day⟩ ∧ TimeText time false ∧ OffsetText zone

/-- A name of the table, or `Etc/GMT` and a number of hours from 1 to 14 behind a sign. -/
def ZoneName (name : String) : Prop :=
  (∃ zone ∈ timezones, zone.1 = name)
    ∨ ∃ sign digits hours, asBytes name = asBytes "Etc/GMT" ++ sign :: digits
      ∧ (sign = byteOf '+' ∨ sign = byteOf '-') ∧ parseDigits digits = some hours ∧ 1 ≤ hours ∧ hours ≤ 14

/-! ### Pieces of a text -/

theorem take_append_of_getElem? (found : text[index]? = some byte) :
    text = text.take index ++ byte :: text.drop (index + 1) := by
  obtain ⟨inside, rfl⟩ := List.getElem?_eq_some_iff.1 found
  rw [← List.drop_eq_getElem_cons inside, List.take_append_drop]

theorem spells_of_digitsAt {start stop : Nat} {value : Int} (read : (digitsAt text start stop).run = .ok (some value))
    (inside : stop ≤ text.length) : Spells ((text.drop start).take (stop - start)) (stop - start) value := by
  have parsed := digitsAt_eq_some read
  rw [List.drop_take] at parsed
  refine ⟨?_, isDigit_of_parseDigits parsed, parsed⟩
  rw [List.length_take, List.length_drop]
  omega

theorem dateText_of_parseYmd {year month day : Int} (read : (parseYmd text).run = .ok (some (year, month, day))) :
    DateText text year month day := by
  obtain ⟨_, shape, read⟩ := optionT_bind_eq_some.1 read
  obtain ⟨length, first, second⟩ := guard_eq_some.1 shape
  obtain ⟨year', readYear, read⟩ := optionT_bind_eq_some.1 read
  obtain ⟨month', readMonth, read⟩ := optionT_bind_eq_some.1 read
  obtain ⟨day', readDay, read⟩ := optionT_bind_eq_some.1 read
  cases read
  have behind : (text.drop 5)[2]? = some (byteOf '-') := by
    rw [List.getElem?_drop]
    exact second
  have days := spells_of_digitsAt readDay (by omega)
  rw [List.take_of_length_le (by rw [List.length_drop]; omega)] at days
  refine ⟨_, _, _, ?_, spells_of_digitsAt readYear (by omega), spells_of_digitsAt readMonth (by omega), days⟩
  have whole := take_append_of_getElem? first
  have rest := take_append_of_getElem? behind
  rw [List.drop_drop] at rest
  rw [rest] at whole
  exact whole

theorem fractionText_of_parseMillis {requireMillis : Bool} {millis : Int}
    (read : parseMillis text requireMillis = some millis) : FractionText (text.drop 8) requireMillis := by
  unfold parseMillis at read
  dsimp only at read
  split_ifs at read with short point wrong
  · exact .inl ⟨List.drop_eq_nil_of_le (by omega), short.2⟩
  · simp only [not_or, List.any_eq_true, not_exists, not_and, bne_iff_ne, ne_eq, not_not] at wrong
    obtain ⟨some, decimal, three, zeros⟩ := wrong
    refine .inr ⟨text.drop 9, ?_, some, fun byte member => by simpa using decimal byte member, three, zeros⟩
    obtain ⟨inside, same⟩ := List.getElem?_eq_some_iff.1 point
    rw [List.drop_eq_getElem_cons inside, same]

theorem timeText_of_parseHms {requireMillis : Bool} {time : Int}
    (read : (parseHms text requireMillis).run = .ok (some time)) : TimeText text requireMillis := by
  obtain ⟨_, shape, read⟩ := optionT_bind_eq_some.1 read
  obtain ⟨length, first, second⟩ := guard_eq_some.1 shape
  obtain ⟨hour, readHour, read⟩ := optionT_bind_eq_some.1 read
  obtain ⟨minute, readMinute, read⟩ := optionT_bind_eq_some.1 read
  obtain ⟨seconds, readSeconds, read⟩ := optionT_bind_eq_some.1 read
  obtain ⟨_, range, read⟩ := optionT_bind_eq_some.1 read
  obtain ⟨millis, readMillis, -⟩ := optionT_bind_eq_some.1 read
  have behind : (text.drop 3)[2]? = some (byteOf ':') := by
    rw [List.getElem?_drop]
    exact second
  refine ⟨_, _, _, _, hour, minute, seconds, ?_, spells_of_digitsAt readHour (by omega),
    spells_of_digitsAt readMinute (by omega), spells_of_digitsAt readSeconds (by omega), guard_eq_some.1 range,
    fractionText_of_parseMillis (ofOption_eq_some.1 readMillis)⟩
  have whole := take_append_of_getElem? first
  have rest := take_append_of_getElem? behind
  have last := List.take_append_drop 2 (text.drop 6)
  rw [List.drop_drop] at rest last
  rw [← last] at rest
  rw [rest] at whole
  exact whole

theorem offsetText_of_splitOffset {time : List UInt8} {offset : Int}
    (found : (splitOffset text).run = .ok (some (time, offset))) : ∃ zone, text = time ++ zone ∧ OffsetText zone := by
  rcases splitOffset_eq_some found with ⟨zulu, taken⟩ | ⟨signIndex, hours, minutes, sign, taken, length, colon, zone⟩
  · refine ⟨[byteOf 'Z'], ?_, .inl rfl⟩
    rw [taken, ← List.dropLast_eq_take]
    exact (List.dropLast_append_getLast? _ zulu).symm
  · obtain ⟨readHours, readMinutes, range⟩ := zone
    obtain ⟨letter, same, signs⟩ := rfindSign_eq_some sign
    have minutes' := spells_of_digitsAt readMinutes (by omega)
    rw [List.take_of_length_le (by rw [List.length_drop]; omega)] at minutes'
    refine ⟨letter :: text.drop (signIndex + 1), ?_, .inr ⟨letter, _, _, hours, minutes, ?_, signs,
      spells_of_digitsAt readHours (by omega), minutes', range⟩⟩
    · rw [taken]
      exact take_append_of_getElem? same
    · rw [List.cons_inj_right]
      exact take_append_of_getElem? colon

theorem timestampText_of_parseRfc3339 {timestamp : Int} (read : (parseRfc3339 text).run = .ok (some timestamp)) :
    TimestampText text := by
  obtain ⟨separator, letter, read⟩ := optionT_bind_eq_some.1 read
  rw [ofOption_eq_some] at letter
  obtain ⟨date, before, read⟩ := optionT_bind_eq_some.1 read
  obtain ⟨rest, behind, read⟩ := optionT_bind_eq_some.1 read
  obtain ⟨rest', got, read⟩ := optionT_bind_eq_some.1 read
  obtain ⟨⟨time, offset⟩, zone, read⟩ := optionT_bind_eq_some.1 read
  obtain ⟨⟨year, month, day⟩, ymd, read⟩ := optionT_bind_eq_some.1 read
  obtain ⟨days, number, read⟩ := optionT_bind_eq_some.1 read
  obtain ⟨millis, hms, -⟩ := optionT_bind_eq_some.1 read
  obtain rfl := slice_eq_some before
  obtain rfl := slice_eq_some behind
  rw [ofOption_eq_some] at got
  split_ifs at got
  obtain rfl := Option.some.inj got
  rw [List.take_length, List.drop_drop] at zone
  obtain ⟨offsetText, same, form⟩ := offsetText_of_splitOffset zone
  refine ⟨_, time, offsetText, year, month, day, ?_, dateText_of_parseYmd ymd,
    supported_of_daysFromCivil (Machine.parseYmd_nonneg ymd) (ofOption_eq_some.1 number), timeText_of_parseHms hms, form⟩
  rw [← same, List.drop_zero]
  exact take_append_of_getElem? (findIdx_separator letter)

/-! ### Zone names -/

/-- A character of several bytes behind `Etc/GMT`. -/
def CutsZone (name : String) : Prop :=
  ∃ suffix, asBytes name = asBytes "Etc/GMT" ++ suffix ∧ suffix ≠ [] ∧ isCharBoundary suffix 1 = false

/-- A second sign in front of the hours. -/
def TwoSigns (name : String) : Prop :=
  ∃ sign digits hours, asBytes name = asBytes "Etc/GMT" ++ sign :: byteOf '+' :: digits
    ∧ (sign = byteOf '+' ∨ sign = byteOf '-') ∧ parseDigits digits = some hours ∧ 1 ≤ hours ∧ hours ≤ 14

theorem parseI32_plus {digits : List UInt8} {hours : Int} (read : parseDigits digits = some hours) (small : hours ≤ 14) :
    parseI32 (byteOf '+' :: digits) = some hours := by
  unfold parseDigits at read
  dsimp only at read
  split_ifs at read with decimal
  cases read
  have plus : byteOf '+' ≠ byteOf '-' := by decide
  unfold parseI32
  simp only [List.head?_cons, Option.some.injEq, plus, List.tail_cons, false_or, ↓reduceIte]
  rw [if_pos decimal, if_pos (by omega)]

theorem parseI32_cases {hours : Int} (read : parseI32 text = some hours) (positive : 1 ≤ hours) :
    parseDigits text = some hours ∨ ∃ digits, text = byteOf '+' :: digits ∧ parseDigits digits = some hours := by
  unfold parseI32 at read
  dsimp only at read
  have spell {digits : List UInt8} {value : Int} (decimal : digits ≠ [] ∧ digits.all isDigit = true)
      (same : ((digits.foldl (fun value digit => value * 10 + (digit.toNat - 48)) 0 : Nat) : Int) = value)
      (small : value < 2 ^ 31) : parseDigits digits = some value := by
    rw [parseDigits, if_pos decimal]
    dsimp only
    rw [if_pos (by omega), same]
  by_cases negative : text.head? = some (byteOf '-')
  · simp only [negative, true_or, ↓reduceIte] at read
    split_ifs at read
    cases read
    omega
  · by_cases plus : text.head? = some (byteOf '+')
    · rw [plus] at negative read
      simp only [negative, or_true, ↓reduceIte] at read
      split_ifs at read with decimal bounds
      cases text with
      | nil => cases plus
      | cons sign digits =>
        cases plus
        exact .inr ⟨digits, rfl, spell decimal (Option.some.inj read) (Option.some.inj read ▸ bounds.2)⟩
    · simp only [negative, plus, or_self, ↓reduceIte] at read
      split_ifs at read with decimal bounds
      exact .inl (spell decimal (Option.some.inj read) (Option.some.inj read ▸ bounds.2))

theorem asBytes_inj {first second : String} (same : asBytes first = asBytes second) : first = second := by
  have bytes (text : String) : text.toByteArray = (asBytes text).toByteArray := by
    rw [← String.ofList_toList (s := text), String.toByteArray_ofList, String.ofList_toList]
    rfl
  rw [← String.toByteArray_inj, bytes, bytes, same]

theorem names_etc : ∀ zone ∈ timezones, (asBytes "Etc/GMT").isPrefixOf (asBytes zone.1) = true →
    asBytes zone.1 = asBytes "Etc/GMT" := by decide

section

variable {suffix digits : List UInt8} {sign : UInt8} {info : TimeZoneInfo} {panic : Panic}

theorem etcZone_eq_error (failed : (etcZone suffix).run = .error panic) :
    suffix ≠ [] ∧ isCharBoundary suffix 1 = false := by
  unfold etcZone at failed
  split_ifs at failed with empty
  · cases failed
  refine ⟨empty, ?_⟩
  by_contra whole
  rw [Bool.not_eq_false] at whole
  have length : 1 ≤ suffix.length := List.length_pos_iff.2 empty
  rcases optionT_bind_eq_error.1 failed with wrong | ⟨sign, -, failed⟩
  · rw [slice_of_boundaries (by omega) isCharBoundary_zero whole] at wrong
    cases wrong
  rcases optionT_bind_eq_error.1 failed with wrong | ⟨digits, -, failed⟩
  · rw [slice_of_boundaries length whole isCharBoundary_length] at wrong
    cases wrong
  rcases optionT_bind_eq_error.1 failed with wrong | ⟨hours, -, failed⟩
  · exact ofOption_ne_error wrong
  rcases optionT_bind_eq_error.1 failed with wrong | ⟨_, -, failed⟩
  · exact guard_ne_error wrong
  split_ifs at failed <;> cases failed

theorem etcZone_cut (some : suffix ≠ []) (cut : isCharBoundary suffix 1 = false) :
    (etcZone suffix).run = .error .charBoundary := by
  unfold etcZone
  rw [if_neg some]
  refine optionT_bind_eq_error.2 (.inl ?_)
  rw [slice, if_neg (by simp [cut])]
  rfl

theorem etcZone_eq_some (found : (etcZone suffix).run = .ok (some info)) :
    suffix = [] ∨ ∃ sign digits hours, suffix = sign :: digits ∧ (sign = byteOf '+' ∨ sign = byteOf '-')
      ∧ parseI32 digits = some hours ∧ 1 ≤ hours ∧ hours ≤ 14 := by
  unfold etcZone at found
  split_ifs at found with empty
  · exact .inl empty
  obtain ⟨letter, first, found⟩ := optionT_bind_eq_some.1 found
  obtain ⟨digits, rest, found⟩ := optionT_bind_eq_some.1 found
  obtain ⟨hours, read, found⟩ := optionT_bind_eq_some.1 found
  obtain ⟨_, range, answer⟩ := optionT_bind_eq_some.1 found
  obtain rfl := slice_eq_some first
  obtain rfl := slice_eq_some rest
  obtain ⟨sign, digits, rfl⟩ := List.exists_cons_of_ne_nil empty
  rw [List.take_length, ofOption_eq_some] at read
  refine .inr ⟨sign, digits, hours, rfl, ?_, read, guard_eq_some.1 range⟩
  split_ifs at answer with plus minus
  · exact .inl (List.singleton_inj.1 plus)
  · exact .inr (List.singleton_inj.1 minus)
  · cases answer

theorem etcZone_accepts {hours : Int} (boundary : isCharBoundary (sign :: digits) 1 = true)
    (letter : sign = byteOf '+' ∨ sign = byteOf '-') (read : parseI32 digits = some hours) (first : 1 ≤ hours)
    (last : hours ≤ 14) : ∃ info, (etcZone (sign :: digits)).run = .ok (some info) := by
  have signs : (slice (sign :: digits) 0 1).run = .ok (some [sign]) :=
    slice_of_boundaries (by omega) isCharBoundary_zero boundary
  have rest : (slice (sign :: digits) 1 (sign :: digits).length).run = .ok (some digits) := by
    rw [slice_of_boundaries (by simp) boundary isCharBoundary_length, List.take_length, List.drop_one, List.tail_cons]
  have passed : (guard (1 ≤ hours ∧ hours ≤ 14) : Parse Unit).run = .ok (some ()) := guard_eq_some.2 ⟨first, last⟩
  unfold etcZone
  rw [if_neg (List.cons_ne_nil _ _), optionT_bind_of_some signs, optionT_bind_of_some rest,
    optionT_bind_of_some (ofOption_eq_some.2 read), optionT_bind_of_some passed]
  rcases letter with rfl | rfl
  · exact ⟨_, rfl⟩
  · exact ⟨_, rfl⟩

theorem lookupTimezone_etc (same : asBytes name = asBytes "Etc/GMT" ++ suffix) (some : suffix ≠ []) :
    (∀ zone ∈ timezones, zone.1 ≠ name) ∧ lookupTimezone name = etcZone suffix := by
  have isPrefix : (asBytes "Etc/GMT").isPrefixOf (asBytes name) = true := by
    rw [List.isPrefixOf_iff_prefix, same]
    exact List.prefix_append _ _
  have others : ∀ zone ∈ timezones, zone.1 ≠ name := by
    intro zone member here
    have whole := names_etc zone member (by rw [here]; exact isPrefix)
    rw [here, same] at whole
    exact some (List.append_right_eq_self.1 whole)
  have absent : timezones.find? (fun zone => zone.1 == name) = none := by
    rw [List.find?_eq_none]
    intro zone member
    simpa using others zone member
  refine ⟨others, ?_⟩
  unfold lookupTimezone
  rw [absent]
  dsimp only
  rw [if_pos isPrefix, same, List.drop_left]

theorem lookupTimezone_eq_some (found : (lookupTimezone name).run = .ok (some info)) : (∃ zone ∈ timezones, zone.1 = name)
      ∨ ∃ suffix, asBytes name = asBytes "Etc/GMT" ++ suffix ∧ (etcZone suffix).run = .ok (some info) := by
  unfold lookupTimezone at found
  cases listed : timezones.find? fun zone => zone.1 == name with
  | some zone =>
    have same := List.find?_some listed
    exact .inl ⟨zone, List.mem_of_find?_eq_some listed, beq_iff_eq.1 same⟩
  | none =>
    rw [listed] at found
    dsimp only at found
    split_ifs at found with isPrefix
    · obtain ⟨suffix, same⟩ := List.isPrefixOf_iff_prefix.1 isPrefix
      rw [← same, List.drop_left] at found
      exact .inr ⟨suffix, same.symm, found⟩
    · cases found

theorem lookupTimezone_eq_error : (∃ panic, (lookupTimezone name).run = .error panic) ↔ CutsZone name := by
  constructor
  · rintro ⟨panic, failed⟩
    unfold lookupTimezone at failed
    cases listed : timezones.find? fun zone => zone.1 == name with
    | some zone =>
      rw [listed] at failed
      cases failed
    | none =>
      rw [listed] at failed
      dsimp only at failed
      split_ifs at failed with isPrefix
      · obtain ⟨suffix, same⟩ := List.isPrefixOf_iff_prefix.1 isPrefix
        rw [← same, List.drop_left] at failed
        exact ⟨suffix, same.symm, etcZone_eq_error failed⟩
      · cases failed
  · rintro ⟨suffix, same, some, cut⟩
    rw [(lookupTimezone_etc same some).2]
    exact ⟨_, etcZone_cut some cut⟩

end

theorem zoneName_of_lookupTimezone {info : TimeZoneInfo} (found : (lookupTimezone name).run = .ok (some info)) :
    ZoneName name ∨ TwoSigns name := by
  rcases lookupTimezone_eq_some found with listed | ⟨suffix, same, found⟩
  · exact .inl (.inl listed)
  rcases etcZone_eq_some found with rfl | ⟨sign, digits, hours, rfl, letter, read, first, last⟩
  · rw [List.append_nil] at same
    exact .inl (.inl ⟨("Etc/GMT", ⟨0, .none⟩), by decide, (asBytes_inj same).symm⟩)
  · rcases parseI32_cases read first with decimal | ⟨digits, rfl, decimal⟩
    · exact .inl (.inr ⟨sign, digits, hours, same, letter, decimal, first, last⟩)
    · exact .inr ⟨sign, digits, hours, same, letter, decimal, first, last⟩

theorem TwoSigns.accepted (two : TwoSigns name) :
    (∃ info, (lookupTimezone name).run = .ok (some info)) ∧ ¬ ZoneName name := by
  obtain ⟨sign, digits, hours, same, letter, decimal, first, last⟩ := two
  obtain ⟨others, etc⟩ := lookupTimezone_etc same (List.cons_ne_nil _ _)
  constructor
  · rw [etc]
    exact etcZone_accepts (isCharBoundary_at rfl (by decide)) letter (parseI32_plus decimal last) first last
  · rintro (⟨zone, member, here⟩ | ⟨sign', digits', hours', same', -, decimal', -⟩)
    · exact others zone member here
    · rw [same, List.append_cancel_left_eq, List.cons.injEq] at same'
      have plus := isDigit_of_parseDigits decimal' (byteOf '+') (by rw [← same'.2]; exact List.mem_cons_self)
      exact absurd plus (by decide)

/-! ### The parsers on every text -/

/-- The parser neither panics nor overflows, and takes only what has the form. -/
def Reports {α : Type} (parse : Checked α) (form : Prop) : Prop :=
  Faultless parse ∧ ∀ value, parse.run = .ok (some value) → form

structure ParsersReport (text : String) : Prop where
  hms : ∀ requireMillis, Reports (Machine.parseHms (asBytes text) requireMillis) (TimeText (asBytes text) requireMillis)
  ymd : Reports (parseYmd (asBytes text)).checked (∃ year month day, DateText (asBytes text) year month day)
  rfc3339 : Reports (Machine.parseRfc3339 (asBytes text)) (TimestampText (asBytes text))
  zone : Reports (Machine.lookupTimezone text) (ZoneName text)

theorem reports_checked {α : Type} {parse : Parse α} {form : Prop} :
    Reports parse.checked form ↔ (¬ ∃ panic, parse.run = .error panic) ∧ ∀ value, parse.run = .ok (some value) → form := by
  unfold Reports Faultless Parse.checked
  simp only [ne_eq, mapFault_eq_error, mapFault_eq_some, not_exists, not_and]
  constructor
  · rintro ⟨total, takes⟩
    exact ⟨fun panic failed => total _ panic failed rfl, takes⟩
  · rintro ⟨total, takes⟩
    exact ⟨fun _ panic failed _ => total panic failed, takes⟩

/-- The parsers are total and take texts of their form only, except where a time ends inside a character, a
timestamp that is whole up to its time has such a time, or a zone name goes on behind `Etc/GMT` with a character of
several bytes or with two signs. -/
theorem parsersReport_iff (text : String) : ParsersReport text ↔
    ¬ CutsSeconds (asBytes text) ∧ (¬ ∃ separator time, Cuts (asBytes text) separator time) ∧ ¬ CutsZone text
      ∧ ¬ TwoSigns text := by
  have next := nextStarts_asBytes text
  constructor
  · rintro ⟨hms, -, rfc3339, zone⟩
    rw [Machine.parseRfc3339_eq, reports_checked, parseRfc3339_eq_error next] at rfc3339
    rw [Machine.lookupTimezone_eq, reports_checked, lookupTimezone_eq_error] at zone
    have first := hms false
    rw [Machine.parseHms_eq, reports_checked, parseHms_eq_error next] at first
    refine ⟨first.1, rfc3339.1, zone.1, fun two => ?_⟩
    obtain ⟨⟨info, found⟩, noName⟩ := two.accepted
    exact noName (zone.2 info found)
  · rintro ⟨whole, whole', whole'', one⟩
    refine ⟨fun requireMillis => ?_, ?_, ?_, ?_⟩
    · rw [Machine.parseHms_eq, reports_checked, parseHms_eq_error next]
      exact ⟨whole, fun value => timeText_of_parseHms⟩
    · rw [reports_checked]
      refine ⟨?_, fun value read => ?_⟩
      · rintro ⟨panic, failed⟩
        exact parseYmd_ne_error next failed
      · obtain ⟨year, month, day⟩ := value
        exact ⟨year, month, day, dateText_of_parseYmd read⟩
    · rw [Machine.parseRfc3339_eq, reports_checked, parseRfc3339_eq_error next]
      exact ⟨whole', fun value => timestampText_of_parseRfc3339⟩
    · rw [Machine.lookupTimezone_eq, reports_checked, lookupTimezone_eq_error]
      exact ⟨whole'', fun value found => (zoneName_of_lookupTimezone found).resolve_right one⟩

/-- `parse_hms` panics on a time with a longer character in the seconds. -/
theorem not_parsersReport : ¬ ∀ text, ParsersReport text := by
  intro all
  have total := ((all "12:34:5é").hms false).1 (.cut .charBoundary)
  exact total (by decide)

end BasicNext.Text
