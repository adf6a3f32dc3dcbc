import BasicNext.Text.Civil
import BasicNext.Text.TemporalSlices
import BasicNext.Text.TimeZone

/-!
# The text of a timestamp in a zone

The parser of timestamps reads back what the printer wrote: the text has ASCII bytes only, each part of it has
a fixed width, and the printed offset is a number of minutes below a day.
-/

namespace BasicNext.Text

open Lib

variable {text : List UInt8} {start stop index width : Nat} {info : TimeZoneInfo} {name : String} {timestamp n : Int}

/-! ### Zones -/

theorem etcZone_sound {suffix : List UInt8} (found : (etcZone suffix).run = .ok (some info)) : info.Sound := by
  unfold etcZone at found
  split_ifs at found with empty
  · cases found
    exact ⟨by decide, by decide⟩
  · obtain ⟨sign, -, found⟩ := optionT_bind_eq_some.1 found
    obtain ⟨digits, -, found⟩ := optionT_bind_eq_some.1 found
    obtain ⟨hours, -, found⟩ := optionT_bind_eq_some.1 found
    obtain ⟨_, range, found⟩ := optionT_bind_eq_some.1 found
    obtain ⟨first, last⟩ := guard_eq_some.1 range
    split_ifs at found with west east
    · cases found
      refine ⟨?_, ?_, ?_⟩ <;> simp only [secondsPerHour, secondsPerMinute] <;> omega
    · cases found
      refine ⟨?_, ?_, ?_⟩ <;> simp only [secondsPerHour, secondsPerMinute] <;> omega
    · cases found

theorem lookupTimezone_sound (known : (lookupTimezone name).run = .ok (some info)) : info.Sound := by
  unfold lookupTimezone at known
  cases found : timezones.find? fun zone => zone.1 == name with
  | some zone =>
    rw [found] at known
    cases known
    obtain ⟨minutes, admits⟩ := sound_timezones zone (List.mem_of_find?_eq_some found)
    exact ⟨minutes, admits⟩
  | none =>
    rw [found] at known
    dsimp only at known
    split_ifs at known
    · exact etcZone_sound known
    · cases known

theorem isDstActive_rule (active : isDstActive info timestamp = true) : info.rule ≠ .none := by
  intro none
  unfold isDstActive at active
  rw [none] at active
  cases parts : split timestamp with
  | none => simp [parts] at active
  | some parts' => simp [parts] at active

theorem TimeZoneInfo.Sound.offset (sound : info.Sound) (timestamp : Int) :
    info.offset timestamp % secondsPerMinute = 0
      ∧ -14 * secondsPerHour ≤ info.offset timestamp ∧ info.offset timestamp ≤ 14 * secondsPerHour := by
  obtain ⟨minutes, admits⟩ := sound
  unfold TimeZoneInfo.offset
  split_ifs with active
  · have rule := isDstActive_rule active
    cases same : info.rule <;> rw [same] at admits rule <;>
      simp only [DstRule.Admits, secondsPerHour, secondsPerMinute, ne_eq, not_true_eq_false] at * <;> omega
  · cases same : info.rule <;> rw [same] at admits <;>
      simp only [DstRule.Admits, secondsPerHour, secondsPerMinute] at * <;> omega

/-! ### Slices of ASCII text -/

def Ascii (text : List UInt8) : Prop := ∀ byte ∈ text, byte < 0x80

theorem Ascii.isCharBoundary (ascii : Ascii text) (inside : index ≤ text.length) : isCharBoundary text index = true := by
  by_cases last : index = text.length
  · rw [last]
    exact isCharBoundary_length
  · have found : text[index]? = some text[index] := List.getElem?_eq_getElem (by omega)
    exact isCharBoundary_at found (ascii _ (List.getElem_mem _))

theorem Ascii.slice (ascii : Ascii text) (order : start ≤ stop) (inside : stop ≤ text.length) :
    (slice text start stop).run = .ok (some ((text.take stop).drop start)) :=
  slice_of_boundaries order (ascii.isCharBoundary (by omega)) (ascii.isCharBoundary inside)

theorem Ascii.digitsAt {value : Int} (ascii : Ascii text) (order : start ≤ stop) (inside : stop ≤ text.length)
    (read : parseDigits ((text.take stop).drop start) = some value) :
    (digitsAt text start stop).run = .ok (some value) :=
  optionT_bind_eq_some.2 ⟨_, ascii.slice order inside, ofOption_eq_some.2 read⟩

/-! ### Digits -/

theorem byteOf_digit {c : Char} (digit : c.isDigit = true) : (byteOf c).toNat = c.toNat ∧ isDigit (byteOf c) = true := by
  simp only [Char.isDigit, Bool.and_eq_true, decide_eq_true_eq, UInt32.le_iff_toNat_le, ge_iff_le] at digit
  have value : c.val.toNat = c.toNat := rfl
  have bounds : '0'.val.toNat = 48 ∧ '9'.val.toNat = 57 := ⟨rfl, rfl⟩
  have same : (byteOf c).toNat = c.toNat := by
    rw [toNat_byteOf]
    omega
  refine ⟨same, ?_⟩
  simp only [isDigit, Bool.and_eq_true, decide_eq_true_eq, UInt8.le_iff_toNat_le, same, toNat_byteOf]
  simp
  omega

theorem foldl_byteOf {characters : List Char} (digits : ∀ c ∈ characters, c.isDigit = true) (value : Nat) :
    (characters.map byteOf).foldl (fun value digit => value * 10 + (digit.toNat - 48)) value =
      Nat.ofDigitChars 10 characters value := by
  induction characters generalizing value with
  | nil => rfl
  | cons c characters ih =>
    rw [List.forall_mem_cons] at digits
    rw [List.map_cons, List.foldl_cons, ih digits.2, (byteOf_digit digits.1).1, Nat.ofDigitChars_cons, Nat.mul_comm]
    rfl

/-- The bytes of a number with a fixed width. -/
structure Spells (digits : List UInt8) (width : Nat) (n : Int) : Prop where
  length : digits.length = width
  decimal : ∀ byte ∈ digits, isDigit byte = true
  value : parseDigits digits = some n

theorem spells_zeroPadded (some : 0 < width) (short : width ≤ 18) (low : 0 ≤ n) (high : n < 10 ^ width) :
    Spells ((zeroPadded width n).map byteOf) width n := by
  obtain ⟨n, rfl⟩ := Int.eq_ofNat_of_zero_le low
  have fits : n < 10 ^ width := by exact_mod_cast high
  have bound : n < 2 ^ 63 := by
    have := Nat.pow_le_pow_right (show 10 > 0 by omega) short
    omega
  rw [zeroPadded, if_neg (by omega), Int.natAbs_natCast]
  have length := length_paddedDigits (by omega) some fits
  have decimal : ∀ byte ∈ (paddedDigits 10 width n).map byteOf, isDigit byte = true := by
    intro byte member
    obtain ⟨c, inside, rfl⟩ := List.mem_map.1 member
    exact (byteOf_digit (isDigit_paddedDigits inside)).2
  have nonempty : (paddedDigits 10 width n).map byteOf ≠ [] := by
    intro empty
    rw [List.map_eq_nil_iff.1 empty] at length
    simp only [List.length_nil] at length
    omega
  refine ⟨by rw [List.length_map, length], decimal, ?_⟩
  rw [parseDigits, if_pos ⟨nonempty, List.all_eq_true.2 decimal⟩]
  rw [foldl_byteOf (fun c inside => isDigit_paddedDigits inside), ofDigitChars_paddedDigits]
  exact if_pos bound

theorem isDigit_facts {byte : UInt8} (digit : isDigit byte = true) :
    byte < 0x80 ∧ byte ≠ byteOf 'T' ∧ byte ≠ byteOf 'Z' ∧ byte ≠ byteOf '+' ∧ byte ≠ byteOf '-' := by
  simp only [isDigit, Bool.and_eq_true, decide_eq_true_eq, UInt8.le_iff_toNat_le, toNat_byteOf, Char.reduceToNat] at digit
  simp only [UInt8.lt_iff_toNat_lt, ne_eq, ← UInt8.toNat_inj, toNat_byteOf, Char.reduceToNat, UInt8.reduceToNat]
  omega

theorem Spells.ascii {digits : List UInt8} (spells : Spells digits width n) : Ascii digits :=
  fun byte member => (isDigit_facts (spells.decimal byte member)).1

theorem Spells.exists_four {digits : List UInt8} (spells : Spells digits 4 n) :
    ∃ a b c d, digits = [a, b, c, d] := by
  obtain ⟨a, rest, rfl⟩ := List.exists_cons_of_length_eq_add_one spells.length
  have length := spells.length
  rw [List.length_cons, Nat.add_right_cancel_iff] at length
  obtain ⟨b, c, d, rfl⟩ := List.length_eq_three.1 length
  exact ⟨a, b, c, d, rfl⟩

/-! ### The parts of a text -/

section

variable {years months days hours minutes seconds millis : List UInt8}
  {year month day hour minute second milli : Int}

theorem parseYmd_spells (first : Spells years 4 year) (second : Spells months 2 month) (third : Spells days 2 day) :
    (parseYmd (years ++ byteOf '-' :: (months ++ byteOf '-' :: days))).run = .ok (some (year, month, day)) := by
  have ascii : Ascii (years ++ byteOf '-' :: (months ++ byteOf '-' :: days)) := by
    have minus : byteOf '-' < 0x80 := by decide
    simp only [Ascii, List.forall_mem_append, List.forall_mem_cons]
    exact ⟨first.ascii, minus, second.ascii, minus, third.ascii⟩
  obtain ⟨y₁, y₂, y₃, y₄, rfl⟩ := first.exists_four
  obtain ⟨m₁, m₂, rfl⟩ := List.length_eq_two.1 second.length
  obtain ⟨d₁, d₂, rfl⟩ := List.length_eq_two.1 third.length
  refine optionT_bind_eq_some.2 ⟨(), guard_eq_some.2 ⟨rfl, rfl, rfl⟩, ?_⟩
  refine optionT_bind_eq_some.2 ⟨year, ascii.digitsAt (by decide) (by simp) first.value, ?_⟩
  refine optionT_bind_eq_some.2 ⟨month, ascii.digitsAt (by decide) (by simp) second.value, ?_⟩
  exact optionT_bind_eq_some.2 ⟨day, ascii.digitsAt (by decide) (by simp) third.value, rfl⟩

theorem Spells.foldl {digits : List UInt8} (spells : Spells digits width n) :
    ((digits.foldl (fun value digit => value * 10 + (digit.toNat - 48)) 0 : Nat) : Int) = n := by
  have value := spells.value
  unfold parseDigits at value
  dsimp only at value
  split_ifs at value
  exact Option.some.inj value

theorem parseMillis_spells {time : List UInt8} (length : time.length = 8) (spells : Spells millis 3 milli) :
    parseMillis (time ++ byteOf '.' :: millis) false = some milli := by
  have point : (time ++ byteOf '.' :: millis)[8]? = some (byteOf '.') := by
    rw [List.getElem?_append_right (by omega), length]
    rfl
  have fraction : (time ++ byteOf '.' :: millis).drop 9 = millis := by
    rw [List.drop_append, List.drop_eq_nil_of_le (by omega), length]
    rfl
  have decimal : millis.any (fun byte => !isDigit byte) = false := by
    rw [List.any_eq_false]
    intro byte member
    simp [spells.decimal byte member]
  have value := spells.foldl
  unfold parseMillis
  dsimp only
  rw [if_neg (by simp [length]), if_pos point, fraction]
  obtain ⟨a, b, c, rfl⟩ := List.length_eq_three.1 spells.length
  rw [if_neg (by simp [decimal])]
  exact congrArg some value

theorem parseHms_spells (first : Spells hours 2 hour) (second' : Spells minutes 2 minute)
    (third : Spells seconds 2 second) (fourth : Spells millis 3 milli)
    (range : hour ≤ 23 ∧ minute ≤ 59 ∧ second ≤ 59) :
    (parseHms (hours ++ byteOf ':' :: (minutes ++ byteOf ':' :: (seconds ++ byteOf '.' :: millis))) false).run =
      .ok (some (hour * 3600000 + minute * 60000 + second * 1000 + milli)) := by
  have ascii : Ascii (hours ++ byteOf ':' :: (minutes ++ byteOf ':' :: (seconds ++ byteOf '.' :: millis))) := by
    have colon : byteOf ':' < 0x80 := by decide
    have point : byteOf '.' < 0x80 := by decide
    simp only [Ascii, List.forall_mem_append, List.forall_mem_cons]
    exact ⟨first.ascii, colon, second'.ascii, colon, third.ascii, point, fourth.ascii⟩
  have read : parseMillis (hours ++ byteOf ':' :: (minutes ++ byteOf ':' :: (seconds ++ byteOf '.' :: millis))) false =
      some milli := by
    have length : (hours ++ byteOf ':' :: (minutes ++ byteOf ':' :: seconds)).length = 8 := by
      simp [first.length, second'.length, third.length]
    have parsed := parseMillis_spells length fourth
    simpa using parsed
  obtain ⟨h₁, h₂, rfl⟩ := List.length_eq_two.1 first.length
  obtain ⟨m₁, m₂, rfl⟩ := List.length_eq_two.1 second'.length
  obtain ⟨s₁, s₂, rfl⟩ := List.length_eq_two.1 third.length
  refine optionT_bind_eq_some.2 ⟨(), guard_eq_some.2 ⟨by simp, rfl, rfl⟩, ?_⟩
  refine optionT_bind_eq_some.2 ⟨hour, ascii.digitsAt (by decide) (by simp) first.value, ?_⟩
  refine optionT_bind_eq_some.2 ⟨minute, ascii.digitsAt (by decide) (by simp) second'.value, ?_⟩
  refine optionT_bind_eq_some.2 ⟨second, ascii.digitsAt (by decide) (by simp) third.value, ?_⟩
  refine optionT_bind_eq_some.2 ⟨(), guard_eq_some.2 range, ?_⟩
  exact optionT_bind_eq_some.2 ⟨milli, ofOption_eq_some.2 read, rfl⟩

theorem findIdx_append {test : UInt8 → Bool} {before behind : List UInt8} {byte : UInt8}
    (others : ∀ byte ∈ before, test byte = false) (found : test byte = true) :
    (before ++ byte :: behind).findIdx? test = some before.length := by
  have none : before.findIdx? test = none := List.findIdx?_eq_none_iff.2 others
  rw [List.findIdx?_append, none, List.findIdx?_cons, if_pos found]
  simp

theorem rfindSign_append (time : List UInt8) {zone : List UInt8} {sign : UInt8}
    (letter : sign = byteOf '+' ∨ sign = byteOf '-')
    (others : ∀ byte ∈ zone, byte ≠ byteOf '+' ∧ byte ≠ byteOf '-') :
    rfindSign (time ++ sign :: zone) = some time.length := by
  have reversed : (time ++ sign :: zone).reverse = zone.reverse ++ sign :: time.reverse := by simp
  rw [rfindSign, reversed, findIdx_append]
  · simp
  · intro byte member
    have different := others byte (List.mem_reverse.1 member)
    simpa using different
  · simpa using letter

theorem splitOffset_spells {time : List UInt8} {sign : UInt8} (ascii : Ascii time) (long : 8 ≤ time.length)
    (letter : sign = byteOf '+' ∨ sign = byteOf '-') (first : Spells hours 2 hour) (second : Spells minutes 2 minute)
    (range : hour ≤ 23 ∧ minute ≤ 59) :
    (splitOffset (time ++ sign :: (hours ++ byteOf ':' :: minutes))).run =
      .ok (some (time, (if sign = byteOf '+' then 1 else -1) * (hour * 3600000 + minute * 60000))) := by
  have asciiSign : sign < 0x80 := by
    rcases letter with rfl | rfl <;> decide
  have colon : byteOf ':' < 0x80 := by decide
  have asciiZone : Ascii (hours ++ byteOf ':' :: minutes) := by
    simp only [Ascii, List.forall_mem_append, List.forall_mem_cons]
    exact ⟨first.ascii, colon, second.ascii⟩
  have asciiOffset : Ascii (sign :: (hours ++ byteOf ':' :: minutes)) := List.forall_mem_cons.2 ⟨asciiSign, asciiZone⟩
  have asciiText : Ascii (time ++ sign :: (hours ++ byteOf ':' :: minutes)) := List.forall_mem_append.2 ⟨ascii, asciiOffset⟩
  have others : ∀ byte ∈ hours ++ byteOf ':' :: minutes, byte ≠ byteOf '+' ∧ byte ≠ byteOf '-' := by
    simp only [List.forall_mem_append, List.forall_mem_cons]
    refine ⟨fun byte member => (isDigit_facts (first.decimal byte member)).2.2.2, by decide, ?_⟩
    exact fun byte member => (isDigit_facts (second.decimal byte member)).2.2.2
  have sign' := rfindSign_append time letter others
  obtain ⟨h₁, h₂, rfl⟩ := List.length_eq_two.1 first.length
  obtain ⟨m₁, m₂, rfl⟩ := List.length_eq_two.1 second.length
  have last : (time ++ sign :: ([h₁, h₂] ++ byteOf ':' :: [m₁, m₂])).getLast? ≠ some (byteOf 'Z') := by
    simp only [List.cons_append, List.nil_append, List.getLast?_append, List.getLast?_cons_cons, List.getLast?_singleton]
    simpa using (isDigit_facts (second.decimal m₂ (by simp))).2.2.1
  unfold splitOffset
  rw [if_neg last]
  refine optionT_bind_eq_some.2 ⟨_, ofOption_eq_some.2 sign', ?_⟩
  refine optionT_bind_eq_some.2 ⟨(), guard_eq_some.2 long, ?_⟩
  refine optionT_bind_eq_some.2 ⟨time, ?_, ?_⟩
  · rw [asciiText.slice (Nat.zero_le _) (by simp), List.take_left, List.drop_zero]
  refine optionT_bind_eq_some.2 ⟨sign :: ([h₁, h₂] ++ byteOf ':' :: [m₁, m₂]), ?_, ?_⟩
  · rw [asciiText.slice (by simp) (Nat.le_refl _), List.take_length, List.drop_left]
  refine optionT_bind_eq_some.2 ⟨[h₁, h₂] ++ byteOf ':' :: [m₁, m₂], asciiOffset.slice (by simp) (Nat.le_refl _), ?_⟩
  refine optionT_bind_eq_some.2 ⟨(), guard_eq_some.2 ⟨rfl, rfl⟩, ?_⟩
  refine optionT_bind_eq_some.2 ⟨hour, asciiZone.digitsAt (by decide) (by simp) first.value, ?_⟩
  refine optionT_bind_eq_some.2 ⟨minute, asciiZone.digitsAt (by decide) (by simp) second.value, ?_⟩
  refine optionT_bind_eq_some.2 ⟨(), guard_eq_some.2 range, ?_⟩
  rw [List.head?_cons]
  simp only [Option.some.injEq]
  rfl

end

/-! ### The text -/

theorem asBytes_ofList {characters : List Char} (ascii : ∀ c ∈ characters, c.toNat < 128) :
    asBytes (String.ofList characters) = characters.map byteOf := by
  rw [asBytes, String.toList_ofList]
  induction characters with
  | nil => rfl
  | cons c characters ih =>
    rw [List.forall_mem_cons] at ascii
    rw [List.flatMap_cons, utf8EncodeChar_ascii ascii.1, ih ascii.2]
    rfl

theorem ascii_of_isDigit {c : Char} (digit : c.isDigit = true) : c.toNat < 128 := by
  simp only [Char.isDigit, Bool.and_eq_true, decide_eq_true_eq, UInt32.le_iff_toNat_le, ge_iff_le] at digit
  have value : c.val.toNat = c.toNat := rfl
  have bound : '9'.val.toNat = 57 := rfl
  omega

theorem isDigit_zeroPadded {c : Char} (low : 0 ≤ n) (member : c ∈ zeroPadded width n) : c.isDigit = true := by
  rw [zeroPadded, if_neg (by omega)] at member
  exact isDigit_paddedDigits member

theorem length_zeroPadded (some : 0 < width) (short : width ≤ 18) (low : 0 ≤ n) (high : n < 10 ^ width) :
    (zeroPadded width n).length = width := by
  simpa using (spells_zeroPadded some short low high).length

section

variable {days millis offset : Int}

theorem parseYmd_formatDate (ranged : inRange days = true) : (parseYmd ((formatDate days).map byteOf)).run =
      .ok (some ((civilFromDays days).year, (civilFromDays days).month, (civilFromDays days).day)) := by
  obtain ⟨first, last, firstMonth, lastMonth, firstDay, lastDay⟩ := supported_civilFromDays ranged
  have length := Gregorian.monthLength_le (civilFromDays days).date.year (civilFromDays days).date.month
  unfold minYear at first
  unfold maxYear at last
  simp only [CivilDate.date] at firstMonth lastMonth firstDay lastDay length
  simp only [formatDate, List.map_append, List.map_cons]
  exact parseYmd_spells (spells_zeroPadded (by omega) (by omega) (by omega) (by omega))
    (spells_zeroPadded (by omega) (by omega) (by omega) (by omega))
    (spells_zeroPadded (by omega) (by omega) (by omega) (by omega))

theorem parseHms_formatTime (low : 0 ≤ millis) (high : millis < dayMs) :
    (parseHms ((formatTime millis).map byteOf) false).run = .ok (some millis) := by
  unfold dayMs at high
  simp only [formatTime, List.map_append, List.map_cons]
  rw [parseHms_spells (spells_zeroPadded (by omega) (by omega) (by omega) (by omega))
    (spells_zeroPadded (by omega) (by omega) (by omega) (by omega))
    (spells_zeroPadded (by omega) (by omega) (by omega) (by omega))
    (spells_zeroPadded (by omega) (by omega) (by omega) (by omega)) (by omega)]
  congr 2
  omega

theorem length_formatTime (low : 0 ≤ millis) (high : millis < dayMs) : (formatTime millis).length = 12 := by
  unfold dayMs at high
  simp only [formatTime, List.length_append, List.length_cons]
  rw [length_zeroPadded (by omega) (by omega) (by omega) (by omega),
    length_zeroPadded (by omega) (by omega) (by omega) (by omega),
    length_zeroPadded (by omega) (by omega) (by omega) (by omega),
    length_zeroPadded (by omega) (by omega) (by omega) (by omega)]

theorem mem_formatDate {c : Char} (ranged : inRange days = true) (member : c ∈ formatDate days) :
    c.isDigit = true ∨ c = '-' := by
  obtain ⟨first, last, firstMonth, lastMonth, firstDay, lastDay⟩ := supported_civilFromDays ranged
  unfold minYear at first
  simp only [CivilDate.date] at firstMonth firstDay
  simp only [formatDate, List.mem_append, List.mem_cons] at member
  rcases member with digit | same | digit | same | digit
  · exact .inl (isDigit_zeroPadded (by omega) digit)
  · exact .inr same
  · exact .inl (isDigit_zeroPadded (by omega) digit)
  · exact .inr same
  · exact .inl (isDigit_zeroPadded (by omega) digit)

theorem mem_formatTime {c : Char} (low : 0 ≤ millis) (member : c ∈ formatTime millis) :
    c.isDigit = true ∨ c = ':' ∨ c = '.' := by
  simp only [formatTime, List.mem_append, List.mem_cons] at member
  rcases member with digit | same | digit | same | digit | same | digit
  · exact .inl (isDigit_zeroPadded (by omega) digit)
  · exact .inr (.inl same)
  · exact .inl (isDigit_zeroPadded (by omega) digit)
  · exact .inr (.inl same)
  · exact .inl (isDigit_zeroPadded (by omega) digit)
  · exact .inr (.inr same)
  · exact .inl (isDigit_zeroPadded (by omega) digit)

theorem ascii_formatOffset {c : Char} (member : c ∈ formatOffset offset) : c.toNat < 128 := by
  have digits {n : Int} (low : 0 ≤ n) (member : c ∈ zeroPadded 2 n) := ascii_of_isDigit (isDigit_zeroPadded low member)
  unfold formatOffset at member
  dsimp only at member
  split_ifs at member <;> simp only [List.mem_cons, List.mem_append, List.not_mem_nil, or_false] at member
  · rw [member]
    decide
  all_goals
    unfold secondsPerHour secondsPerMinute at member
    rcases member with same | digit | same | digit
    · rw [same]
      decide
    · exact digits (by omega) digit
    · rw [same]
      decide
    · exact digits (by omega) digit

theorem splitOffset_formatOffset {time : List UInt8} (ascii : Ascii time) (long : 8 ≤ time.length)
    (minutes : offset % secondsPerMinute = 0) (west : -14 * secondsPerHour ≤ offset)
    (east : offset ≤ 14 * secondsPerHour) :
    (splitOffset (time ++ (formatOffset offset).map byteOf)).run = .ok (some (time, offset * millisPerSecond)) := by
  unfold secondsPerMinute secondsPerHour at *
  unfold formatOffset
  by_cases zero : offset = 0
  · rw [if_pos zero, List.map_singleton, splitOffset, if_pos (by simp), List.dropLast_concat, zero]
    rfl
  · rw [if_neg zero]
    dsimp only
    rw [List.map_cons, List.map_append, List.map_cons]
    unfold secondsPerMinute secondsPerHour millisPerSecond
    have letter : byteOf (if offset < 0 then '-' else '+') = byteOf '+'
        ∨ byteOf (if offset < 0 then '-' else '+') = byteOf '-' := by
      split_ifs <;> simp
    rw [splitOffset_spells ascii long letter (spells_zeroPadded (by omega) (by omega) (by omega) (by omega))
      (spells_zeroPadded (by omega) (by omega) (by omega) (by omega)) (by omega)]
    congr 3
    by_cases negative : offset < 0
    · rw [if_pos negative, if_neg (by decide)]
      omega
    · rw [if_neg negative, if_pos rfl]
      omega

end

theorem bounds_of_inRange (inside : inRange (timestamp / dayMs) = true) :
    -2 ^ 63 ≤ timestamp ∧ timestamp < 2 ^ 63 := by
  have start : Gregorian.yearStart 1 = 306 := by decide
  have stop : Gregorian.yearStart 10000 = 3652365 := by decide
  rw [inRange_iff, start, stop] at inside
  unfold epochShift dayMs at inside
  omega

theorem parseRfc3339_text {days millis offset : Int} (ranged : inRange days = true) (low : 0 ≤ millis)
    (high : millis < dayMs) (minutes : offset % secondsPerMinute = 0) (west : -14 * secondsPerHour ≤ offset)
    (east : offset ≤ 14 * secondsPerHour)
    (same : timestamp + offset * millisPerSecond = days * dayMs + millis)
    (inside : inRange (timestamp / dayMs) = true) :
    (parseRfc3339 (asBytes (String.ofList (formatDate days ++ 'T' :: (formatTime millis ++ formatOffset offset))))).run =
      .ok (some timestamp) := by
  have asciiDate : ∀ c ∈ formatDate days, c.toNat < 128 := by
    intro c member
    rcases mem_formatDate ranged member with digit | rfl
    · exact ascii_of_isDigit digit
    · decide
  have asciiTime : ∀ c ∈ formatTime millis, c.toNat < 128 := by
    intro c member
    rcases mem_formatTime low member with digit | rfl | rfl
    · exact ascii_of_isDigit digit
    · decide
    · decide
  have characters : ∀ c ∈ formatDate days ++ 'T' :: (formatTime millis ++ formatOffset offset), c.toNat < 128 := by
    simp only [List.forall_mem_append, List.forall_mem_cons]
    exact ⟨asciiDate, by decide, asciiTime, fun c member => ascii_formatOffset member⟩
  have bytes {characters : List Char} (ascii : ∀ c ∈ characters, c.toNat < 128) : Ascii (characters.map byteOf) := by
    intro byte member
    obtain ⟨c, inside, rfl⟩ := List.mem_map.1 member
    have bound := ascii c inside
    simp only [UInt8.lt_iff_toNat_lt, toNat_byteOf, UInt8.reduceToNat]
    omega
  have ascii := bytes characters
  rw [asBytes_ofList characters]
  simp only [List.map_append, List.map_cons] at ascii ⊢
  have separator : ((formatDate days).map byteOf ++ byteOf 'T' :: ((formatTime millis).map byteOf
      ++ (formatOffset offset).map byteOf)).findIdx? (fun byte => byte == byteOf 'T') =
        some ((formatDate days).map byteOf).length := by
    refine findIdx_append (fun byte member => ?_) (beq_self_eq_true _)
    obtain ⟨c, inside, rfl⟩ := List.mem_map.1 member
    rw [beq_eq_false_iff_ne]
    rcases mem_formatDate ranged inside with digit | rfl
    · exact (isDigit_facts (byteOf_digit digit).2).2.1
    · decide
  refine optionT_bind_eq_some.2 ⟨_, ofOption_eq_some.2 separator, ?_⟩
  refine optionT_bind_eq_some.2 ⟨(formatDate days).map byteOf, ?_, ?_⟩
  · rw [ascii.slice (Nat.zero_le _) (by simp), List.take_left, List.drop_zero]
  refine optionT_bind_eq_some.2 ⟨byteOf 'T' :: ((formatTime millis).map byteOf ++ (formatOffset offset).map byteOf), ?_, ?_⟩
  · rw [ascii.slice (by simp) (Nat.le_refl _), List.take_length, List.drop_left]
  refine optionT_bind_eq_some.2 ⟨(formatTime millis).map byteOf ++ (formatOffset offset).map byteOf, ?_, ?_⟩
  · have asciiRest := (List.forall_mem_append.1 ascii).2
    rw [ofOption_eq_some, if_pos (Ascii.isCharBoundary asciiRest (by simp)), List.drop_one, List.tail_cons]
  refine optionT_bind_eq_some.2 ⟨((formatTime millis).map byteOf, offset * millisPerSecond), ?_, ?_⟩
  · refine splitOffset_formatOffset (bytes asciiTime) ?_ minutes west east
    rw [List.length_map, length_formatTime low high]
    omega
  refine optionT_bind_eq_some.2 ⟨_, parseYmd_formatDate ranged, ?_⟩
  refine optionT_bind_eq_some.2 ⟨days, ofOption_eq_some.2 (daysFromCivil_civilFromDays ranged), ?_⟩
  refine optionT_bind_eq_some.2 ⟨millis, parseHms_formatTime low high, ?_⟩
  have utc : days * dayMs + millis - offset * millisPerSecond = timestamp := by omega
  rw [utc]
  refine optionT_bind_eq_some.2 ⟨(), guard_eq_some.2 (bounds_of_inRange inside), ?_⟩
  exact optionT_bind_eq_some.2 ⟨(), guard_eq_some.2 inside, rfl⟩

theorem formatAtZone_of_inRange (known : (lookupTimezone name).run = .ok (some info))
    (ranged : inRange ((timestamp + info.offset timestamp * millisPerSecond) / dayMs) = true) :
    (formatAtZone timestamp name).run = .ok (some (String.ofList
      (formatDate ((timestamp + info.offset timestamp * millisPerSecond) / dayMs)
        ++ 'T' :: (formatTime ((timestamp + info.offset timestamp * millisPerSecond) % dayMs)
          ++ formatOffset (info.offset timestamp))))) := by
  refine optionT_bind_eq_some.2 ⟨info.offset timestamp, optionT_bind_eq_some.2 ⟨info, known, rfl⟩, ?_⟩
  refine optionT_bind_eq_some.2 ⟨(), guard_eq_some.2 (bounds_of_inRange ranged), ?_⟩
  refine optionT_bind_eq_some.2 ⟨_, ofOption_eq_some.2 (if_pos ranged), ?_⟩
  rfl

theorem inRange_of_formatAtZone {text : String} (known : (lookupTimezone name).run = .ok (some info))
    (formatted : (formatAtZone timestamp name).run = .ok (some text)) :
    inRange ((timestamp + info.offset timestamp * millisPerSecond) / dayMs) = true := by
  obtain ⟨offset, found, formatted⟩ := optionT_bind_eq_some.1 formatted
  obtain ⟨info', known', same⟩ := optionT_bind_eq_some.1 found
  rw [known] at known'
  cases known'
  cases same
  obtain ⟨_, -, formatted⟩ := optionT_bind_eq_some.1 formatted
  obtain ⟨parts, ranged, -⟩ := optionT_bind_eq_some.1 formatted
  rw [ofOption_eq_some] at ranged
  unfold split at ranged
  dsimp only at ranged
  split_ifs at ranged with inside
  exact inside

/-- What the printer writes for a timestamp in a zone reads as the timestamp, and the printer writes something
where the local date is in range. -/
theorem parse_formatAtZone (known : (lookupTimezone name).run = .ok (some info)) (ranged : (split timestamp).isSome) :
    (∀ text, (formatAtZone timestamp name).run = .ok (some text) → (parseRfc3339 (asBytes text)).run = .ok (some timestamp))
      ∧ ((∃ text, (formatAtZone timestamp name).run = .ok (some text)) ↔
        inRange ((timestamp + info.offset timestamp * millisPerSecond) / dayMs) = true) := by
  refine ⟨fun text formatted => ?_, ?_, fun inside => ⟨_, formatAtZone_of_inRange known inside⟩⟩
  case refine_2 =>
    rintro ⟨text, formatted⟩
    exact inRange_of_formatAtZone known formatted
  have inside := inRange_of_formatAtZone known formatted
  rw [formatAtZone_of_inRange known inside] at formatted
  cases formatted
  have utc : inRange (timestamp / dayMs) = true := by
    unfold split at ranged
    dsimp only at ranged
    split_ifs at ranged with inside'
    · exact inside'
    · cases ranged
  obtain ⟨minutes, west, east⟩ := (lookupTimezone_sound known).offset timestamp
  have positive : 0 < dayMs := by decide
  exact parseRfc3339_text inside (Int.emod_nonneg _ (by omega)) (Int.emod_lt_of_pos _ positive) minutes west east
    (by unfold dayMs; omega) utc

theorem parse_formatAtZone_summer : ∃ text, (formatAtZone 1782907200000 "America/New_York").run = .ok (some text)
    ∧ (parseRfc3339 (asBytes text)).run = .ok (some 1782907200000) := by
  have both := @parse_formatAtZone ⟨-5 * secondsPerHour, .usCanada⟩ "America/New_York" 1782907200000 rfl (by decide)
  obtain ⟨text, formatted⟩ := both.2.2 (by decide)
  exact ⟨text, formatted, both.1 text formatted⟩

end BasicNext.Text
