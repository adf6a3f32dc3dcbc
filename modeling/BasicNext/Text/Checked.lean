import BasicNext.Lib.Checked
import BasicNext.Text.ZoneText

/-!
# The machine integers of the parsers

The parsers of temporal texts with every operation on the integers of the program, each in its own word. Where
the parser on unbounded integers gives a result, no operation on the way overflows, so the two agree.
-/

namespace BasicNext.Text

open Lib

inductive Fault where
  | cut (panic : Panic)
  | overflow
deriving DecidableEq, Repr

abbrev Checked := OptionT (Except Fault)

def Parse.checked {α : Type} (parse : Parse α) : Checked α := mapFault .cut parse

namespace Machine

def u8 (n : Int) : Checked Int := Word.u8.compute .overflow n

def u32 (n : Int) : Checked Int := Word.u32.compute .overflow n

def i32 (n : Int) : Checked Int := Word.i32.compute .overflow n

def i64 (n : Int) : Checked Int := Word.i64.compute .overflow n

def i128 (n : Int) : Checked Int := Word.i128.compute .overflow n

/-! ### The calendar -/

/-- `civil_from_days(days).year` -/
def civilYear (days : Int) : Checked Int := do
  let z ← i64 (days + 719468)
  let shifted ← if z ≥ 0 then pure z else i64 (z - 146096)
  let era := shifted / 146097
  let start ← i64 (era * 146097)
  let rest ← i64 (z - start)
  let doe := if Word.u32.InRange rest then rest else 0
  let yoe ← u32 (doe - doe / 1460)
  let yoe ← u32 (yoe + doe / 36524)
  let yoe ← u32 (yoe - doe / 146096)
  let yoe := yoe / 365
  let eras ← i64 (era * 400)
  let year ← i64 (yoe + eras)
  let days ← u32 (365 * yoe)
  let days ← u32 (days + yoe / 4)
  let days ← u32 (days - yoe / 100)
  let doy ← u32 (doe - days)
  let months ← u32 (5 * doy)
  let months ← u32 (months + 2)
  let monthPrime := months / 153
  let before ← u32 (153 * monthPrime)
  let before ← u32 (before + 2)
  let day ← u32 (doy - before / 5)
  let _ ← u32 (day + 1)
  let month ← if monthPrime < 10 then u32 (monthPrime + 3) else u32 (monthPrime - 9)
  let year ← i64 (year + if month ≤ 2 then 1 else 0)
  return if Word.i32.InRange year then year else 2147483647

def inRange (days : Int) : Checked Bool := do
  let year ← civilYear days
  return minYear ≤ year ∧ year ≤ maxYear

def daysFromCivil (year month day : Int) : Checked Int :=
  if year < minYear ∨ maxYear < year ∨ month < 1 ∨ 12 < month ∨ day = 0 then failure
  else do
    let last ← (Parse.ofOption (daysInMonth year month)).checked
    guard (day ≤ last)
    let y ← if month ≤ 2 then i32 (year - 1) else pure year
    let shifted ← if y ≥ 0 then pure y else i32 (y - 399)
    let era := shifted / 400
    let start ← i32 (era * 400)
    let yoe ← i32 (y - start)
    guard (Word.u32.InRange yoe)
    let monthIndex ← if month > 2 then u32 (month - 3) else u32 (month + 9)
    let doy ← u32 (153 * monthIndex)
    let doy ← u32 (doy + 2)
    let doy ← u32 (doy / 5 + day)
    let doy ← u32 (doy - 1)
    let doe ← u32 (yoe * 365)
    let doe ← u32 (doe + yoe / 4)
    let doe ← u32 (doe - yoe / 100)
    let doe ← u32 (doe + doy)
    guard (Word.i32.InRange doe)
    let days ← i32 (era * 146097)
    let days ← i32 (days + doe)
    i32 (days - 719468)

/-! ### Times and timestamps -/

/-- The three digits that count, by `checked_mul` and `checked_add`. -/
def countedMillis (counted : List UInt8) : Checked Int :=
  counted.foldlM (fun value byte => do
    guard (Word.u32.InRange (value * 10))
    let digit ← u8 (byte.toNat - (byteOf '0').toNat)
    guard (Word.u32.InRange (value * 10 + digit))
    return value * 10 + digit) 0

def parseMillis (text : List UInt8) (requireMillis : Bool) : Checked Int :=
  if text.length = 8 ∧ requireMillis = false then pure 0
  else if text[8]? = some (byteOf '.') then
    let fraction := text.drop 9
    if fraction = [] ∨ fraction.any (fun byte => !isDigit byte) ∨ (requireMillis = true ∧ fraction.length ≠ 3)
      ∨ (fraction.drop 3).any (fun byte => byte != byteOf '0') then failure
    else countedMillis (fraction.take 3 ++ List.replicate (3 - fraction.length) (byteOf '0'))
  else failure

def parseHms (text : List UInt8) (requireMillis : Bool) : Checked Int := do
  guard (8 ≤ text.length ∧ text[2]? = some (byteOf ':') ∧ text[5]? = some (byteOf ':'))
  let hour ← (digitsAt text 0 2).checked
  let minute ← (digitsAt text 3 5).checked
  let second ← (digitsAt text 6 8).checked
  guard (hour ≤ 23 ∧ minute ≤ 59 ∧ second ≤ 59)
  let millis ← parseMillis text requireMillis
  let hours ← u32 (hour * 3600000)
  let minutes ← u32 (minute * 60000)
  let total ← u32 (hours + minutes)
  let seconds ← u32 (second * 1000)
  let total ← u32 (total + seconds)
  u32 (total + millis)

def splitOffset (text : List UInt8) : Checked (List UInt8 × Int) :=
  if text.getLast? = some (byteOf 'Z') then pure (text.dropLast, 0)
  else do
    let signIndex ← (Parse.ofOption (rfindSign text)).checked
    guard (8 ≤ signIndex)
    let time ← (slice text 0 signIndex).checked
    let offset ← (slice text signIndex text.length).checked
    let sign : Int := if offset.head? = some (byteOf '+') then 1 else -1
    let offset ← (slice offset 1 offset.length).checked
    guard (offset.length = 5 ∧ offset[2]? = some (byteOf ':'))
    let hours ← (digitsAt offset 0 2).checked
    let minutes ← (digitsAt offset 3 5).checked
    guard (hours ≤ 23 ∧ minutes ≤ 59)
    let hours ← i32 (hours * 3600000)
    let minutes ← i32 (minutes * 60000)
    let millis ← i32 (hours + minutes)
    let offset ← i32 (sign * millis)
    return (time, offset)

def parseRfc3339 (text : List UInt8) : Checked Int := do
  let separator ← (Parse.ofOption (text.findIdx? fun byte => byte == byteOf 'T')).checked
  let date ← (slice text 0 separator).checked
  let rest ← (slice text separator text.length).checked
  let rest ← (Parse.ofOption (if isCharBoundary rest 1 then some (rest.drop 1) else none)).checked
  let (time, offset) ← splitOffset rest
  let (year, month, day) ← (parseYmd date).checked
  let days ← daysFromCivil year month day
  let millis ← parseHms time false
  let utc ← i128 (days * dayMs)
  let utc ← i128 (utc + millis)
  let utc ← i128 (utc - offset)
  guard (Word.i64.InRange utc)
  guard (Word.i32.InRange (utc / dayMs))
  let ranged ← inRange (utc / dayMs)
  guard ranged
  return utc

/-! ### Zones -/

def etcZone (suffix : List UInt8) : Checked TimeZoneInfo :=
  if suffix = [] then pure ⟨0, .none⟩
  else do
    let sign ← (slice suffix 0 1).checked
    let digits ← (slice suffix 1 suffix.length).checked
    let hours ← (Parse.ofOption (parseI32 digits)).checked
    guard (1 ≤ hours ∧ hours ≤ 14)
    if sign = [byteOf '+'] then
      let west ← i32 (-hours)
      let offset ← i32 (west * secondsPerHour)
      return ⟨offset, .none⟩
    else if sign = [byteOf '-'] then
      let offset ← i32 (hours * secondsPerHour)
      return ⟨offset, .none⟩
    else failure

def lookupTimezone (name : String) : Checked TimeZoneInfo :=
  match timezones.find? fun zone => zone.1 == name with
  | some (_, info) => pure info
  | none =>
    let etc := asBytes "Etc/GMT"
    if etc.isPrefixOf (asBytes name) then etcZone ((asBytes name).drop etc.length) else failure

end Machine

/-! ### No overflow -/

theorem parseDigits_nonneg {text : List UInt8} {value : Int} (read : parseDigits text = some value) : 0 ≤ value := by
  unfold parseDigits at read
  dsimp only at read
  split_ifs at read
  cases read
  exact Int.natCast_nonneg _

theorem digitsAt_nonneg {text : List UInt8} {start stop : Nat} {value : Int}
    (read : (digitsAt text start stop).run = .ok (some value)) : 0 ≤ value :=
  parseDigits_nonneg (digitsAt_eq_some read)

namespace Machine

variable {text : List UInt8} {requireMillis : Bool}

theorem isDigit_toNat {byte : UInt8} (digit : isDigit byte = true) : 48 ≤ byte.toNat ∧ byte.toNat ≤ 57 := by
  simp only [isDigit, Bool.and_eq_true, decide_eq_true_eq, UInt8.le_iff_toNat_le, toNat_byteOf, Char.reduceToNat] at digit
  omega

theorem foldl_digits {counted : List UInt8} (digits : ∀ byte ∈ counted, isDigit byte = true) (value width : Nat)
    (below : value < 10 ^ width) :
    counted.foldl (fun value digit => value * 10 + (digit.toNat - 48)) value < 10 ^ (width + counted.length) := by
  induction counted generalizing value width with
  | nil => exact below
  | cons byte counted ih =>
    rw [List.forall_mem_cons] at digits
    have range := isDigit_toNat digits.1
    have next : value * 10 + (byte.toNat - 48) < 10 ^ (width + 1) := by
      rw [Nat.pow_succ]
      omega
    have bound := ih digits.2 _ (width + 1) next
    rw [List.foldl_cons, List.length_cons, show width + (counted.length + 1) = width + 1 + counted.length by omega]
    exact bound

theorem countedMillis_loop {counted : List UInt8} (digits : ∀ byte ∈ counted, isDigit byte = true) (value width : Nat)
    (below : value < 10 ^ width) (short : width + counted.length ≤ 9) :
    counted.foldlM (fun (value : Int) byte => (do
      guard (Word.u32.InRange (value * 10))
      let digit ← u8 (byte.toNat - (byteOf '0').toNat)
      guard (Word.u32.InRange (value * 10 + digit))
      return value * 10 + digit : Checked Int)) (value : Int) =
        pure ((counted.foldl (fun value digit => value * 10 + (digit.toNat - 48)) value : Nat) : Int) := by
  induction counted generalizing value width with
  | nil => rfl
  | cons byte counted ih =>
    rw [List.forall_mem_cons] at digits
    rw [List.length_cons] at short
    have range := isDigit_toNat digits.1
    have power : 10 ^ (width + 1) ≤ 10 ^ 9 := Nat.pow_le_pow_right (by omega) (by omega)
    have next : value * 10 + (byte.toNat - 48) < 10 ^ (width + 1) := by
      rw [Nat.pow_succ]
      omega
    have zero : (byteOf '0').toNat = 48 := rfl
    have cast : (value : Int) * 10 + ((byte.toNat : Int) - (48 : Nat)) =
        ((value * 10 + (byte.toNat - 48) : Nat) : Int) := by omega
    have fits : Word.u32.InRange (value * 10) := Word.inRange_u32.2 (by omega)
    have fits' : Word.u32.InRange ((value * 10 + (byte.toNat - 48) : Nat) : Int) := Word.inRange_u32.2 (by omega)
    rw [List.foldlM_cons, zero, guard_of fits, pure_bind]
    simp (disch := omega) only [u8, Word.compute_u8, pure_bind]
    rw [cast, guard_of fits', pure_bind, pure_bind]
    exact ih digits.2 _ (width + 1) next (by omega)

theorem counted_digits {fraction : List UInt8} (decimal : ¬ fraction.any (fun byte => !isDigit byte) = true) :
    (fraction.take 3 ++ List.replicate (3 - fraction.length) (byteOf '0')).length = 3
      ∧ ∀ byte ∈ fraction.take 3 ++ List.replicate (3 - fraction.length) (byteOf '0'), isDigit byte = true := by
  constructor
  · rw [List.length_append, List.length_take, List.length_replicate]
    omega
  · intro byte member
    rcases List.mem_append.1 member with inside | zero
    · by_contra other
      apply decimal
      rw [List.any_eq_true]
      exact ⟨byte, List.mem_of_mem_take inside, by simpa using other⟩
    · rw [(List.mem_replicate.1 zero).2]
      decide

theorem parseMillis_eq : parseMillis text requireMillis = (Parse.ofOption (Text.parseMillis text requireMillis)).checked := by
  unfold parseMillis Text.parseMillis
  dsimp only
  split_ifs with short point wrong
  · rfl
  · rfl
  · simp only [not_or] at wrong
    obtain ⟨length, digits⟩ := counted_digits wrong.2.1
    exact countedMillis_loop digits 0 0 (by omega) (by omega)
  · rfl

theorem parseMillis_lt {millis : Int} (read : Text.parseMillis text requireMillis = some millis) :
    0 ≤ millis ∧ millis < 1000 := by
  unfold Text.parseMillis at read
  dsimp only at read
  split_ifs at read with short point wrong
  · cases read
    omega
  · simp only [not_or] at wrong
    obtain ⟨length, digits⟩ := counted_digits wrong.2.1
    have below := foldl_digits digits 0 0 (by omega)
    rw [length] at below
    cases read
    omega

theorem parseHms_eq : parseHms text requireMillis = (Text.parseHms text requireMillis).checked := by
  symm
  refine mapFault_guard_bind fun _ => ?_
  refine mapFault_bind fun hour readHour => ?_
  refine mapFault_bind fun minute readMinute => ?_
  refine mapFault_bind fun second readSecond => ?_
  refine mapFault_guard_bind fun range => ?_
  rw [parseMillis_eq]
  refine mapFault_bind fun millis readMillis => ?_
  have hour₀ := digitsAt_nonneg readHour
  have minute₀ := digitsAt_nonneg readMinute
  have second₀ := digitsAt_nonneg readSecond
  obtain ⟨millis₀, millis₁⟩ := parseMillis_lt (ofOption_eq_some.1 readMillis)
  simp (disch := omega) only [u32, Word.compute_u32, pure_bind]
  rfl

theorem splitOffset_eq : splitOffset text = (Text.splitOffset text).checked := by
  symm
  unfold splitOffset Text.splitOffset
  split_ifs with zulu
  · rfl
  refine mapFault_bind fun signIndex _ => ?_
  refine mapFault_guard_bind fun _ => ?_
  refine mapFault_bind fun time _ => ?_
  refine mapFault_bind fun offset _ => ?_
  refine mapFault_bind fun zone _ => ?_
  refine mapFault_guard_bind fun _ => ?_
  refine mapFault_bind fun hours readHours => ?_
  refine mapFault_bind fun minutes readMinutes => ?_
  refine mapFault_guard_bind fun range => ?_
  have hours₀ := digitsAt_nonneg readHours
  have minutes₀ := digitsAt_nonneg readMinutes
  obtain ⟨sign, same⟩ : ∃ sign : Int, (if offset.head? = some (byteOf '+') then (1 : Int) else -1) = sign := ⟨_, rfl⟩
  have unit : sign = 1 ∨ sign = -1 := by
    rw [← same]
    split_ifs <;> simp
  rw [same]
  rcases unit with rfl | rfl
  · simp (disch := omega) only [i32, Word.compute_i32, pure_bind]
    rfl
  · simp (disch := omega) only [i32, Word.compute_i32, pure_bind]
    rfl

theorem daysFromMarch {y monthIndex day : Int} (first : 0 ≤ y) (last : y ≤ 9999) (firstMonth : 0 ≤ monthIndex)
    (lastMonth : monthIndex ≤ 11) (firstDay : 1 ≤ day) (lastDay : day ≤ 31) :
    (do
      let start ← i32 (y / 400 * 400)
      let yoe ← i32 (y - start)
      guard (Word.u32.InRange yoe)
      let doy ← u32 (153 * monthIndex)
      let doy ← u32 (doy + 2)
      let doy ← u32 (doy / 5 + day)
      let doy ← u32 (doy - 1)
      let doe ← u32 (yoe * 365)
      let doe ← u32 (doe + yoe / 4)
      let doe ← u32 (doe - yoe / 100)
      let doe ← u32 (doe + doy)
      guard (Word.i32.InRange doe)
      let days ← i32 (y / 400 * 146097)
      let days ← i32 (days + doe)
      i32 (days - 719468) : Checked Int) =
        pure (y / 400 * 146097 + ((y - y / 400 * 400) * 365 + (y - y / 400 * 400) / 4 - (y - y / 400 * 400) / 100
          + ((153 * monthIndex + 2) / 5 + day - 1)) - 719468) := by
  obtain ⟨era, sameEra⟩ : ∃ era, y / 400 = era := ⟨_, rfl⟩
  rw [sameEra]
  have eras : 0 ≤ era ∧ era ≤ 24 := by omega
  obtain ⟨yoe, sameYoe⟩ : ∃ yoe, y - era * 400 = yoe := ⟨_, rfl⟩
  have years : 0 ≤ yoe ∧ yoe ≤ 399 := by omega
  obtain ⟨doy, sameDoy⟩ : ∃ doy, (153 * monthIndex + 2) / 5 + day - 1 = doy := ⟨_, rfl⟩
  have days : 0 ≤ doy ∧ doy ≤ 400 := by omega
  have fits : Word.u32.InRange yoe := Word.inRange_u32.2 (by omega)
  have fits' : Word.i32.InRange (yoe * 365 + yoe / 4 - yoe / 100 + doy) := Word.inRange_i32.2 (by omega)
  simp (disch := omega) only [i32, Word.compute_i32, pure_bind, sameYoe]
  rw [guard_of fits, pure_bind]
  simp (disch := omega) only [u32, Word.compute_u32, pure_bind, sameDoy]
  rw [guard_of fits', pure_bind]
  simp (disch := omega) only [Word.compute_i32, pure_bind]

theorem daysFromCivil_eq {year month day : Int} (day₀ : 0 ≤ day) :
    daysFromCivil year month day = (Parse.ofOption (Text.daysFromCivil year month day)).checked := by
  unfold daysFromCivil Text.daysFromCivil
  by_cases wrong : year < minYear ∨ maxYear < year ∨ month < 1 ∨ 12 < month ∨ day = 0
  · rw [if_pos wrong, if_pos wrong]
    rfl
  rw [if_neg wrong, if_neg wrong]
  unfold minYear maxYear at wrong
  rw [daysInMonth_eq (by omega) (by omega)]
  have known (length : Int) : (Parse.ofOption (some length)).checked = pure length := rfl
  rw [known, pure_bind]
  dsimp only
  have length := Gregorian.monthLength_le year month
  by_cases long : Gregorian.monthLength year month < day
  · rw [if_pos long, guard, if_neg (by omega)]
    rfl
  rw [if_neg long, guard_of (by omega), pure_bind]
  by_cases early : month ≤ 2
  · have before : i32 (year - 1) = pure (year - 1) := Word.compute_i32 (by omega) (by omega)
    have later : u32 (month + 9) = pure (month + 9) := Word.compute_u32 (by omega) (by omega)
    have notLate : ¬ month > 2 := by omega
    have positive : year - 1 ≥ 0 := by omega
    simp only [if_pos early, if_neg notLate, if_pos positive, before, later, pure_bind]
    exact @daysFromMarch (year - 1) (month + 9) day (by omega) (by omega) (by omega) (by omega) (by omega) (by omega)
  · have earlier : u32 (month - 3) = pure (month - 3) := Word.compute_u32 (by omega) (by omega)
    have late : month > 2 := by omega
    have positive : year ≥ 0 := by omega
    simp only [if_neg early, if_pos late, if_pos positive, earlier, pure_bind]
    exact @daysFromMarch year (month - 3) day (by omega) (by omega) (by omega) (by omega) (by omega) (by omega)

theorem civilYear_eq {days : Int} (low : -719468 ≤ days) (high : days ≤ 2932999) :
    civilYear days = pure (civilFromDays days).year := by
  obtain ⟨z, sameZ⟩ : ∃ z, days + 719468 = z := ⟨_, rfl⟩
  obtain ⟨era, sameEra⟩ : ∃ era, z / 146097 = era := ⟨_, rfl⟩
  obtain ⟨doe, sameDoe⟩ : ∃ doe, z - era * 146097 = doe := ⟨_, rfl⟩
  have positive : z ≥ 0 := by omega
  have eras : 0 ≤ era ∧ era ≤ 25 := by omega
  have inEra : 0 ≤ doe ∧ doe < 146097 := by omega
  obtain ⟨year, day, year₀, year₁, inYear, split⟩ := Gregorian.exists_yearOfEra inEra.1 inEra.2
  have found : (doe - doe / 1460 + doe / 36524 - doe / 146096) / 365 = year :=
    Gregorian.yearOfEra_eq year₀ year₁ inYear split
  have rest : doe - (365 * year + year / 4 - year / 100) = day := by omega
  have days₀ : 0 ≤ day ∧ day ≤ 365 := by
    unfold Gregorian.InYear at inYear
    omega
  obtain ⟨month, sameMonth⟩ : ∃ month, (5 * day + 2) / 153 = month := ⟨_, rfl⟩
  have months : 0 ≤ month ∧ month ≤ 11 := by omega
  have fits : Word.u32.InRange doe := Word.inRange_u32.2 (by omega)
  have same : (civilFromDays days).year =
      year + era * 400 + if (if month < 10 then month + 3 else month - 9) ≤ 2 then 1 else 0 := by
    simp only [civilFromDays, sameZ, if_pos positive, sameEra, sameDoe, found, rest, sameMonth]
  have first : i64 z = pure z := Word.compute_i64 (by omega) (by omega)
  have start : i64 (era * 146097) = pure (era * 146097) := Word.compute_i64 (by omega) (by omega)
  have inside : i64 doe = pure doe := Word.compute_i64 (by omega) (by omega)
  have eraYears : i64 (era * 400) = pure (era * 400) := Word.compute_i64 (by omega) (by omega)
  have years : i64 (year + era * 400) = pure (year + era * 400) := Word.compute_i64 (by omega) (by omega)
  rw [same]
  unfold civilYear
  rw [sameZ, first, pure_bind, if_pos positive, pure_bind]
  simp only [sameEra, start, sameDoe, inside, eraYears, if_pos fits, pure_bind]
  clear same sameZ sameEra sameDoe positive inYear first start inside eraYears
  simp (disch := omega) only [u32, Word.compute_u32, pure_bind, found]
  simp only [years, rest, sameMonth, pure_bind]
  have last (carry : Int) (small : carry = 0 ∨ carry = 1) :
      (do
        let year ← i64 (year + era * 400 + carry)
        pure (if Word.i32.InRange year then year else 2147483647) : Checked Int) = pure (year + era * 400 + carry) := by
    have total : i64 (year + era * 400 + carry) = pure (year + era * 400 + carry) := Word.compute_i64 (by omega) (by omega)
    rw [total, pure_bind, if_pos (Word.inRange_i32.2 (by omega))]
  by_cases early : month < 10
  · rw [if_pos early, if_pos early, last _ (by split_ifs <;> simp)]
  · rw [if_neg early, if_neg early, last _ (by split_ifs <;> simp)]

theorem inRange_eq {days : Int} (low : -719468 ≤ days) (high : days ≤ 2932999) :
    inRange days = pure (Text.inRange days) := by
  rw [inRange, civilYear_eq low high, pure_bind]
  rfl

theorem daysFromCivil_bounds {year month day days : Int} (day₀ : 0 ≤ day)
    (found : Text.daysFromCivil year month day = some days) : -719162 ≤ days ∧ days ≤ 2932896 := by
  have supported := supported_of_daysFromCivil day₀ found
  have number := supported.daysFromCivil
  have ranged := supported.civilFromDays.1
  rw [found] at number
  rw [← Option.some.inj number] at ranged
  have start : Gregorian.yearStart 1 = 306 := by decide
  have stop : Gregorian.yearStart 10000 = 3652365 := by decide
  rw [inRange_iff, start, stop] at ranged
  unfold epochShift at ranged
  omega

theorem parseYmd_nonneg {year month day : Int} (read : (parseYmd text).run = .ok (some (year, month, day))) : 0 ≤ day := by
  obtain ⟨_, -, read⟩ := optionT_bind_eq_some.1 read
  obtain ⟨year', -, read⟩ := optionT_bind_eq_some.1 read
  obtain ⟨month', -, read⟩ := optionT_bind_eq_some.1 read
  obtain ⟨day', readDay, read⟩ := optionT_bind_eq_some.1 read
  cases read
  exact digitsAt_nonneg readDay

theorem parseHms_bounds {millis : Int} (read : (Text.parseHms text requireMillis).run = .ok (some millis)) :
    0 ≤ millis ∧ millis < 86400000 := by
  obtain ⟨_, -, read⟩ := optionT_bind_eq_some.1 read
  obtain ⟨hour, readHour, read⟩ := optionT_bind_eq_some.1 read
  obtain ⟨minute, readMinute, read⟩ := optionT_bind_eq_some.1 read
  obtain ⟨second, readSecond, read⟩ := optionT_bind_eq_some.1 read
  obtain ⟨_, range, read⟩ := optionT_bind_eq_some.1 read
  obtain ⟨fraction, readFraction, read⟩ := optionT_bind_eq_some.1 read
  cases read
  have hour₀ := digitsAt_nonneg readHour
  have minute₀ := digitsAt_nonneg readMinute
  have second₀ := digitsAt_nonneg readSecond
  have range := guard_eq_some.1 range
  have fraction₀ := parseMillis_lt (ofOption_eq_some.1 readFraction)
  omega

theorem splitOffset_bounds {time : List UInt8} {offset : Int}
    (found : (Text.splitOffset text).run = .ok (some (time, offset))) : -86400000 < offset ∧ offset < 86400000 := by
  unfold Text.splitOffset at found
  split_ifs at found with zulu
  · cases found
    omega
  obtain ⟨signIndex, -, found⟩ := optionT_bind_eq_some.1 found
  obtain ⟨_, -, found⟩ := optionT_bind_eq_some.1 found
  obtain ⟨time', -, found⟩ := optionT_bind_eq_some.1 found
  obtain ⟨behind, -, found⟩ := optionT_bind_eq_some.1 found
  obtain ⟨zone, -, found⟩ := optionT_bind_eq_some.1 found
  obtain ⟨_, -, found⟩ := optionT_bind_eq_some.1 found
  obtain ⟨hours, readHours, found⟩ := optionT_bind_eq_some.1 found
  obtain ⟨minutes, readMinutes, found⟩ := optionT_bind_eq_some.1 found
  obtain ⟨_, range, found⟩ := optionT_bind_eq_some.1 found
  cases found
  have hours₀ := digitsAt_nonneg readHours
  have minutes₀ := digitsAt_nonneg readMinutes
  have range := guard_eq_some.1 range
  split_ifs <;> omega

theorem parseRfc3339_eq : parseRfc3339 text = (Text.parseRfc3339 text).checked := by
  symm
  refine mapFault_bind fun separator _ => ?_
  refine mapFault_bind fun date _ => ?_
  refine mapFault_bind fun rest _ => ?_
  refine mapFault_bind fun rest' _ => ?_
  rw [splitOffset_eq]
  refine mapFault_bind fun parts zone => ?_
  obtain ⟨time, offset⟩ := parts
  refine mapFault_bind fun fields ymd => ?_
  obtain ⟨year, month, day⟩ := fields
  dsimp only
  have day₀ := parseYmd_nonneg ymd
  rw [daysFromCivil_eq day₀]
  refine mapFault_bind fun days number => ?_
  rw [parseHms_eq]
  refine mapFault_bind fun millis hms => ?_
  have bounds := daysFromCivil_bounds day₀ (ofOption_eq_some.1 number)
  have bounds' := parseHms_bounds hms
  have bounds'' := splitOffset_bounds zone
  unfold dayMs
  simp (disch := omega) only [i128, Word.compute_i128, pure_bind]
  obtain ⟨utc, same⟩ : ∃ utc, days * 86400000 + millis - offset = utc := ⟨_, rfl⟩
  have bits : -2 ^ 63 ≤ utc ∧ utc < 2 ^ 63 := by omega
  have fits : Word.i64.InRange utc := Word.inRange_i64.2 (by omega)
  have fits' : Word.i32.InRange (utc / 86400000) := Word.inRange_i32.2 (by omega)
  rw [same, inRange_eq (by omega) (by omega), guard_of bits, pure_bind, guard_of fits, pure_bind, guard_of fits', pure_bind,
    pure_bind]
  exact mapFault_guard_bind fun _ => rfl

theorem etcZone_eq {suffix : List UInt8} : etcZone suffix = (Text.etcZone suffix).checked := by
  symm
  unfold etcZone Text.etcZone
  split_ifs with empty
  · rfl
  refine mapFault_bind fun sign _ => ?_
  refine mapFault_bind fun digits _ => ?_
  refine mapFault_bind fun hours _ => ?_
  refine mapFault_guard_bind fun range => ?_
  unfold secondsPerHour
  split_ifs
  · simp (disch := omega) only [i32, Word.compute_i32, pure_bind]
    rfl
  · simp (disch := omega) only [i32, Word.compute_i32, pure_bind]
    rfl
  · rfl

theorem lookupTimezone_eq {name : String} : lookupTimezone name = (Text.lookupTimezone name).checked := by
  unfold lookupTimezone Text.lookupTimezone
  cases timezones.find? fun zone => zone.1 == name with
  | some zone => rfl
  | none =>
    dsimp only
    split_ifs
    · exact etcZone_eq
    · rfl

end Machine

end BasicNext.Text
