import BasicNext.Lib.Checked
import BasicNext.Lib.Digits
import BasicNext.Lib.Gregorian
import BasicNext.Log.Record

/-!
# HTTP dates

The formatter and the parser of the dates in HTTP headers (`bn_web::web::static_files`). The parser computes with
machine integers, and stops where an operation overflows.
-/

namespace BasicNext.Web.HttpDate

open Lib
open Log (isWhitespace)

def weekdays : List String := ["Sun", "Mon", "Tue", "Wed", "Thu", "Fri", "Sat"]

def months : List String := ["Jan", "Feb", "Mar", "Apr", "May", "Jun", "Jul", "Aug", "Sep", "Oct", "Nov", "Dec"]

/-- The numbers of a date and a time. -/
structure Fields where
  day : Int
  month : Int
  year : Int
  hour : Int
  minute : Int
  second : Int
deriving DecidableEq, Repr

/-! ### Formatting -/

/-- The calendar arithmetic of `format_http_date`. -/
def fieldsOf (secsSinceEpoch : Int) : Fields :=
  let daySecs := secsSinceEpoch % 86400
  let days := secsSinceEpoch / 86400 + 719468
  let era := (if days ≥ 0 then days else days - 146096) / 146097
  let doe := days - era * 146097
  let yoe := (doe - doe / 1460 + doe / 36524 - doe / 146096) / 365
  let y := yoe + era * 400
  let doy := doe - (365 * yoe + yoe / 4 - yoe / 100)
  let mp := (5 * doy + 2) / 153
  let d := doy - (153 * mp + 2) / 5 + 1
  let m := if mp < 10 then mp + 3 else mp - 9
  { day := d, month := m, year := if m ≤ 2 then y + 1 else y, hour := daySecs / 3600, minute := daySecs % 3600 / 60,
    second := daySecs % 60 }

def weekday (secsSinceEpoch : Int) : Int := ((secsSinceEpoch / 86400 + 4) % 7 + 7) % 7

def nameAt (names : List String) (index : Int) : List Char := (names.getD index.toNat "").toList

def formatHttpDate (secsSinceEpoch : Int) : List Char :=
  let fields := fieldsOf secsSinceEpoch
  nameAt weekdays (weekday secsSinceEpoch) ++ ',' :: ' ' :: (zeroPadded 2 fields.day
    ++ ' ' :: (nameAt months (fields.month - 1) ++ ' ' :: (zeroPadded 4 fields.year
      ++ ' ' :: (zeroPadded 2 fields.hour ++ ':' :: (zeroPadded 2 fields.minute ++ ':' :: (zeroPadded 2 fields.second
        ++ ' ' :: "GMT".toList))))))

/-! ### Parsing -/

def trim (text : List Char) : List Char := ((text.dropWhile isWhitespace).reverse.dropWhile isWhitespace).reverse

def splitWhitespace (text : List Char) : List (List Char) := (text.splitOnP isWhitespace).filter fun part => part ≠ []

def decimal (word : Word) (negative : Bool) (digits : List Char) : Option Int :=
  if digits ≠ [] ∧ digits.all Char.isDigit then
    let magnitude : Int := Nat.ofDigitChars 10 digits 0
    let value := if negative then -magnitude else magnitude
    if word.InRange value then some value else none
  else none

/-- `str::parse` for a word: a plus sign may be in front, and a minus sign if the word has one. -/
def parseNumber (word : Word) (text : List Char) : Option Int :=
  if text.head? = some '+' then decimal word false text.tail
  else if text.head? = some '-' ∧ word.signed then decimal word true text.tail
  else decimal word false text

def readHttpDate (s : List Char) : Option Fields := do
  let parts := splitWhitespace (trim s)
  guard (parts.length = 6 ∧ parts[5]? = some "GMT".toList)
  let day ← parts[1]? >>= parseNumber Word.u32
  let monthIdx ← parts[2]? >>= fun part => months.findIdx? fun month => month.toList == part
  let year ← parts[3]? >>= parseNumber Word.i64
  let time ← parts[4]?
  let timeParts := time.splitOn ':'
  guard (timeParts.length = 3)
  let hour ← timeParts[0]? >>= parseNumber Word.u32
  let minute ← timeParts[1]? >>= parseNumber Word.u32
  let second ← timeParts[2]? >>= parseNumber Word.u32
  return { day, month := monthIdx + 1, year, hour, minute, second }

inductive Overflow where
  | overflow
deriving DecidableEq, Repr

def u32 (n : Int) : OptionT (Except Overflow) Int := Word.u32.compute .overflow n

def u64 (n : Int) : OptionT (Except Overflow) Int := Word.u64.compute .overflow n

def i64 (n : Int) : OptionT (Except Overflow) Int := Word.i64.compute .overflow n

def eraOf (y : Int) : OptionT (Except Overflow) Int := do
  let shifted ← if y ≥ 0 then pure y else i64 (y - 399)
  return shifted.tdiv 400

/-- The days since 1970-01-01. -/
def Fields.dayCount (fields : Fields) : OptionT (Except Overflow) Int := do
  let y ← if fields.month ≤ 2 then i64 (fields.year - 1) else pure fields.year
  let era ← eraOf y
  let eraYears ← i64 (era * 400)
  let rest ← i64 (y - eraYears)
  let yoe := rest % 4294967296
  let monthIndex ← if fields.month > 2 then u32 (fields.month - 3) else u32 (fields.month + 9)
  let doy ← u32 (153 * monthIndex)
  let doy ← u32 (doy + 2)
  let doy ← u32 (doy / 5 + fields.day)
  let doy ← u32 (doy - 1)
  let doe ← u32 (yoe * 365)
  let doe ← u32 (doe + yoe / 4)
  let doe ← u32 (doe - yoe / 100)
  let doe ← u32 (doe + doy)
  let days ← i64 (era * 146097)
  let days ← i64 (days + doe)
  i64 (days - 719468)

/-- The arithmetic of `parse_http_date`. -/
def Fields.seconds (fields : Fields) : OptionT (Except Overflow) Int := do
  let days ← fields.dayCount
  if days < 0 then failure
  else do
    let total ← u64 (days * 86400)
    let hours ← u64 (fields.hour * 3600)
    let total ← u64 (total + hours)
    let minutes ← u64 (fields.minute * 60)
    let total ← u64 (total + minutes)
    u64 (total + fields.second)

def parseHttpDate (s : List Char) : OptionT (Except Overflow) Int := do
  let fields ← OptionT.mk (.ok (readHttpDate s))
  fields.seconds

end BasicNext.Web.HttpDate

/-!
## Which HTTP dates the parser reads right

The arithmetic of the parser is that of the Gregorian calendar where no operation overflows. It does not check the
ranges of its fields, so it also takes days, hours and minutes that do not exist.
-/

namespace BasicNext.Web.HttpDate

open Lib
open Lib.Gregorian
open Log (isWhitespace)

variable {fields : Fields} {secs : Int}

/-! ### The arithmetic -/

def Fields.date (fields : Fields) : Date := ⟨fields.year, fields.month, fields.day⟩

/-- The first day of the 400 years of a date, from the first of March of year 0. -/
def Fields.eraStart (fields : Fields) : Int := marchYear fields.year fields.month / 400 * 146097

/-- The days since 1970-01-01. -/
def Fields.days (fields : Fields) : Int := dayNumber fields.date - 719468

/-- The seconds since 1970-01-01. -/
def Fields.total (fields : Fields) : Int := fields.days * 86400 + fields.hour * 3600 + fields.minute * 60 + fields.second

/-- The fields as the parser reads them. -/
structure Fields.Typed (fields : Fields) : Prop where
  month : 1 ≤ fields.month ∧ fields.month ≤ 12
  year : Word.i64.InRange fields.year
  day : Word.u32.InRange fields.day
  hour : Word.u32.InRange fields.hour
  minute : Word.u32.InRange fields.minute
  second : Word.u32.InRange fields.second

/-- Where no operation overflows. -/
structure Fields.Fits (fields : Fields) : Prop where
  march : fields.month = 3 → 1 ≤ fields.day
  day : daysBefore (marchMonth fields.month) + fields.day ≤ 4294967295
  eraDay : dayNumber fields.date - fields.eraStart ≤ 4294967295
  era : -9223372036854775808 ≤ fields.eraStart
  early : -9223372036854775808 ≤ fields.days
  late : 0 ≤ fields.days → fields.total ≤ 18446744073709551615

theorem tdiv_shifted (y : Int) : (if y ≥ 0 then y else y - 399).tdiv 400 = y / 400 := by
  split_ifs with positive
  · exact Int.tdiv_eq_ediv_of_nonneg positive
  · have negative : y - 399 = -(399 - y) := by omega
    rw [negative, Int.neg_tdiv, Int.tdiv_eq_ediv_of_nonneg (by omega)]
    omega

theorem dayNumber_eq {y era yoe : Int} (same : marchYear fields.year fields.month = y) (ofEra : y = yoe + 400 * era)
    (first : 0 ≤ yoe) (last : yoe < 400) :
    dayNumber fields.date = era * 146097 + (yoe * 365 + yoe / 4 - yoe / 100
      + (daysBefore (marchMonth fields.month) + fields.day - 1)) ∧ fields.eraStart = era * 146097 := by
  unfold Fields.eraStart dayNumber
  simp only [Fields.date, same, ofEra]
  unfold marchStart
  constructor
  · omega
  · omega

theorem daysBefore_bounds (month : 1 ≤ fields.month ∧ fields.month ≤ 12) :
    (fields.month = 3 ∧ daysBefore (marchMonth fields.month) = 0 ∨ 31 ≤ daysBefore (marchMonth fields.month))
      ∧ daysBefore (marchMonth fields.month) ≤ 337 ∧ 0 ≤ marchMonth fields.month ∧ marchMonth fields.month ≤ 11 := by
  unfold daysBefore marchMonth
  by_cases march : fields.month = 3
  · rw [march]
    omega
  · split_ifs <;> omega

theorem eraOf_eq {y : Int} (low : -9223372036854775409 ≤ y) (high : y ≤ 9223372036854775807) : eraOf y = pure (y / 400) := by
  have shifted : i64 (y - 399) = if y ≥ 0 then i64 (y - 399) else pure (y - 399) := by
    split_ifs with positive
    · rfl
    · exact Word.compute_i64 (by omega) (by omega)
  unfold eraOf
  rw [← tdiv_shifted]
  by_cases positive : y ≥ 0
  · rw [if_pos positive, if_pos positive, pure_bind]
  · rw [if_neg positive, if_neg positive, shifted, if_neg positive, pure_bind]

theorem faultless_eraOf_bind {y : Int} {g : Int → OptionT (Except Overflow) Int} (total : Faultless (eraOf y >>= g)) :
    (y ≥ 0 ∨ Word.i64.InRange (y - 399)) ∧ Faultless (g (y / 400)) := by
  unfold eraOf at total
  rw [← tdiv_shifted]
  by_cases positive : y ≥ 0
  · rw [if_pos positive, bind_assoc, pure_bind, pure_bind] at total
    rw [if_pos positive]
    exact ⟨.inl positive, total⟩
  · rw [if_neg positive, bind_assoc, i64, Word.faultless_compute_bind, pure_bind] at total
    rw [if_neg positive]
    exact ⟨.inr total.1, total.2⟩

section

variable {next : Int → OptionT (Except Overflow) Int}

theorem year_step (year : Word.i64.InRange fields.year) (low : -9223372036854775808 ≤ marchYear fields.year fields.month) :
    (if fields.month ≤ 2 then i64 (fields.year - 1) >>= next else next fields.year) =
      next (marchYear fields.year fields.month) := by
  rw [Word.inRange_i64] at year
  unfold marchYear at low ⊢
  by_cases early : fields.month ≤ 2
  · rw [if_pos early] at low
    rw [if_pos early, if_pos early, i64, Word.compute_i64 (by omega) (by omega), pure_bind]
  · rw [if_neg early, if_neg early]

theorem faultless_year_step
    (total : Faultless (if fields.month ≤ 2 then i64 (fields.year - 1) >>= next else next fields.year)) :
    Faultless (next (marchYear fields.year fields.month)) := by
  unfold marchYear
  by_cases early : fields.month ≤ 2
  · rw [if_pos early, i64, Word.faultless_compute_bind] at total
    rw [if_pos early]
    exact total.2
  · rw [if_neg early] at total
    rw [if_neg early]
    exact total

theorem month_step (month : 1 ≤ fields.month ∧ fields.month ≤ 12) :
    (if fields.month > 2 then u32 (fields.month - 3) >>= next else u32 (fields.month + 9) >>= next) =
      next (marchMonth fields.month) := by
  unfold marchMonth u32
  by_cases early : fields.month ≤ 2
  · have notLate : ¬ fields.month > 2 := by omega
    rw [if_neg notLate, if_pos early, Word.compute_u32 (by omega) (by omega), pure_bind]
  · have late : fields.month > 2 := by omega
    rw [if_pos late, if_neg early, Word.compute_u32 (by omega) (by omega), pure_bind]

end

/-- The parts of a date in the arithmetic. -/
structure Fields.Parts (fields : Fields) (y era yoe ofYear before : Int) : Prop where
  year : marchYear fields.year fields.month = y
  ofEra : y = yoe + 400 * era
  first : 0 ≤ yoe
  last : yoe < 400
  ofYear : yoe * 365 + yoe / 4 - yoe / 100 = ofYear
  before : (153 * marchMonth fields.month + 2) / 5 = before

theorem exists_parts (fields : Fields) : ∃ y era yoe ofYear before, fields.Parts y era yoe ofYear before :=
  ⟨_, marchYear fields.year fields.month / 400, marchYear fields.year fields.month % 400, _, _, rfl, by omega, by omega,
    by omega, rfl, rfl⟩

section

variable {y era yoe ofYear before : Int}

theorem Fields.Parts.bounds (parts : fields.Parts y era yoe ofYear before) :
    y / 400 = era ∧ y - era * 400 = yoe ∧ yoe % 4294967296 = yoe ∧ yoe / 4 ≤ 99 ∧ 0 ≤ yoe / 4 ∧ 0 ≤ yoe / 100
      ∧ 0 ≤ ofYear ∧ ofYear ≤ 145731 := by
  obtain ⟨-, ofEra, first, last, same, -⟩ := parts
  omega

theorem Fields.Parts.before_bounds (parts : fields.Parts y era yoe ofYear before)
    (month : 1 ≤ fields.month ∧ fields.month ≤ 12) :
    (fields.month = 3 ∧ before = 0 ∨ 31 ≤ before) ∧ before ≤ 337 ∧ 0 ≤ marchMonth fields.month
      ∧ marchMonth fields.month ≤ 11 := by
  rw [← parts.before]
  exact daysBefore_bounds month

theorem Fields.Parts.days (parts : fields.Parts y era yoe ofYear before) :
    dayNumber fields.date = era * 146097 + (ofYear + (before + fields.day - 1)) ∧ fields.eraStart = era * 146097 := by
  obtain ⟨same, ofEra, first, last, rfl, rfl⟩ := parts
  exact dayNumber_eq same ofEra first last

end

/-- Where no operation on the days overflows. -/
structure Fields.DaysFit (fields : Fields) : Prop where
  march : fields.month = 3 → 1 ≤ fields.day
  day : daysBefore (marchMonth fields.month) + fields.day ≤ 4294967295
  eraDay : dayNumber fields.date - fields.eraStart ≤ 4294967295
  era : -9223372036854775808 ≤ fields.eraStart
  early : -9223372036854775808 ≤ fields.days
  late : fields.days + 719468 ≤ 9223372036854775807

theorem dayCount_eq (typed : fields.Typed) (fits : fields.DaysFit) : fields.dayCount = pure fields.days := by
  obtain ⟨y, era, yoe, ofYear, before, parts⟩ := exists_parts fields
  obtain ⟨number, start⟩ := parts.days
  obtain ⟨months, before₁, index₀, index₁⟩ := parts.before_bounds typed.month
  obtain ⟨quotient, rest, word, leaps, leaps₀, centuries, years₀, years₁⟩ := parts.bounds
  obtain ⟨march, lastDay, eraDay, era₀, early, late⟩ := fits
  unfold Fields.days at early late ⊢
  have day := Word.inRange_u32.1 typed.day
  rw [daysBefore, parts.before] at lastDay
  rw [number] at eraDay early late ⊢
  rw [start] at eraDay era₀
  have low : -9223372036854775409 ≤ y := by
    have := parts.ofEra
    have := parts.first
    omega
  have high : y ≤ 9223372036854775807 := by
    have := parts.ofEra
    have := parts.last
    omega
  have year := @year_step fields
  rw [parts.year] at year
  have first : eraOf y = pure era := by rw [eraOf_eq low high, quotient]
  have ofEra := parts.ofEra
  have yoe₀ := parts.first
  have yoe₁ := parts.last
  unfold Fields.dayCount
  simp only [year typed.year (by omega), month_step typed.month, first, pure_bind]
  have sameYear := parts.ofYear
  have sameBefore := parts.before
  clear number start first year parts
  simp (disch := omega) only [i64, Word.compute_i64, pure_bind, rest, word]
  simp (disch := omega) only [u32, Word.compute_u32, pure_bind, sameBefore, sameYear]
  simp (disch := omega) only [Word.compute_i64, pure_bind]

theorem daysFit_of_faultless (typed : fields.Typed) (total : Faultless fields.dayCount) : fields.DaysFit := by
  obtain ⟨y, era, yoe, ofYear, before, parts⟩ := exists_parts fields
  obtain ⟨number, start⟩ := parts.days
  obtain ⟨months, before₁, index₀, index₁⟩ := parts.before_bounds typed.month
  obtain ⟨quotient, rest, word, leaps, leaps₀, centuries, years₀, years₁⟩ := parts.bounds
  unfold Fields.dayCount at total
  simp only [month_step typed.month, pure_bind] at total
  obtain ⟨-, total⟩ := faultless_eraOf_bind (faultless_year_step total)
  rw [parts.year, quotient] at total
  simp only [i64, u32, Word.faultless_compute_bind, Word.faultless_compute, Word.inRange_i64, Word.inRange_u32, rest,
    word, parts.before, parts.ofYear] at total
  obtain ⟨-, -, -, -, lastDay, positive, -, -, -, eraDay, days, total, early⟩ := total
  refine ⟨?_, ?_, ?_, ?_, ?_, ?_⟩
  · intro march
    rcases months with ⟨-, zero⟩ | later
    · omega
    · rw [← parts.before, march] at later
      simp [marchMonth] at later
  · rw [daysBefore, parts.before]
    exact lastDay.2
  · rw [number, start]
    omega
  · rw [start]
    exact days.1
  · unfold Fields.days
    rw [number]
    exact early.1
  · unfold Fields.days
    rw [number]
    omega

theorem seconds_of_fits (typed : fields.Typed) (fits : fields.Fits) :
    fields.seconds = if fields.days < 0 then failure else pure fields.total := by
  obtain ⟨march, day, eraDay, era, early, late⟩ := fits
  have hour := Word.inRange_u32.1 typed.hour
  have minute := Word.inRange_u32.1 typed.minute
  have second := Word.inRange_u32.1 typed.second
  have days : fields.days + 719468 ≤ 9223372036854775807 := by
    unfold Fields.total at late
    omega
  unfold Fields.seconds
  rw [dayCount_eq typed ⟨march, day, eraDay, era, early, days⟩, pure_bind]
  by_cases negative : fields.days < 0
  · rw [if_pos negative, if_pos negative]
  · rw [if_neg negative, if_neg negative]
    have bound := late (by omega)
    unfold Fields.total at bound ⊢
    simp (disch := omega) only [u64, Word.compute_u64, pure_bind]

theorem faultless_seconds (typed : fields.Typed) : Faultless fields.seconds ↔ fields.Fits := by
  constructor
  · intro total
    have days := daysFit_of_faultless typed (faultless_of_bind total)
    unfold Fields.seconds at total
    rw [dayCount_eq typed days, pure_bind] at total
    refine ⟨days.march, days.day, days.eraDay, days.era, days.early, fun later => ?_⟩
    rw [if_neg (by omega)] at total
    simp only [u64, Word.faultless_compute_bind, Word.faultless_compute, Word.inRange_u64] at total
    unfold Fields.total
    exact total.2.2.2.2.2.2
  · intro fits
    rw [seconds_of_fits typed fits]
    split_ifs
    · exact faultless_failure
    · exact faultless_pure _

/-! ### Dates -/

/-- The fields are those of a date and a time of the calendar. -/
structure Fields.Valid (fields : Fields) : Prop where
  date : fields.date.Valid
  hour : 0 ≤ fields.hour ∧ fields.hour ≤ 23
  minute : 0 ≤ fields.minute ∧ fields.minute ≤ 59
  second : 0 ≤ fields.second ∧ fields.second ≤ 59

theorem date_fieldsOf (later : 0 ≤ secs) : (fieldsOf secs).date = ofDayNumber (secs / 86400 + 719468) := by
  obtain ⟨number, same⟩ : ∃ number, secs / 86400 + 719468 = number := ⟨_, rfl⟩
  have positive : number ≥ 0 := by omega
  have remainder : number - number / 146097 * 146097 = number % 146097 := by omega
  simp only [fieldsOf, same, if_pos positive, remainder, Fields.date, ofDayNumber, ofMarch, yearOfEra, monthOfYear,
    daysBefore, Date.mk.injEq, and_true]
  split_ifs <;> omega

theorem days_fieldsOf (later : 0 ≤ secs) : (fieldsOf secs).days = secs / 86400 := by
  rw [Fields.days, date_fieldsOf later, (ofDayNumber_spec _).2, Int.add_sub_cancel]

theorem total_fieldsOf (later : 0 ≤ secs) : (fieldsOf secs).total = secs := by
  rw [Fields.total, days_fieldsOf later]
  simp only [fieldsOf]
  omega

theorem valid_fieldsOf (later : 0 ≤ secs) : (fieldsOf secs).Valid := by
  refine ⟨?_, ?_, ?_, ?_⟩
  · rw [date_fieldsOf later]
    exact (ofDayNumber_spec _).1
  all_goals
    simp only [fieldsOf]
    omega

theorem fieldsOf_total (valid : fields.Valid) (later : 0 ≤ fields.days) : fieldsOf fields.total = fields := by
  obtain ⟨date, hour, minute, second⟩ := valid
  have total : fields.total / 86400 = fields.days
      ∧ fields.total % 86400 = fields.hour * 3600 + fields.minute * 60 + fields.second := by
    unfold Fields.total
    omega
  have sameDate : (fieldsOf fields.total).date = fields.date := by
    rw [date_fieldsOf (by omega), total.1, Fields.days, Int.sub_add_cancel, ofDayNumber_dayNumber date]
  have sameTime : (fieldsOf fields.total).hour = fields.hour ∧ (fieldsOf fields.total).minute = fields.minute
      ∧ (fieldsOf fields.total).second = fields.second := by
    simp only [fieldsOf, total.2]
    omega
  obtain ⟨day, month, year, hour', minute', second'⟩ := fields
  simp only [Fields.date, Date.mk.injEq] at sameDate
  obtain ⟨sameYear, sameMonth, sameDay⟩ := sameDate
  obtain ⟨sameHour, sameMinute, sameSecond⟩ := sameTime
  generalize fieldsOf (Fields.total ⟨day, month, year, hour', minute', second'⟩) = found at *
  obtain ⟨day, month, year, hour', minute', second'⟩ := found
  simp only at sameYear sameMonth sameDay sameHour sameMinute sameSecond
  simp only [sameYear, sameMonth, sameDay, sameHour, sameMinute, sameSecond]

theorem fits_fieldsOf (later : 0 ≤ secs) (fits : secs ≤ 18446744073709551615) : (fieldsOf secs).Fits := by
  have total := total_fieldsOf later
  have days := days_fieldsOf later
  obtain ⟨⟨firstMonth, lastMonth, firstDay, lastDay⟩, -⟩ := valid_fieldsOf later
  have length := monthLength_le (fieldsOf secs).date.year (fieldsOf secs).date.month
  generalize fieldsOf secs = fields at *
  simp only [Fields.date] at firstMonth lastMonth firstDay lastDay length
  obtain ⟨y, era, yoe, ofYear, before, parts⟩ := exists_parts fields
  obtain ⟨number, start⟩ := parts.days
  obtain ⟨-, before₁, -⟩ := parts.before_bounds ⟨firstMonth, lastMonth⟩
  obtain ⟨-, -, -, -, -, -, years₀, years₁⟩ := parts.bounds
  have count := days
  rw [Fields.days, number] at count
  refine ⟨fun _ => firstDay, ?_, ?_, ?_, by omega, fun _ => by omega⟩
  · rw [daysBefore, parts.before]
    omega
  · rw [number, start]
    omega
  · rw [start]
    omega

/-! ### Words -/

theorem inRange_of_decimal {word : Word} {negative : Bool} {digits : List Char} {value : Int}
    (read : decimal word negative digits = some value) : word.InRange value := by
  unfold decimal at read
  dsimp only at read
  split_ifs at read <;> cases read <;> assumption

theorem inRange_of_parseNumber {word : Word} {text : List Char} {value : Int}
    (read : parseNumber word text = some value) : word.InRange value := by
  unfold parseNumber at read
  split_ifs at read <;> exact inRange_of_decimal read

theorem typed_of_readHttpDate {s : List Char} (read : readHttpDate s = some fields) : fields.Typed := by
  simp only [readHttpDate, Option.bind_eq_bind, Option.bind_eq_some_iff, Option.pure_def, Option.some.injEq] at read
  obtain ⟨_, -, day, ⟨_, -, readDay⟩, month, ⟨_, -, readMonth⟩, year, ⟨_, -, readYear⟩, time, -, _, -, hour,
    ⟨_, -, readHour⟩, minute, ⟨_, -, readMinute⟩, second, ⟨_, -, readSecond⟩, rfl⟩ := read
  have inside := (List.findIdx?_eq_some_iff_getElem.1 readMonth).1
  have length : months.length = 12 := rfl
  exact ⟨⟨by dsimp only; omega, by dsimp only; omega⟩, inRange_of_parseNumber readYear, inRange_of_parseNumber readDay,
    inRange_of_parseNumber readHour, inRange_of_parseNumber readMinute, inRange_of_parseNumber readSecond⟩

/-! ### The text of a date -/

section

variable {word rest : List Char} {width : Nat} {n : Int}

theorem splitWhitespace_cons (some : word ≠ []) (plain : ∀ c ∈ word, isWhitespace c = false) :
    splitWhitespace (word ++ ' ' :: rest) = word :: splitWhitespace rest := by
  unfold splitWhitespace
  rw [List.splitOnP_append_cons_of_forall_mem plain ' ' (by decide), List.filter_cons_of_pos (by simpa using some)]

theorem splitWhitespace_word (some : word ≠ []) (plain : ∀ c ∈ word, isWhitespace c = false) :
    splitWhitespace word = [word] := by
  unfold splitWhitespace
  rw [List.splitOnP_eq_singleton plain, List.filter_cons_of_pos (by simpa using some), List.filter_nil]

theorem dropWhile_of_head {text : List Char} (first : ∀ c ∈ text.head?, isWhitespace c = false) :
    text.dropWhile isWhitespace = text := by
  cases text with
  | nil => rfl
  | cons c text =>
    rw [List.dropWhile_cons_of_neg (by simpa using first c rfl)]

theorem trim_eq {text : List Char} (first : ∀ c ∈ text.head?, isWhitespace c = false)
    (last : ∀ c ∈ text.getLast?, isWhitespace c = false) : trim text = text := by
  rw [trim, dropWhile_of_head first, dropWhile_of_head (by rw [List.head?_reverse]; exact last), List.reverse_reverse]

theorem zeroPadded_eq (low : 0 ≤ n) : zeroPadded width n = paddedDigits 10 width n.toNat := by
  rw [zeroPadded, if_neg (by omega), show n.natAbs = n.toNat by omega]

theorem isDigit_facts {c : Char} (digit : c.isDigit = true) :
    isWhitespace c = false ∧ c ≠ ':' ∧ c ≠ '+' ∧ c ≠ '-' := by
  simp only [Char.isDigit, Bool.and_eq_true, decide_eq_true_eq, UInt32.le_iff_toNat_le, ge_iff_le] at digit
  have value : c.val.toNat = c.toNat := rfl
  have bounds : '0'.val.toNat = 48 ∧ '9'.val.toNat = 57 := ⟨rfl, rfl⟩
  have codes : ':'.toNat = 58 ∧ '+'.toNat = 43 ∧ '-'.toNat = 45 := ⟨rfl, rfl, rfl⟩
  refine ⟨?_, ?_, ?_, ?_⟩
  · simp [isWhitespace]
    omega
  · rintro rfl
    omega
  · rintro rfl
    omega
  · rintro rfl
    omega

theorem digits_zeroPadded (low : 0 ≤ n) : ∀ c ∈ zeroPadded width n, c.isDigit = true := by
  rw [zeroPadded_eq low]
  exact fun c member => isDigit_paddedDigits member

theorem zeroPadded_ne_nil (low : 0 ≤ n) : zeroPadded width n ≠ [] := by
  rw [zeroPadded_eq low, paddedDigits]
  simp [Nat.toDigits_ne_nil]

theorem plain_zeroPadded (low : 0 ≤ n) : ∀ c ∈ zeroPadded width n, isWhitespace c = false :=
  fun c member => (isDigit_facts (digits_zeroPadded low c member)).1

theorem parseNumber_zeroPadded {bits : Word} (low : 0 ≤ n) (fits : bits.InRange n) :
    parseNumber bits (zeroPadded width n) = some n := by
  have nonempty := @zeroPadded_ne_nil width n low
  have digits := @digits_zeroPadded width n low
  have noSign (sign : Char) (other : sign = '+' ∨ sign = '-') : (zeroPadded width n).head? ≠ some sign := by
    intro same
    obtain ⟨-, -, plus, minus⟩ := isDigit_facts (digits sign (List.mem_of_head? same))
    rcases other with rfl | rfl
    · exact plus rfl
    · exact minus rfl
  have value : ((Nat.ofDigitChars 10 (zeroPadded width n) 0 : Nat) : Int) = n := by
    rw [zeroPadded_eq low, ofDigitChars_paddedDigits]
    omega
  rw [parseNumber, if_neg (noSign '+' (.inl rfl)), if_neg (fun both => noSign '-' (.inr rfl) both.1), decimal,
    if_pos ⟨nonempty, List.all_eq_true.2 digits⟩]
  dsimp only
  rw [if_neg Bool.false_ne_true, value, if_pos fits]

end

theorem year_fieldsOf (later : 0 ≤ secs) : 0 ≤ (fieldsOf secs).year
    ∧ (secs ≤ 18446744073709551615 → (fieldsOf secs).year ≤ 9223372036854775807) := by
  have date : (fieldsOf secs).year = (ofDayNumber (secs / 86400 + 719468)).year := congrArg Date.year (date_fieldsOf later)
  have years := year_ofDayNumber_iff 0 9223372036854775807 (secs / 86400 + 719468)
  have later' := year_ofDayNumber_iff 0 (ofDayNumber (secs / 86400 + 719468)).year (secs / 86400 + 719468)
  obtain ⟨valid, same⟩ := ofDayNumber_spec (secs / 86400 + 719468)
  have range := valid.yearStart_le
  rw [yearStart_eq, yearStart_eq] at years later'
  rw [yearStart_eq, yearStart_eq, same] at range
  unfold marchStart at years later' range
  rw [date]
  omega

theorem plain_of_all {word : List Char} (all : word.all (!isWhitespace ·) = true) : ∀ c ∈ word, isWhitespace c = false := by
  intro c member
  have plain := List.all_eq_true.1 all c member
  simpa using plain

theorem nameAt_weekday (secs : Int) : nameAt weekdays (weekday secs) ≠ []
    ∧ ∀ c ∈ nameAt weekdays (weekday secs), isWhitespace c = false := by
  have all : ∀ index < 7, nameAt weekdays (index : Nat) ≠ []
      ∧ (nameAt weekdays (index : Nat)).all (!isWhitespace ·) = true := by decide
  obtain ⟨index, same⟩ := Int.eq_ofNat_of_zero_le (show 0 ≤ weekday secs by unfold weekday; omega)
  have small : index < 7 := by
    unfold weekday at same
    omega
  rw [same]
  exact ⟨(all index small).1, plain_of_all (all index small).2⟩

theorem nameAt_month {month : Int} (first : 1 ≤ month) (last : month ≤ 12) : nameAt months (month - 1) ≠ []
    ∧ (∀ c ∈ nameAt months (month - 1), isWhitespace c = false)
    ∧ months.findIdx? (fun name => name.toList == nameAt months (month - 1)) = some (month - 1).toNat := by
  have all : ∀ index < 12, nameAt months (index : Nat) ≠ []
      ∧ (nameAt months (index : Nat)).all (!isWhitespace ·) = true
      ∧ months.findIdx? (fun name => name.toList == nameAt months (index : Nat)) = some index := by decide
  obtain ⟨index, same⟩ := Int.eq_ofNat_of_zero_le (show 0 ≤ month - 1 by omega)
  obtain ⟨nonempty, plain, found⟩ := all index (by omega)
  rw [same]
  exact ⟨nonempty, plain_of_all plain, found⟩

theorem splitOn_time {hours minutes seconds : List Char} (first : ∀ c ∈ hours, c ≠ ':') (second : ∀ c ∈ minutes, c ≠ ':')
    (third : ∀ c ∈ seconds, c ≠ ':') :
    (hours ++ ':' :: (minutes ++ ':' :: seconds)).splitOn ':' = [hours, minutes, seconds] := by
  rw [List.splitOn_eq_splitOnP, List.splitOnP_append_cons_of_forall_mem (by simpa using first) ':' (by decide),
    List.splitOnP_append_cons_of_forall_mem (by simpa using second) ':' (by decide),
    List.splitOnP_eq_singleton (by simpa using third)]

theorem words_formatHttpDate (later : 0 ≤ secs) : splitWhitespace (trim (formatHttpDate secs)) =
    [nameAt weekdays (weekday secs) ++ [','], zeroPadded 2 (fieldsOf secs).day,
      nameAt months ((fieldsOf secs).month - 1), zeroPadded 4 (fieldsOf secs).year,
      zeroPadded 2 (fieldsOf secs).hour ++ ':' :: (zeroPadded 2 (fieldsOf secs).minute
        ++ ':' :: zeroPadded 2 (fieldsOf secs).second), "GMT".toList] := by
  obtain ⟨⟨firstMonth, lastMonth, firstDay, -⟩, hour, minute, second⟩ := valid_fieldsOf later
  simp only [Fields.date] at firstMonth lastMonth firstDay
  obtain ⟨someDay, plainDay⟩ := nameAt_weekday secs
  obtain ⟨someMonth, plainMonth, -⟩ := nameAt_month firstMonth lastMonth
  have year := year_fieldsOf later
  have comma : isWhitespace ',' = false := by decide
  have colon : isWhitespace ':' = false := by decide
  have text : formatHttpDate secs = (nameAt weekdays (weekday secs) ++ [',']) ++ ' ' :: (zeroPadded 2 (fieldsOf secs).day
      ++ ' ' :: (nameAt months ((fieldsOf secs).month - 1) ++ ' ' :: (zeroPadded 4 (fieldsOf secs).year
        ++ ' ' :: ((zeroPadded 2 (fieldsOf secs).hour ++ ':' :: (zeroPadded 2 (fieldsOf secs).minute
          ++ ':' :: zeroPadded 2 (fieldsOf secs).second)) ++ ' ' :: "GMT".toList)))) := by
    simp [formatHttpDate]
  have plain : ∀ c ∈ nameAt weekdays (weekday secs) ++ [','], isWhitespace c = false := by
    simp only [List.forall_mem_append, List.forall_mem_cons]
    exact ⟨plainDay, comma, by simp⟩
  have plainTime : ∀ c ∈ zeroPadded 2 (fieldsOf secs).hour ++ ':' :: (zeroPadded 2 (fieldsOf secs).minute
      ++ ':' :: zeroPadded 2 (fieldsOf secs).second), isWhitespace c = false := by
    simp only [List.forall_mem_append, List.forall_mem_cons]
    exact ⟨plain_zeroPadded hour.1, colon, plain_zeroPadded minute.1, colon, plain_zeroPadded second.1⟩
  have whole : trim (formatHttpDate secs) = formatHttpDate secs := by
    apply trim_eq
    · rw [text]
      intro c head
      rw [List.head?_append_of_ne_nil _ (by simp)] at head
      exact plain c (List.mem_of_head? head)
    · obtain ⟨before, ends⟩ : ∃ before, formatHttpDate secs = before ++ "GMT".toList :=
        ⟨(nameAt weekdays (weekday secs) ++ [',']) ++ ' ' :: (zeroPadded 2 (fieldsOf secs).day
          ++ ' ' :: (nameAt months ((fieldsOf secs).month - 1) ++ ' ' :: (zeroPadded 4 (fieldsOf secs).year
            ++ ' ' :: ((zeroPadded 2 (fieldsOf secs).hour ++ ':' :: (zeroPadded 2 (fieldsOf secs).minute
              ++ ':' :: zeroPadded 2 (fieldsOf secs).second)) ++ [' '])))), by rw [text]; simp⟩
      have last : (before ++ "GMT".toList).getLast? = some 'T' := by
        rw [List.getLast?_append]
        rfl
      rw [ends, last]
      intro c same
      obtain rfl := Option.some.inj same
      decide
  rw [whole, text, splitWhitespace_cons (by simp) plain,
    splitWhitespace_cons (zeroPadded_ne_nil (by omega)) (plain_zeroPadded (by omega)),
    splitWhitespace_cons someMonth plainMonth,
    splitWhitespace_cons (zeroPadded_ne_nil year.1) (plain_zeroPadded year.1),
    splitWhitespace_cons (by simp) plainTime, splitWhitespace_word (by simp) (plain_of_all (by decide))]

theorem readHttpDate_formatHttpDate (later : 0 ≤ secs) (fits : secs ≤ 18446744073709551615) :
    readHttpDate (formatHttpDate secs) = some (fieldsOf secs) := by
  obtain ⟨⟨firstMonth, lastMonth, firstDay, lastDay⟩, hour, minute, second⟩ := valid_fieldsOf later
  have length := monthLength_le (fieldsOf secs).date.year (fieldsOf secs).date.month
  have noColon {n : Int} (low : 0 ≤ n) : ∀ c ∈ zeroPadded 2 n, c ≠ ':' :=
    fun c member => (isDigit_facts (digits_zeroPadded low c member)).2.1
  obtain ⟨year₀, year₁⟩ := year_fieldsOf later
  simp only [Fields.date] at firstMonth lastMonth firstDay lastDay length
  have month := (nameAt_month firstMonth lastMonth).2.2
  have years := year₁ fits
  have parts {n : Int} {width : Nat} (low : 0 ≤ n) (high : n ≤ 4294967295) :
      parseNumber Word.u32 (zeroPadded width n) = some n := parseNumber_zeroPadded low (Word.inRange_u32.2 ⟨low, high⟩)
  unfold readHttpDate
  rw [words_formatHttpDate later]
  simp only [List.length_cons, List.length_nil, Nat.reduceAdd, guard, List.getElem?_cons_succ, List.getElem?_cons_zero,
    and_self, ↓reduceIte, Option.bind_eq_bind, Option.pure_def, Option.bind_some, month]
  rw [parts (by omega) (by omega), parseNumber_zeroPadded year₀ (Word.inRange_i64.2 ⟨by omega, years⟩),
    splitOn_time (noColon hour.1) (noColon minute.1) (noColon second.1)]
  simp only [List.length_cons, List.length_nil, Nat.reduceAdd, List.getElem?_cons_succ, List.getElem?_cons_zero,
    ↓reduceIte, Option.bind_some, parts hour.1 (by omega), parts minute.1 (by omega), parts second.1 (by omega)]
  have index : ((fieldsOf secs).month - 1).toNat + 1 = (fieldsOf secs).month := by omega
  rw [index]

/-! ### What the parser takes -/

/-- The text has the shape of a date, and its fields are refused unless they are those of a date and a time: they
overflow, or lie before 1970. -/
def ReadsRight (s : List Char) : Prop :=
  ∀ fields, readHttpDate s = some fields → fields.Fits → 0 ≤ fields.days → fields.Valid

theorem parseHttpDate_of_read {s : List Char} (read : readHttpDate s = some fields) :
    parseHttpDate s = fields.seconds := by
  unfold parseHttpDate
  rw [read]
  exact pure_bind _ _

theorem parseHttpDate_of_none {s : List Char} (read : readHttpDate s = none) : parseHttpDate s = failure := by
  unfold parseHttpDate
  rw [read]
  rfl

/-- The parser neither overflows nor underflows if and only if the fields that it reads fit. -/
theorem faultless_parseHttpDate (s : List Char) :
    Faultless (parseHttpDate s) ↔ ∀ fields, readHttpDate s = some fields → fields.Fits := by
  cases read : readHttpDate s with
  | none =>
    rw [parseHttpDate_of_none read]
    exact iff_of_true faultless_failure (fun fields found => by cases found)
  | some fields =>
    rw [parseHttpDate_of_read read, faultless_seconds (typed_of_readHttpDate read)]
    constructor
    · intro fits other same
      rw [← Option.some.inj same]
      exact fits
    · intro all
      exact all fields rfl

/-- The day in front of the first of March underflows. -/
theorem not_faultless_parseHttpDate : ¬ ∀ s, Faultless (parseHttpDate s) := by
  intro all
  exact all "Tue, 00 Mar 1994 00:00:00 GMT".toList .overflow (by decide)

end BasicNext.Web.HttpDate
