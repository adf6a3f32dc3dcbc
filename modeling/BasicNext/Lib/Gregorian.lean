import Mathlib.Data.List.Basic

/-!
# The proleptic Gregorian calendar

Dates of all years and their day numbers, counted from the first of March of year 0. A year that begins in
March has its leap day at its end, so the number of a date is linear in its year and its month up to floors,
and the date of a number is found by division.
-/

namespace BasicNext.Lib.Gregorian

structure Date where
  year : Int
  month : Int
  day : Int
deriving DecidableEq, Repr

def IsLeap (year : Int) : Prop := year % 4 = 0 ∧ (year % 100 ≠ 0 ∨ year % 400 = 0)

instance (year : Int) : Decidable (IsLeap year) := instDecidableAnd

def monthLength (year month : Int) : Int :=
  if month = 2 then if IsLeap year then 29 else 28
  else if month = 4 ∨ month = 6 ∨ month = 9 ∨ month = 11 then 30
  else 31

namespace Date

structure Valid (date : Date) : Prop where
  firstMonth : 1 ≤ date.month
  lastMonth : date.month ≤ 12
  firstDay : 1 ≤ date.day
  lastDay : date.day ≤ monthLength date.year date.month

def next (date : Date) : Date :=
  if date.day < monthLength date.year date.month then { date with day := date.day + 1 }
  else if date.month < 12 then ⟨date.year, date.month + 1, 1⟩
  else ⟨date.year + 1, 1, 1⟩

end Date

/-- The year of a date where years begin in March. -/
def marchYear (year month : Int) : Int := if month ≤ 2 then year - 1 else year

def marchMonth (month : Int) : Int := if month ≤ 2 then month + 9 else month - 3

/-- The days of the months in front of a month, from March on. -/
def daysBefore (month : Int) : Int := (153 * month + 2) / 5

/-- The days from the first of March of year 0 to the first of March of a year. -/
def marchStart (year : Int) : Int := 365 * year + year / 4 - year / 100 + year / 400

def dayNumber (date : Date) : Int :=
  marchStart (marchYear date.year date.month) + (daysBefore (marchMonth date.month) + date.day - 1)

def yearOfEra (day : Int) : Int := (day - day / 1460 + day / 36524 - day / 146096) / 365

def monthOfYear (day : Int) : Int := (5 * day + 2) / 153

def ofMarch (year day : Int) : Date :=
  let month := if monthOfYear day < 10 then monthOfYear day + 3 else monthOfYear day - 9
  { year := if month ≤ 2 then year + 1 else year, month, day := day - daysBefore (monthOfYear day) + 1 }

def ofDayNumber (number : Int) : Date :=
  let era := number / 146097
  let day := number % 146097
  let year := yearOfEra day
  ofMarch (year + 400 * era) (day - (365 * year + year / 4 - year / 100))

/-! ### Years -/

/-- The days of a year that begins in March. -/
def InYear (year day : Int) : Prop := 0 ≤ day ∧ (day ≤ 364 ∨ day = 365 ∧ IsLeap (year + 1))

theorem yearOfEra_eq {year day number : Int} (first : 0 ≤ year) (last : year < 400) (inYear : InYear year day)
    (same : number = 365 * year + year / 4 - year / 100 + day) : yearOfEra number = year := by
  obtain ⟨century, cycle, rest, rfl, century₀, century₁, cycle₀, cycle₁, rest₀, rest₁⟩ :
      ∃ century cycle rest : Int, year = 100 * century + 4 * cycle + rest ∧ 0 ≤ century ∧ century ≤ 3 ∧ 0 ≤ cycle
        ∧ cycle ≤ 24 ∧ 0 ≤ rest ∧ rest ≤ 3 :=
    ⟨year / 100, year % 100 / 4, year % 4, by omega, by omega, by omega, by omega, by omega, by omega, by omega⟩
  obtain ⟨day₀, day₁⟩ := inYear
  have leap : day ≤ 364 ∨ day = 365 ∧ rest = 3 ∧ (cycle ≤ 23 ∨ century = 3) := by
    unfold IsLeap at day₁
    omega
  have total : number = 36524 * century + 1461 * cycle + 365 * rest + day := by omega
  have centuries : number / 36524 - number / 146096 = century := by
    have within : 1461 * cycle + 365 * rest + day ≤ 36523 ∨ century = 3 ∧ cycle = 24 ∧ rest = 3 ∧ day = 365 := by
      omega
    clear same day₁
    rcases within with inside | ⟨rfl, rfl, rfl, rfl⟩
    · have quotient : number / 36524 = century := by omega
      have short : number / 146096 = 0 := by omega
      omega
    · omega
  have cycles : number / 1460 = 25 * century + cycle + (24 * century + cycle + 365 * rest + day) / 1460 := by
    clear same day₁
    omega
  have carry : (24 * century + cycle + 365 * rest + day) / 1460 = 0
      ∨ (24 * century + cycle + 365 * rest + day) / 1460 = 1 := by omega
  unfold yearOfEra
  clear same day₁
  rcases carry with none | one <;> omega

theorem exists_yearOfEra {number : Int} (first : 0 ≤ number) (last : number < 146097) :
    ∃ year day, 0 ≤ year ∧ year < 400 ∧ InYear year day ∧ number = 365 * year + year / 4 - year / 100 + day := by
  obtain ⟨century, inCentury, centuries⟩ : ∃ century day : Int, (0 ≤ century ∧ century ≤ 3 ∧ 0 ≤ day
      ∧ (day ≤ 36523 ∨ century = 3 ∧ day = 36524)) ∧ number = 36524 * century + day := by
    by_cases full : number = 146096
    · exact ⟨3, 36524, by omega, by omega⟩
    · exact ⟨number / 36524, number % 36524, by omega, by omega⟩
  obtain ⟨⟨century₀, century₁, day₀, day₁⟩, rfl⟩ := centuries
  obtain ⟨cycle, inCycle, ⟨cycle₀, cycle₁, first', last'⟩, rfl⟩ : ∃ cycle day : Int,
      (0 ≤ cycle ∧ cycle ≤ 24 ∧ 0 ≤ day ∧ (day ≤ 1459 ∨ day = 1460 ∧ (cycle ≤ 23 ∨ century = 3)))
        ∧ inCentury = 1461 * cycle + day :=
    ⟨inCentury / 1461, inCentury % 1461, by omega, by omega⟩
  obtain ⟨rest, day, ⟨rest₀, rest₁, first'', last''⟩, rfl⟩ : ∃ rest day : Int,
      (0 ≤ rest ∧ rest ≤ 3 ∧ 0 ≤ day ∧ (day ≤ 364 ∨ day = 365 ∧ rest = 3 ∧ (cycle ≤ 23 ∨ century = 3)))
        ∧ inCycle = 365 * rest + day := by
    by_cases leap : inCycle = 1460
    · exact ⟨3, 365, by omega, by omega⟩
    · exact ⟨inCycle / 365, inCycle % 365, by omega, by omega⟩
  refine ⟨100 * century + 4 * cycle + rest, day, by omega, by omega, ⟨first'', ?_⟩, by omega⟩
  unfold IsLeap
  omega

theorem ofDayNumber_marchStart {year day : Int} (inYear : InYear year day) :
    ofDayNumber (marchStart year + day) = ofMarch year day := by
  obtain ⟨era, yearOf, rfl, yearOf₀, yearOf₁⟩ : ∃ era yearOf : Int, year = yearOf + 400 * era ∧ 0 ≤ yearOf ∧ yearOf < 400 :=
    ⟨year / 400, year % 400, by omega, by omega, by omega⟩
  have inEra : InYear yearOf day := by
    unfold InYear IsLeap at inYear ⊢
    omega
  have start : marchStart (yearOf + 400 * era) = 365 * yearOf + yearOf / 4 - yearOf / 100 + 146097 * era := by
    unfold marchStart
    omega
  have within : 0 ≤ 365 * yearOf + yearOf / 4 - yearOf / 100 + day
      ∧ 365 * yearOf + yearOf / 4 - yearOf / 100 + day < 146097 := by
    unfold InYear IsLeap at inEra
    omega
  have quotient : (marchStart (yearOf + 400 * era) + day) / 146097 = era := by omega
  have remainder : (marchStart (yearOf + 400 * era) + day) % 146097
      = 365 * yearOf + yearOf / 4 - yearOf / 100 + day := by omega
  simp only [ofDayNumber, quotient, remainder, yearOfEra_eq yearOf₀ yearOf₁ inEra rfl]
  congr 1
  omega

theorem exists_marchStart (number : Int) : ∃ year day, InYear year day ∧ number = marchStart year + day := by
  obtain ⟨year, day, year₀, year₁, inYear, same⟩ := @exists_yearOfEra (number % 146097) (by omega) (by omega)
  refine ⟨year + 400 * (number / 146097), day, ?_, ?_⟩
  · unfold InYear IsLeap at inYear ⊢
    omega
  · unfold marchStart
    omega

/-! ### Months -/

theorem monthLength_le (year month : Int) : monthLength year month ≤ 31 := by
  unfold monthLength
  split_ifs <;> omega

theorem Date.Valid.month {date : Date} (valid : date.Valid) :
    monthOfYear (daysBefore (marchMonth date.month) + date.day - 1) = marchMonth date.month
      ∧ 0 ≤ daysBefore (marchMonth date.month) + date.day - 1
      ∧ (daysBefore (marchMonth date.month) + date.day - 1 ≤ 364
        ∨ daysBefore (marchMonth date.month) + date.day - 1 = 365 ∧ date.month = 2 ∧ IsLeap date.year) := by
  obtain ⟨year, month, day⟩ := date
  obtain ⟨firstMonth, lastMonth, firstDay, lastDay⟩ := valid
  dsimp only at *
  unfold monthLength at lastDay
  unfold monthOfYear daysBefore marchMonth
  obtain rfl | rfl | rfl | rfl | rfl | rfl | rfl | rfl | rfl | rfl | rfl | rfl : month = 1 ∨ month = 2 ∨ month = 3
      ∨ month = 4 ∨ month = 5 ∨ month = 6 ∨ month = 7 ∨ month = 8 ∨ month = 9 ∨ month = 10 ∨ month = 11
      ∨ month = 12 := by omega
  all_goals
    by_cases leap : IsLeap year <;> simp [leap] at lastDay ⊢ <;> omega

theorem Date.Valid.inYear {date : Date} (valid : date.Valid) :
    InYear (marchYear date.year date.month) (daysBefore (marchMonth date.month) + date.day - 1) := by
  obtain ⟨-, first, last⟩ := valid.month
  refine ⟨first, last.imp_right fun both => ⟨both.1, ?_⟩⟩
  obtain ⟨-, february, leap⟩ := both
  rw [marchYear, if_pos (by omega), Int.sub_add_cancel]
  exact leap

theorem Date.Valid.ofMarch {date : Date} (valid : date.Valid) :
    ofMarch (marchYear date.year date.month) (daysBefore (marchMonth date.month) + date.day - 1) = date := by
  obtain ⟨same, -⟩ := valid.month
  obtain ⟨firstMonth, lastMonth, -, -⟩ := valid
  have month : (if marchMonth date.month < 10 then marchMonth date.month + 3 else marchMonth date.month - 9) =
      date.month := by
    unfold marchMonth
    split_ifs <;> omega
  have year : (if date.month ≤ 2 then marchYear date.year date.month + 1 else marchYear date.year date.month) =
      date.year := by
    unfold marchYear
    split_ifs <;> omega
  simp only [Gregorian.ofMarch, same, month, year]
  obtain ⟨year, month, day⟩ := date
  simp only [Date.mk.injEq, true_and]
  omega

theorem ofDayNumber_dayNumber {date : Date} (valid : date.Valid) : ofDayNumber (dayNumber date) = date := by
  rw [dayNumber, ofDayNumber_marchStart valid.inYear, valid.ofMarch]

theorem ofMarch_spec {year day : Int} (inYear : InYear year day) :
    (ofMarch year day).Valid ∧ marchYear (ofMarch year day).year (ofMarch year day).month = year
      ∧ daysBefore (marchMonth (ofMarch year day).month) + (ofMarch year day).day - 1 = day := by
  obtain ⟨first, last⟩ := inYear
  obtain ⟨month, found, month₀, month₁⟩ : ∃ month, monthOfYear day = month ∧ 0 ≤ month ∧ month ≤ 11 := by
    refine ⟨_, rfl, ?_⟩
    unfold monthOfYear
    omega
  have range : 153 * month ≤ 5 * day + 2 ∧ 5 * day + 2 < 153 * month + 153 := by
    unfold monthOfYear at found
    omega
  unfold ofMarch
  rw [found]
  obtain rfl | rfl | rfl | rfl | rfl | rfl | rfl | rfl | rfl | rfl | rfl | rfl : month = 0 ∨ month = 1 ∨ month = 2
      ∨ month = 3 ∨ month = 4 ∨ month = 5 ∨ month = 6 ∨ month = 7 ∨ month = 8 ∨ month = 9 ∨ month = 10
      ∨ month = 11 := by omega
  all_goals
    refine ⟨⟨?_, ?_, ?_, ?_⟩, ?_, ?_⟩ <;>
      by_cases leap : IsLeap (year + 1) <;>
        simp [monthLength, marchYear, marchMonth, daysBefore, leap] at last ⊢ <;> omega

theorem ofDayNumber_spec (number : Int) : (ofDayNumber number).Valid ∧ dayNumber (ofDayNumber number) = number := by
  obtain ⟨year, day, inYear, rfl⟩ := exists_marchStart number
  obtain ⟨valid, sameYear, sameDay⟩ := ofMarch_spec inYear
  rw [ofDayNumber_marchStart inYear, dayNumber, sameYear, sameDay]
  exact ⟨valid, rfl⟩

/-! ### Order -/

theorem dayNumber_next {date : Date} (valid : date.Valid) : dayNumber date.next = dayNumber date + 1 := by
  obtain ⟨year, month, day⟩ := date
  obtain ⟨firstMonth, lastMonth, firstDay, lastDay⟩ := valid
  dsimp only at *
  unfold Date.next
  dsimp only
  by_cases inside : day < monthLength year month
  · rw [if_pos inside]
    unfold dayNumber
    dsimp only
    omega
  · have full : day = monthLength year month := by omega
    subst full
    rw [if_neg inside]
    unfold dayNumber marchStart marchYear marchMonth daysBefore
    obtain rfl | rfl | rfl | rfl | rfl | rfl | rfl | rfl | rfl | rfl | rfl | rfl : month = 1 ∨ month = 2 ∨ month = 3
        ∨ month = 4 ∨ month = 5 ∨ month = 6 ∨ month = 7 ∨ month = 8 ∨ month = 9 ∨ month = 10 ∨ month = 11
        ∨ month = 12 := by omega
    all_goals
      by_cases leap : IsLeap year <;> simp [monthLength, leap] <;> unfold IsLeap at leap <;> omega

theorem Date.Valid.next {date : Date} (valid : date.Valid) : date.next.Valid := by
  obtain ⟨firstMonth, lastMonth, firstDay, lastDay⟩ := valid
  have some (year month : Int) : 1 ≤ monthLength year month := by
    unfold monthLength
    split_ifs <;> omega
  unfold Date.next
  split_ifs with inside december
  · exact ⟨firstMonth, lastMonth, by dsimp only; omega, by dsimp only; omega⟩
  · exact ⟨by dsimp only; omega, by dsimp only; omega, by dsimp only; omega, some _ _⟩
  · exact ⟨by dsimp only; omega, by dsimp only; omega, by dsimp only; omega, some _ _⟩

theorem ofDayNumber_succ (number : Int) : ofDayNumber (number + 1) = (ofDayNumber number).next := by
  obtain ⟨valid, same⟩ := ofDayNumber_spec number
  have later : dayNumber (ofDayNumber number).next = number + 1 := by rw [dayNumber_next valid, same]
  rw [← later, ofDayNumber_dayNumber valid.next]

/-- The number of the first of January. -/
def yearStart (year : Int) : Int := dayNumber ⟨year, 1, 1⟩

theorem yearStart_eq (year : Int) : yearStart year = marchStart (year - 1) + 306 := by
  simp [yearStart, dayNumber, marchYear, marchMonth, daysBefore]

theorem yearStart_mono {first last : Int} (order : first ≤ last) : yearStart first ≤ yearStart last := by
  rw [yearStart_eq, yearStart_eq]
  unfold marchStart
  omega

theorem Date.Valid.yearStart_le {date : Date} (valid : date.Valid) :
    yearStart date.year ≤ dayNumber date ∧ dayNumber date < yearStart (date.year + 1) := by
  have length := monthLength_le date.year date.month
  obtain ⟨year, month, day⟩ := date
  obtain ⟨firstMonth, lastMonth, firstDay, lastDay⟩ := valid
  rw [yearStart_eq, yearStart_eq]
  unfold dayNumber marchYear marchMonth daysBefore marchStart
  dsimp only at *
  split_ifs <;> omega

theorem year_ofDayNumber_iff (first last number : Int) :
    first ≤ (ofDayNumber number).year ∧ (ofDayNumber number).year ≤ last ↔
      yearStart first ≤ number ∧ number < yearStart (last + 1) := by
  obtain ⟨valid, same⟩ := ofDayNumber_spec number
  obtain ⟨low, high⟩ := valid.yearStart_le
  rw [same] at low high
  constructor
  · rintro ⟨after, before⟩
    have start := yearStart_mono after
    have stop := yearStart_mono (show (ofDayNumber number).year + 1 ≤ last + 1 by omega)
    omega
  · rintro ⟨after, before⟩
    constructor
    · by_contra earlier
      have := yearStart_mono (show (ofDayNumber number).year + 1 ≤ first by omega)
      omega
    · by_contra later
      have := yearStart_mono (show last + 1 ≤ (ofDayNumber number).year by omega)
      omega

end BasicNext.Lib.Gregorian
