import BasicNext.Lib.Gregorian
import BasicNext.Text.Temporal

/-!
# The civil calendar

`civil_from_days` and `days_from_civil` are the proleptic Gregorian calendar of the years 1 to 9999. In front of
the first of March of year 0 the eras are divided twice, and the dates are wrong; their years stay below 1.
-/

namespace BasicNext.Text

open Lib Lib.Gregorian

variable {days year month day : Int}

/-- The days from the first of March of year 0 to the first of January of 1970. -/
def epochShift : Int := 719468

def CivilDate.date (date : CivilDate) : Date := ⟨date.year, date.month, date.day⟩

theorem CivilDate.date_injective {date other : CivilDate} (same : date.date = other.date) : date = other := by
  cases date
  cases other
  simpa [CivilDate.date] using same

/-- A date of the Gregorian calendar in the years of the temporal values. -/
structure CivilDate.Supported (date : CivilDate) : Prop where
  first : minYear ≤ date.year
  last : date.year ≤ maxYear
  valid : date.date.Valid

/-! ### From day numbers to dates -/

theorem civilFromDays_eq (later : 0 ≤ days + epochShift) : (civilFromDays days).date = ofDayNumber (days + epochShift) := by
  unfold epochShift at *
  have remainder : days + 719468 - (days + 719468) / 146097 * 146097 = (days + 719468) % 146097 := by omega
  simp only [civilFromDays, CivilDate.date, ofDayNumber, ofMarch, if_pos later, remainder, yearOfEra, monthOfYear,
    daysBefore, Date.mk.injEq]
  refine ⟨?_, rfl, trivial⟩
  split_ifs <;> omega

theorem year_civilFromDays_neg (earlier : days + epochShift < 0) : (civilFromDays days).year ≤ 0 := by
  unfold epochShift at earlier
  simp only [civilFromDays]
  rw [if_neg (by omega)]
  obtain ⟨era, same⟩ : ∃ era, (days + 719468 - 146096) / 146097 = era := ⟨_, rfl⟩
  rw [same]
  obtain ⟨day, found⟩ : ∃ day, days + 719468 - era * 146097 = day := ⟨_, rfl⟩
  rw [found]
  have bounds : era = -1 ∧ day = 146096 ∨ era ≤ -2 ∧ 0 ≤ day ∧ day ≤ 292192 := by omega
  have year : (day - day / 1460 + day / 36524 - day / 146096) / 365 + era * 400 ≤ -1 := by
    rcases bounds with ⟨rfl, rfl⟩ | ⟨eras, day₀, day₁⟩
    · omega
    · have years : day - day / 1460 + day / 36524 - day / 146096 < 292000 := by
        clear same found
        omega
      omega
  generalize (day - day / 1460 + day / 36524 - day / 146096) / 365 = years at year ⊢
  split_ifs <;> omega

theorem inRange_iff_year :
    inRange days = true ↔ minYear ≤ (civilFromDays days).year ∧ (civilFromDays days).year ≤ maxYear := by
  unfold inRange
  exact decide_eq_true_iff

theorem inRange_iff : inRange days = true ↔ yearStart 1 ≤ days + epochShift ∧ days + epochShift < yearStart 10000 := by
  have start : yearStart 1 = 306 := by decide
  rw [inRange_iff_year]
  by_cases later : 0 ≤ days + epochShift
  · have same : (civilFromDays days).year = (ofDayNumber (days + epochShift)).year :=
      congrArg Date.year (civilFromDays_eq later)
    rw [same]
    exact year_ofDayNumber_iff 1 9999 _
  · have := year_civilFromDays_neg (Int.not_le.1 later)
    unfold minYear
    omega

theorem epochShift_nonneg (ranged : inRange days = true) : 0 ≤ days + epochShift := by
  have start : yearStart 1 = 306 := by decide
  have := inRange_iff.1 ranged
  omega

/-! ### From dates to day numbers -/

theorem daysInMonth_eq (first : 1 ≤ month) (last : month ≤ 12) :
    daysInMonth year month = some (monthLength year month) := by
  obtain rfl | rfl | rfl | rfl | rfl | rfl | rfl | rfl | rfl | rfl | rfl | rfl : month = 1 ∨ month = 2 ∨ month = 3
      ∨ month = 4 ∨ month = 5 ∨ month = 6 ∨ month = 7 ∨ month = 8 ∨ month = 9 ∨ month = 10 ∨ month = 11
      ∨ month = 12 := by omega
  case inr.inl => exact (apply_ite some (IsLeap year) 29 28).symm
  all_goals rfl

theorem CivilDate.Supported.daysFromCivil {date : CivilDate} (supported : date.Supported) :
    daysFromCivil date.year date.month date.day = some (dayNumber date.date - epochShift) := by
  obtain ⟨first, last, ⟨firstMonth, lastMonth, firstDay, lastDay⟩⟩ := supported
  simp only [CivilDate.date] at firstMonth lastMonth firstDay lastDay
  unfold Text.daysFromCivil
  rw [if_neg (by omega), daysInMonth_eq firstMonth lastMonth]
  dsimp only
  rw [if_neg (by omega)]
  simp only [CivilDate.date, dayNumber, marchYear, marchMonth, daysBefore, marchStart, epochShift]
  unfold minYear at first
  congr 1
  split_ifs <;> omega

theorem supported_of_daysFromCivil {number : Int} (positive : 0 ≤ day)
    (found : daysFromCivil year month day = some number) : CivilDate.Supported ⟨year, month, day⟩ := by
  unfold daysFromCivil at found
  by_cases wrong : year < minYear ∨ maxYear < year ∨ month < 1 ∨ 12 < month ∨ day = 0
  · rw [if_pos wrong] at found
    cases found
  · rw [if_neg wrong, daysInMonth_eq (by omega) (by omega)] at found
    dsimp only at found
    by_cases long : monthLength year month < day
    · rw [if_pos long] at found
      cases found
    · exact ⟨by dsimp only; omega, by dsimp only; omega,
        ⟨by dsimp only [CivilDate.date]; omega, by dsimp only [CivilDate.date]; omega,
          by dsimp only [CivilDate.date]; omega, by dsimp only [CivilDate.date]; omega⟩⟩

/-! ### The two directions -/

theorem CivilDate.Supported.civilFromDays {date : CivilDate} (supported : date.Supported) :
    inRange (dayNumber date.date - epochShift) = true ∧ civilFromDays (dayNumber date.date - epochShift) = date := by
  obtain ⟨first, last, valid⟩ := supported
  have back := ofDayNumber_dayNumber valid
  have ranged : inRange (dayNumber date.date - epochShift) = true := by
    have years := year_ofDayNumber_iff 1 9999 (dayNumber date.date)
    rw [back] at years
    rw [inRange_iff, Int.sub_add_cancel]
    exact years.1 ⟨first, last⟩
  refine ⟨ranged, CivilDate.date_injective ?_⟩
  rw [civilFromDays_eq (epochShift_nonneg ranged), Int.sub_add_cancel, back]

theorem supported_civilFromDays (ranged : inRange days = true) : (civilFromDays days).Supported := by
  have same := civilFromDays_eq (epochShift_nonneg ranged)
  obtain ⟨first, last⟩ := inRange_iff_year.1 ranged
  exact ⟨first, last, same ▸ (ofDayNumber_spec _).1⟩

theorem daysFromCivil_civilFromDays (ranged : inRange days = true) :
    daysFromCivil (civilFromDays days).year (civilFromDays days).month (civilFromDays days).day = some days := by
  rw [(supported_civilFromDays ranged).daysFromCivil, civilFromDays_eq (epochShift_nonneg ranged),
    (ofDayNumber_spec _).2, Int.add_sub_cancel]

/-- The dates of the years 1 to 9999 and the day numbers in range are inverse to each other, day numbers in a row
are dates in a row, and the range is that from the first date to the last. -/
theorem civil_inverse : (∀ date : CivilDate, date.Supported →
        ∃ days, daysFromCivil date.year date.month date.day = some days ∧ inRange days = true
          ∧ civilFromDays days = date)
      ∧ (∀ days, inRange days = true → (civilFromDays days).Supported
          ∧ daysFromCivil (civilFromDays days).year (civilFromDays days).month (civilFromDays days).day = some days)
      ∧ (∀ days, inRange days = true → inRange (days + 1) = true →
          (civilFromDays (days + 1)).date = (civilFromDays days).date.next)
      ∧ ∃ first last, daysFromCivil minYear 1 1 = some first ∧ daysFromCivil maxYear 12 31 = some last
          ∧ ∀ days, inRange days = true ↔ first ≤ days ∧ days ≤ last := by
  refine ⟨fun date supported => ⟨_, supported.daysFromCivil, supported.civilFromDays⟩,
    fun days ranged => ⟨supported_civilFromDays ranged, daysFromCivil_civilFromDays ranged⟩, ?_,
    -719162, 2932896, by decide, by decide, ?_⟩
  · intro days ranged ranged'
    rw [civilFromDays_eq (epochShift_nonneg ranged), civilFromDays_eq (epochShift_nonneg ranged'), ← ofDayNumber_succ]
    congr 1
    omega
  · intro days
    have start : yearStart 1 = 306 := by decide
    have stop : yearStart 10000 = 3652365 := by decide
    rw [inRange_iff, start, stop]
    unfold epochShift
    omega

end BasicNext.Text
