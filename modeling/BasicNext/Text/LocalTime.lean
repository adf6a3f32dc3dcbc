import BasicNext.Text.ZoneText

/-!
# Timestamps of local times

A zone has two offsets, an hour apart, so a local time has two candidates. The guess is the candidate without
daylight saving, and it is kept unless daylight saving is active at both candidates. A local time that the clock
skips has the guess as well, whose local time is an hour later.
-/

namespace BasicNext.Text

open Lib

variable {info : TimeZoneInfo} {name : String} {timestamp other moment : Int}

def TimeZoneInfo.localTime (info : TimeZoneInfo) (timestamp : Int) : Int :=
  timestamp + info.offset timestamp * millisPerSecond

/-- The candidate without daylight saving. -/
def TimeZoneInfo.standard (info : TimeZoneInfo) (moment : Int) : Int := moment - info.baseOffset * millisPerSecond

theorem offset_of_active (active : isDstActive info timestamp = true) :
    info.offset timestamp = info.baseOffset + secondsPerHour := if_pos active

theorem offset_of_inactive (inactive : isDstActive info timestamp = false) :
    info.offset timestamp = info.baseOffset := if_neg (by simp [inactive])

theorem localTime_eq_iff : info.localTime timestamp = moment ↔
    timestamp = info.standard moment ∧ isDstActive info timestamp = false
      ∨ timestamp = info.standard moment - millisPerHour ∧ isDstActive info timestamp = true := by
  unfold TimeZoneInfo.localTime TimeZoneInfo.standard millisPerHour millisPerSecond secondsPerHour
  cases active : isDstActive info timestamp with
  | false =>
    rw [offset_of_inactive active]
    simp
    omega
  | true =>
    rw [offset_of_active active]
    unfold secondsPerHour
    simp
    omega

/-! ### The guess -/

/-- The timestamp that the check leaves. -/
def TimeZoneInfo.guess (info : TimeZoneInfo) (moment : Int) : Int :=
  if isDstActive info (info.standard moment) ∧ isDstActive info (info.standard moment - millisPerHour) then
    info.standard moment - millisPerHour
  else info.standard moment

theorem guess_eq (info : TimeZoneInfo) (moment : Int) :
    info.guess moment = let offset1 := info.offset (info.standard moment)
      let utc1 := moment - offset1 * millisPerSecond
      let offset2 := info.offset utc1
      if offset2 = offset1 then utc1 else moment - offset2 * millisPerSecond := by
  dsimp only
  unfold TimeZoneInfo.guess
  have earlier : moment - (info.baseOffset + secondsPerHour) * millisPerSecond = info.standard moment - millisPerHour := by
    unfold TimeZoneInfo.standard millisPerHour millisPerSecond secondsPerHour
    omega
  cases first : isDstActive info (info.standard moment) with
  | false =>
    have standard : moment - info.baseOffset * millisPerSecond = info.standard moment := rfl
    rw [offset_of_inactive first, standard, offset_of_inactive first]
    simp
  | true =>
    rw [offset_of_active first, earlier]
    cases second : isDstActive info (info.standard moment - millisPerHour) with
    | false =>
      rw [offset_of_inactive second, if_neg (by simp), if_neg (by unfold secondsPerHour; omega)]
      rfl
    | true =>
      rw [offset_of_active second]
      simp

theorem timezoneOffset_run (known : (lookupTimezone name).run = .ok (some info)) (timestamp : Int) :
    (timezoneOffset name timestamp).run = .ok (some (info.offset timestamp)) :=
  optionT_bind_of_some known

theorem timestampFromLocal_run {days millis : Int} (known : (lookupTimezone name).run = .ok (some info))
    (low : 0 ≤ millis) : (timestampFromLocal days millis name).run =
      .ok (if inRange (info.guess (days * dayMs + millis) / dayMs) then some (info.guess (days * dayMs + millis))
        else none) := by
  have moment : totimestamp days millis = days * dayMs + millis := by rw [totimestamp, if_neg (by omega)]
  unfold timestampFromLocal
  rw [optionT_bind_of_some known]
  dsimp only
  rw [optionT_bind_of_some (timezoneOffset_run known _), optionT_bind_of_some (timezoneOffset_run known _), moment]
  have final := guess_eq info (days * dayMs + millis)
  unfold TimeZoneInfo.standard at final
  dsimp only at final
  rw [← final]
  by_cases inside : inRange (info.guess (days * dayMs + millis) / dayMs) = true
  · rw [if_pos inside]
    refine optionT_bind_eq_some.2 ⟨_, ofOption_eq_some.2 (if_pos inside), ?_⟩
    exact optionT_bind_eq_some.2 ⟨(), guard_eq_some.2 inside, rfl⟩
  · rw [if_neg inside, split, if_neg inside]
    rfl

/-! ### Which local times have a timestamp -/

theorem localTime_guess (moment : Int) :
    (∃ timestamp, info.localTime timestamp = moment) ∧ info.localTime (info.guess moment) = moment
      ∨ (∀ timestamp, info.localTime timestamp ≠ moment) ∧ info.localTime (info.guess moment) = moment + millisPerHour := by
  cases first : isDstActive info (info.standard moment) with
  | false =>
    have same : info.guess moment = info.standard moment := if_neg (by simp [first])
    have found : info.localTime (info.guess moment) = moment := localTime_eq_iff.2 (.inl ⟨same, by rw [same, first]⟩)
    exact .inl ⟨⟨_, found⟩, found⟩
  | true =>
    cases second : isDstActive info (info.standard moment - millisPerHour) with
    | true =>
      have same : info.guess moment = info.standard moment - millisPerHour := if_pos ⟨first, second⟩
      have found : info.localTime (info.guess moment) = moment := localTime_eq_iff.2 (.inr ⟨same, by rw [same, second]⟩)
      exact .inl ⟨⟨_, found⟩, found⟩
    | false =>
      refine .inr ⟨fun timestamp has => ?_, ?_⟩
      · rcases localTime_eq_iff.1 has with ⟨rfl, inactive⟩ | ⟨rfl, active⟩
        · rw [first] at inactive
          cases inactive
        · rw [second] at active
          cases active
      · have same : info.guess moment = info.standard moment := if_neg (by simp [second])
        rw [same, TimeZoneInfo.localTime, offset_of_active first]
        unfold TimeZoneInfo.standard millisPerHour millisPerSecond secondsPerHour
        omega

/-! ### The end of the calendar -/

section

variable {baseOffset : Int}

theorem usCanadaDst_last : usCanadaDst baseOffset 9999 timestamp =
    some (decide (hourOfDay 2932604 2 - baseOffset * millisPerSecond ≤ timestamp
      ∧ timestamp < hourOfDay 2932842 2 - (baseOffset + secondsPerHour) * millisPerSecond)) := rfl

theorem euUkDst_last : euUkDst 9999 timestamp =
    some (decide (hourOfDay 2932618 1 ≤ timestamp ∧ timestamp < hourOfDay 2932835 1)) := rfl

theorem brazilDst_last : brazilDst 9999 timestamp = some false := rfl

theorem auEastDst_last : auEastDst baseOffset 9999 timestamp = none := rfl

theorem nzDst_last : nzDst baseOffset 9999 timestamp = none := rfl

end

theorem inRange_of_active (sound : info.Sound) (active : isDstActive info timestamp = true) :
    inRange ((timestamp + millisPerHour) / dayMs) = true := by
  by_contra outside
  unfold isDstActive at active
  cases parts : split timestamp with
  | none => simp [parts] at active
  | some days =>
    unfold split at parts
    dsimp only at parts
    split_ifs at parts with inside
    have start : Gregorian.yearStart 1 = 306 := by decide
    have stop : Gregorian.yearStart 10000 = 3652365 := by decide
    rw [inRange_iff, start, stop] at inside outside
    unfold epochShift millisPerHour dayMs secondsPerHour millisPerSecond at *
    have last : timestamp / 86400000 = 2932896 := by omega
    have late : 253402297200000 ≤ timestamp := by omega
    have year : (civilFromDays 2932896).year = 9999 := by decide
    have admits := sound.admits
    rw [split, if_pos (by unfold dayMs; rw [last]; decide)] at active
    unfold dayMs at active
    dsimp only at active
    rw [last, year] at active
    cases rule : info.rule <;> rw [rule] at active admits
    · simp at active
    · rw [usCanadaDst_last, Option.getD_some, decide_eq_true_iff] at active
      simp only [DstRule.Admits, hourOfDay, dayMs, millisPerHour, secondsPerHour, millisPerSecond] at active admits
      omega
    · rw [euUkDst_last, Option.getD_some, decide_eq_true_iff] at active
      simp only [hourOfDay, dayMs, millisPerHour, secondsPerHour, millisPerSecond] at active
      omega
    · rw [brazilDst_last] at active
      simp at active
    · rw [auEastDst_last] at active
      simp at active
    · rw [nzDst_last] at active
      simp at active

theorem inRange_guess (sound : info.Sound) (inside : inRange (timestamp / dayMs) = true) :
    inRange (info.guess (info.localTime timestamp) / dayMs) = true := by
  have candidates := localTime_eq_iff.1 (show info.localTime timestamp = info.localTime timestamp from rfl)
  unfold TimeZoneInfo.guess
  split_ifs with both
  · rcases candidates with ⟨same, inactive⟩ | ⟨same, -⟩
    · rw [← same, inactive] at both
      cases both.1
    · rw [← same]
      exact inside
  · rcases candidates with ⟨same, -⟩ | ⟨same, active⟩
    · rw [← same]
      exact inside
    · have later : info.standard (info.localTime timestamp) = timestamp + millisPerHour := by omega
      rw [later]
      exact inRange_of_active sound active

/-- `timestamp_from_local` gives back the timestamp of a local time that occurs once, one of the timestamps of a
local time that occurs twice, and for a local time that is skipped nothing or the timestamp an hour behind the
clock. -/
theorem timestampFromLocal_inverse (known : (lookupTimezone name).run = .ok (some info)) :
    (∀ timestamp, inRange (timestamp / dayMs) = true →
        (∀ other, inRange (other / dayMs) = true → info.localTime other = info.localTime timestamp → other = timestamp) →
        (timestampFromLocal (info.localTime timestamp / dayMs) (info.localTime timestamp % dayMs) name).run =
          .ok (some timestamp))
      ∧ (∀ first second, inRange (first / dayMs) = true → inRange (second / dayMs) = true → first ≠ second →
        info.localTime first = info.localTime second →
        ∃ result, (timestampFromLocal (info.localTime first / dayMs) (info.localTime first % dayMs) name).run =
          .ok (some result) ∧ (result = first ∨ result = second))
      ∧ ∀ days millis, 0 ≤ millis → millis < dayMs →
        (∀ timestamp, inRange (timestamp / dayMs) = true → info.localTime timestamp ≠ days * dayMs + millis) →
        (timestampFromLocal days millis name).run = .ok none
          ∨ ∃ result, (timestampFromLocal days millis name).run = .ok (some result) ∧ inRange (result / dayMs) = true
            ∧ info.localTime result = days * dayMs + millis + millisPerHour := by
  have sound := lookupTimezone_sound known
  have result (timestamp : Int) (inside : inRange (timestamp / dayMs) = true) :
      (timestampFromLocal (info.localTime timestamp / dayMs) (info.localTime timestamp % dayMs) name).run =
        .ok (some (info.guess (info.localTime timestamp)))
        ∧ info.localTime (info.guess (info.localTime timestamp)) = info.localTime timestamp := by
    have low : 0 ≤ info.localTime timestamp % dayMs := by
      unfold dayMs
      omega
    have moment : info.localTime timestamp / dayMs * dayMs + info.localTime timestamp % dayMs =
        info.localTime timestamp := by
      unfold dayMs
      omega
    rw [timestampFromLocal_run known low, moment, if_pos (inRange_guess sound inside)]
    refine ⟨rfl, ?_⟩
    rcases @localTime_guess info (info.localTime timestamp) with ⟨-, same⟩ | ⟨skipped, -⟩
    · exact same
    · exact absurd rfl (skipped timestamp)
  refine ⟨?_, ?_, ?_⟩
  · intro timestamp inside once
    obtain ⟨found, same⟩ := result timestamp inside
    rw [found, once _ (inRange_guess sound inside) same]
  · intro first second inside inside' different twice
    obtain ⟨found, same⟩ := result first inside
    refine ⟨_, found, ?_⟩
    have candidates := localTime_eq_iff.1 same
    have one := localTime_eq_iff.1 (show info.localTime first = info.localTime first from rfl)
    have two := localTime_eq_iff.1 twice.symm
    omega
  · intro days millis low high skipped
    rw [timestampFromLocal_run known low]
    by_cases inside : inRange (info.guess (days * dayMs + millis) / dayMs) = true
    · rw [if_pos inside]
      refine .inr ⟨_, rfl, inside, ?_⟩
      rcases @localTime_guess info (days * dayMs + millis) with ⟨-, same⟩ | ⟨-, later⟩
      · exact absurd same (skipped _ inside)
      · exact later
    · rw [if_neg inside]
      exact .inl rfl

/-- Half past one on 1 November 2026 occurs twice in New York. -/
theorem timestampFromLocal_twice : ∃ result, (timestampFromLocal 20758 5400000 "America/New_York").run = .ok (some result)
    ∧ (result = 1793511000000 ∨ result = 1793514600000) :=
  (@timestampFromLocal_inverse ⟨-5 * secondsPerHour, .usCanada⟩ "America/New_York" rfl).2.1
    1793511000000 1793514600000 (by decide) (by decide) (by decide) (by decide)

/-- Half past two on 8 March 2026 does not occur in New York, and gives the timestamp of half past three. -/
theorem timestampFromLocal_skipped : (lookupTimezone "America/New_York").run = .ok (some ⟨-5 * secondsPerHour, .usCanada⟩)
      ∧ (∀ timestamp, TimeZoneInfo.localTime ⟨-5 * secondsPerHour, .usCanada⟩ timestamp ≠ 20520 * dayMs + 9000000)
      ∧ (timestampFromLocal 20520 9000000 "America/New_York").run = .ok (some 1772955000000)
      ∧ TimeZoneInfo.localTime ⟨-5 * secondsPerHour, .usCanada⟩ 1772955000000 = 20520 * dayMs + 12600000 := by
  refine ⟨rfl, fun timestamp same => ?_, by decide, by decide⟩
  have active : isDstActive ⟨-5 * secondsPerHour, .usCanada⟩ 1772955000000 = true := by decide
  have inactive : isDstActive ⟨-5 * secondsPerHour, .usCanada⟩ 1772951400000 = false := by decide
  rcases localTime_eq_iff.1 same with ⟨rfl, standard⟩ | ⟨rfl, summer⟩
  · exact absurd (active.symm.trans standard) (by decide)
  · exact absurd (summer.symm.trans inactive) (by decide)

end BasicNext.Text
