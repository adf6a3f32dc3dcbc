import BasicNext.Lib.Digits
import BasicNext.Text.Temporal

/-!
# Time zones

`bn_core_text::timezone`: the supported zones, their daylight saving rules, the text of a timestamp in a zone
and the timestamp of a local time. A zone has an offset without daylight saving and a rule; a rule looks at
the year of the timestamp in UTC.
-/

namespace BasicNext.Text

open Lib

def secondsPerMinute : Int := 60

def secondsPerHour : Int := 3600

def millisPerSecond : Int := 1000

def millisPerHour : Int := secondsPerHour * millisPerSecond

inductive DstRule where
  | none
  | usCanada
  | euUk
  | brazil
  | auEast
  | nz
deriving DecidableEq, Repr

structure TimeZoneInfo where
  baseOffset : Int
  rule : DstRule
deriving DecidableEq, Repr

def timezones : List (String × TimeZoneInfo) :=
  [("UTC", ⟨0, .none⟩), ("Etc/UTC", ⟨0, .none⟩), ("Etc/GMT", ⟨0, .none⟩), ("GMT", ⟨0, .none⟩),
    ("America/New_York", ⟨-5 * secondsPerHour, .usCanada⟩), ("America/Detroit", ⟨-5 * secondsPerHour, .usCanada⟩),
    ("America/Chicago", ⟨-6 * secondsPerHour, .usCanada⟩), ("America/Denver", ⟨-7 * secondsPerHour, .usCanada⟩),
    ("America/Phoenix", ⟨-7 * secondsPerHour, .none⟩), ("America/Los_Angeles", ⟨-8 * secondsPerHour, .usCanada⟩),
    ("America/Anchorage", ⟨-9 * secondsPerHour, .usCanada⟩), ("America/Honolulu", ⟨-10 * secondsPerHour, .none⟩),
    ("America/Toronto", ⟨-5 * secondsPerHour, .usCanada⟩), ("America/Vancouver", ⟨-8 * secondsPerHour, .usCanada⟩),
    ("Europe/London", ⟨0, .euUk⟩), ("Europe/Dublin", ⟨0, .euUk⟩), ("Europe/Lisbon", ⟨0, .euUk⟩),
    ("Europe/Paris", ⟨secondsPerHour, .euUk⟩), ("Europe/Berlin", ⟨secondsPerHour, .euUk⟩),
    ("Europe/Rome", ⟨secondsPerHour, .euUk⟩), ("Europe/Madrid", ⟨secondsPerHour, .euUk⟩),
    ("Europe/Amsterdam", ⟨secondsPerHour, .euUk⟩), ("Europe/Brussels", ⟨secondsPerHour, .euUk⟩),
    ("Europe/Vienna", ⟨secondsPerHour, .euUk⟩), ("Europe/Stockholm", ⟨secondsPerHour, .euUk⟩),
    ("Europe/Oslo", ⟨secondsPerHour, .euUk⟩), ("Europe/Copenhagen", ⟨secondsPerHour, .euUk⟩),
    ("Europe/Warsaw", ⟨secondsPerHour, .euUk⟩), ("Europe/Prague", ⟨secondsPerHour, .euUk⟩),
    ("Europe/Budapest", ⟨secondsPerHour, .euUk⟩), ("Europe/Athens", ⟨2 * secondsPerHour, .euUk⟩),
    ("Europe/Helsinki", ⟨2 * secondsPerHour, .euUk⟩), ("Europe/Bucharest", ⟨2 * secondsPerHour, .euUk⟩),
    ("Europe/Kyiv", ⟨2 * secondsPerHour, .euUk⟩), ("America/Sao_Paulo", ⟨-3 * secondsPerHour, .brazil⟩),
    ("America/Buenos_Aires", ⟨-3 * secondsPerHour, .none⟩),
    ("America/Argentina/Buenos_Aires", ⟨-3 * secondsPerHour, .none⟩),
    ("America/Santiago", ⟨-4 * secondsPerHour, .none⟩), ("America/Bogota", ⟨-5 * secondsPerHour, .none⟩),
    ("America/Lima", ⟨-5 * secondsPerHour, .none⟩), ("America/Montevideo", ⟨-3 * secondsPerHour, .none⟩),
    ("Asia/Tokyo", ⟨9 * secondsPerHour, .none⟩), ("Asia/Seoul", ⟨9 * secondsPerHour, .none⟩),
    ("Asia/Shanghai", ⟨8 * secondsPerHour, .none⟩), ("Asia/Hong_Kong", ⟨8 * secondsPerHour, .none⟩),
    ("Asia/Singapore", ⟨8 * secondsPerHour, .none⟩), ("Asia/Taipei", ⟨8 * secondsPerHour, .none⟩),
    ("Asia/Manila", ⟨8 * secondsPerHour, .none⟩),
    ("Asia/Kolkata", ⟨5 * secondsPerHour + 30 * secondsPerMinute, .none⟩),
    ("Asia/Bangkok", ⟨7 * secondsPerHour, .none⟩), ("Asia/Jakarta", ⟨7 * secondsPerHour, .none⟩),
    ("Asia/Dubai", ⟨4 * secondsPerHour, .none⟩), ("Australia/Sydney", ⟨10 * secondsPerHour, .auEast⟩),
    ("Australia/Melbourne", ⟨10 * secondsPerHour, .auEast⟩), ("Australia/Brisbane", ⟨10 * secondsPerHour, .none⟩),
    ("Australia/Perth", ⟨8 * secondsPerHour, .none⟩),
    ("Australia/Adelaide", ⟨9 * secondsPerHour + 30 * secondsPerMinute, .auEast⟩),
    ("Pacific/Auckland", ⟨12 * secondsPerHour, .nz⟩), ("Pacific/Honolulu", ⟨-10 * secondsPerHour, .none⟩),
    ("Pacific/Fiji", ⟨12 * secondsPerHour, .none⟩), ("Africa/Cairo", ⟨2 * secondsPerHour, .none⟩),
    ("Africa/Johannesburg", ⟨2 * secondsPerHour, .none⟩), ("Africa/Lagos", ⟨secondsPerHour, .none⟩),
    ("Africa/Nairobi", ⟨3 * secondsPerHour, .none⟩)]

/-! ### Names -/

/-- `str::parse::<i32>` -/
def parseI32 (text : List UInt8) : Option Int :=
  let negative := text.head? = some (byteOf '-')
  let digits := if negative ∨ text.head? = some (byteOf '+') then text.tail else text
  if digits ≠ [] ∧ digits.all isDigit then
    let magnitude : Nat := digits.foldl (fun value digit => value * 10 + (digit.toNat - 48)) 0
    let value : Int := if negative then -magnitude else magnitude
    if -2 ^ 31 ≤ value ∧ value < 2 ^ 31 then some value else none
  else none

/-- The names `Etc/GMT+N` and `Etc/GMT-N`: west of UTC is plus. -/
def etcZone (suffix : List UInt8) : Parse TimeZoneInfo :=
  if suffix = [] then pure ⟨0, .none⟩
  else do
    let sign ← slice suffix 0 1
    let digits ← slice suffix 1 suffix.length
    let hours ← Parse.ofOption (parseI32 digits)
    guard (1 ≤ hours ∧ hours ≤ 14)
    if sign = [byteOf '+'] then return ⟨-hours * secondsPerHour, .none⟩
    else if sign = [byteOf '-'] then return ⟨hours * secondsPerHour, .none⟩
    else failure

def lookupTimezone (name : String) : Parse TimeZoneInfo :=
  match timezones.find? fun zone => zone.1 == name with
  | some (_, info) => pure info
  | none =>
    let etc := asBytes "Etc/GMT"
    if etc.isPrefixOf (asBytes name) then etcZone ((asBytes name).drop etc.length) else failure

/-- The offsets of the zones under a rule. -/
def DstRule.Admits : DstRule → Int → Prop
  | .none, offset => -14 * secondsPerHour ≤ offset ∧ offset ≤ 14 * secondsPerHour
  | .usCanada, offset => -10 * secondsPerHour ≤ offset ∧ offset ≤ -5 * secondsPerHour
  | .euUk, offset => 0 ≤ offset ∧ offset ≤ 2 * secondsPerHour
  | .brazil, offset => offset = -3 * secondsPerHour
  | .auEast, offset => 9 * secondsPerHour ≤ offset ∧ offset ≤ 10 * secondsPerHour
  | .nz, offset => offset = 12 * secondsPerHour

instance (rule : DstRule) (offset : Int) : Decidable (rule.Admits offset) := by
  cases rule <;> unfold DstRule.Admits <;> infer_instance

/-- A zone that is some minutes ahead of UTC. -/
structure TimeZoneInfo.Sound (info : TimeZoneInfo) : Prop where
  minutes : info.baseOffset % secondsPerMinute = 0
  admits : info.rule.Admits info.baseOffset

theorem sound_timezones : ∀ zone ∈ timezones, zone.2.baseOffset % secondsPerMinute = 0
    ∧ zone.2.rule.Admits zone.2.baseOffset := by decide

/-! ### Daylight saving -/

def weekdaySundayZero (days : Int) : Int := (days + 4) % 7

def nthSundayOfMonth (year month n : Int) : Option Int := do
  let firstDay ← daysFromCivil year month 1
  let firstSunday := 1 + (7 - weekdaySundayZero firstDay) % 7
  return firstSunday + (n - 1) * 7

def lastSundayOfMonth (year month : Int) : Option Int := do
  let lastDayNum ← daysInMonth year month
  let lastDay ← daysFromCivil year month lastDayNum
  return lastDayNum - weekdaySundayZero lastDay

def hourOfDay (days hour : Int) : Int := days * dayMs + hour * millisPerHour

def usCanadaDst (baseOffset year timestamp : Int) : Option Bool := do
  let startDay ← nthSundayOfMonth year 3 2
  let startDays ← daysFromCivil year 3 startDay
  let startUtcMs := hourOfDay startDays 2 - baseOffset * millisPerSecond
  let endDay ← nthSundayOfMonth year 11 1
  let endDays ← daysFromCivil year 11 endDay
  let endUtcMs := hourOfDay endDays 2 - (baseOffset + secondsPerHour) * millisPerSecond
  return startUtcMs ≤ timestamp ∧ timestamp < endUtcMs

def euUkDst (year timestamp : Int) : Option Bool := do
  let startDay ← lastSundayOfMonth year 3
  let startDays ← daysFromCivil year 3 startDay
  let startUtcMs := hourOfDay startDays 1
  let endDay ← lastSundayOfMonth year 10
  let endDays ← daysFromCivil year 10 endDay
  let endUtcMs := hourOfDay endDays 1
  return startUtcMs ≤ timestamp ∧ timestamp < endUtcMs

def brazilDst (year timestamp : Int) : Option Bool :=
  if year ≥ 2019 then some false
  else do
    let startDay ← nthSundayOfMonth year 10 3
    let startDays ← daysFromCivil year 10 startDay
    let startUtcMs := hourOfDay startDays 3
    let endDay ← nthSundayOfMonth (year + 1) 2 3
    let endDays ← daysFromCivil (year + 1) 2 endDay
    let endUtcMs := hourOfDay endDays 2
    if startUtcMs ≤ timestamp ∧ timestamp < endUtcMs then return true
    else
      let prevEndDay ← nthSundayOfMonth year 2 3
      let prevEndDays ← daysFromCivil year 2 prevEndDay
      return timestamp < hourOfDay prevEndDays 2

/-- The end of daylight saving in the south: the first Sunday of April. -/
def aprilEndUtcMs (baseOffset year : Int) : Option Int := do
  let endDay ← nthSundayOfMonth year 4 1
  let endDays ← daysFromCivil year 4 endDay
  return hourOfDay endDays 3 - (baseOffset + secondsPerHour) * millisPerSecond

def auEastDst (baseOffset year timestamp : Int) : Option Bool := do
  let startDay ← nthSundayOfMonth year 10 1
  let startDays ← daysFromCivil year 10 startDay
  let startUtcMs := hourOfDay startDays 2 - baseOffset * millisPerSecond
  let endUtcMs ← aprilEndUtcMs baseOffset (year + 1)
  if startUtcMs ≤ timestamp ∧ timestamp < endUtcMs then return true
  else
    let prevEndUtcMs ← aprilEndUtcMs baseOffset year
    return timestamp < prevEndUtcMs

def nzDst (baseOffset year timestamp : Int) : Option Bool := do
  let startDay ← lastSundayOfMonth year 9
  let startDays ← daysFromCivil year 9 startDay
  let startUtcMs := hourOfDay startDays 2 - baseOffset * millisPerSecond
  let endUtcMs ← aprilEndUtcMs baseOffset (year + 1)
  if startUtcMs ≤ timestamp ∧ timestamp < endUtcMs then return true
  else
    let prevEndUtcMs ← aprilEndUtcMs baseOffset year
    return timestamp < prevEndUtcMs

/-- A date that a rule needs and that does not exist means no daylight saving. -/
def isDstActive (info : TimeZoneInfo) (timestamp : Int) : Bool :=
  match split timestamp with
  | none => false
  | some (days, _) =>
    let year := (civilFromDays days).year
    match info.rule with
    | .none => false
    | .usCanada => (usCanadaDst info.baseOffset year timestamp).getD false
    | .euUk => (euUkDst year timestamp).getD false
    | .brazil => (brazilDst year timestamp).getD false
    | .auEast => (auEastDst info.baseOffset year timestamp).getD false
    | .nz => (nzDst info.baseOffset year timestamp).getD false

/-- The seconds that a zone is ahead of UTC. -/
def TimeZoneInfo.offset (info : TimeZoneInfo) (timestamp : Int) : Int :=
  if isDstActive info timestamp then info.baseOffset + secondsPerHour else info.baseOffset

def timezoneOffset (name : String) (timestamp : Int) : Parse Int := do
  let info ← lookupTimezone name
  return info.offset timestamp

/-! ### Texts -/

def formatDate (days : Int) : List Char :=
  let date := civilFromDays days
  zeroPadded 4 date.year ++ '-' :: (zeroPadded 2 date.month ++ '-' :: zeroPadded 2 date.day)

def formatTime (millis : Int) : List Char :=
  zeroPadded 2 (millis / 3600000) ++ ':' :: (zeroPadded 2 (millis % 3600000 / 60000) ++ ':' ::
    (zeroPadded 2 (millis % 60000 / 1000) ++ '.' :: zeroPadded 3 (millis % 1000)))

/-- The offset behind the time. -/
def formatOffset (offsetSecs : Int) : List Char :=
  if offsetSecs = 0 then ['Z']
  else
    let sign := if offsetSecs < 0 then '-' else '+'
    let absSecs : Int := offsetSecs.natAbs
    sign :: (zeroPadded 2 (absSecs / secondsPerHour) ++ ':' ::
      zeroPadded 2 (absSecs % secondsPerHour / secondsPerMinute))

/-- RFC 3339 text of a timestamp in a zone. -/
def formatAtZone (timestamp : Int) (name : String) : Parse String := do
  let offsetSecs ← timezoneOffset name timestamp
  let localTimestamp := timestamp + offsetSecs * millisPerSecond
  guard (-2 ^ 63 ≤ localTimestamp ∧ localTimestamp < 2 ^ 63)
  let (days, millis) ← Parse.ofOption (split localTimestamp)
  return String.ofList (formatDate days ++ 'T' :: (formatTime millis ++ formatOffset offsetSecs))

/-! ### Local times -/

/-- Milliseconds since the Unix epoch of a day count and a time of day. -/
def totimestamp (days millis : Int) : Int := days * dayMs + if millis < 0 then 0 else millis

/-- The offset is guessed without daylight saving, and checked at the timestamp that it gives. -/
def timestampFromLocal (days millis : Int) (name : String) : Parse Int := do
  let info ← lookupTimezone name
  let localMs := totimestamp days millis
  let approxUtc := localMs - info.baseOffset * millisPerSecond
  let offset1 ← timezoneOffset name approxUtc
  let utc1 := localMs - offset1 * millisPerSecond
  let offset2 ← timezoneOffset name utc1
  let finalUtc := if offset2 = offset1 then utc1 else localMs - offset2 * millisPerSecond
  let (utcDays, _) ← Parse.ofOption (split finalUtc)
  guard (inRange utcDays)
  return finalUtc

end BasicNext.Text
