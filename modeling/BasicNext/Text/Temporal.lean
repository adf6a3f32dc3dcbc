import BasicNext.Lib.Except
import Mathlib.Algebra.Group.Nat.Defs
import Mathlib.Algebra.Group.Int.Defs
import Mathlib.Data.Option.Basic

/-!
# Timestamps

The parser of RFC 3339 timestamps (`bn_core_text::temporal`) on the bytes of a text, with the civil calendar
it uses. A text is sliced at byte positions: a position inside a character stops the program.
-/

namespace BasicNext.Text

open Lib

/-! ### Texts as bytes -/

def asBytes (text : String) : List UInt8 := text.toList.flatMap String.utf8EncodeChar

/-- A slice at a byte that is not the first one of a character. -/
inductive Panic where
  | charBoundary
deriving DecidableEq, Repr

/-- A parser that may find nothing, and may panic. -/
abbrev Parse := OptionT (Except Panic)

def Parse.ofOption {α : Type} (result : Option α) : Parse α := OptionT.mk (.ok result)

def startsChar (byte : UInt8) : Bool := byte < 0x80 || 0xC0 ≤ byte

def isCharBoundary (text : List UInt8) (index : Nat) : Bool :=
  match text[index]? with
  | some byte => index == 0 || startsChar byte
  | none => index == text.length

/-- `&text[start..stop]`. -/
def slice (text : List UInt8) (start stop : Nat) : Parse (List UInt8) :=
  if start ≤ stop ∧ isCharBoundary text start ∧ isCharBoundary text stop then
    pure ((text.take stop).drop start)
  else throwThe Panic .charBoundary

def byteOf (c : Char) : UInt8 := c.toUInt8

def isDigit (byte : UInt8) : Bool := byteOf '0' ≤ byte && byte ≤ byteOf '9'

def parseDigits (text : List UInt8) : Option Int :=
  if text ≠ [] ∧ text.all isDigit then
    let value : Nat := text.foldl (fun value digit => value * 10 + (digit.toNat - 48)) 0
    if value < 2 ^ 63 then some value else none
  else none

/-- `parse_digits(&text[start..stop])?`. -/
def digitsAt (text : List UInt8) (start stop : Nat) : Parse Int := do
  let digits ← slice text start stop
  .ofOption (parseDigits digits)

/-! ### The civil calendar -/

def dayMs : Int := 86400000

def minYear : Int := 1

def maxYear : Int := 9999

structure CivilDate where
  year : Int
  month : Int
  day : Int
deriving DecidableEq, Repr

/-- The date of a day count since 1970-01-01. -/
def civilFromDays (days : Int) : CivilDate :=
  let z := days + 719468
  let era := (if z ≥ 0 then z else z - 146096) / 146097
  let doe := z - era * 146097
  let yoe := (doe - doe / 1460 + doe / 36524 - doe / 146096) / 365
  let year := yoe + era * 400
  let doy := doe - (365 * yoe + yoe / 4 - yoe / 100)
  let monthPrime := (5 * doy + 2) / 153
  let day := doy - (153 * monthPrime + 2) / 5 + 1
  let month := if monthPrime < 10 then monthPrime + 3 else monthPrime - 9
  { year := year + if month ≤ 2 then 1 else 0, month, day }

def inRange (days : Int) : Bool :=
  let year := (civilFromDays days).year
  minYear ≤ year ∧ year ≤ maxYear

def daysInMonth (year month : Int) : Option Int :=
  if month ∈ [1, 3, 5, 7, 8, 10, 12] then some 31
  else if month ∈ [4, 6, 9, 11] then some 30
  else if month = 2 then
    if year % 4 = 0 ∧ (year % 100 ≠ 0 ∨ year % 400 = 0) then some 29 else some 28
  else none

def daysFromCivil (year month day : Int) : Option Int :=
  if year < minYear ∨ maxYear < year ∨ month < 1 ∨ 12 < month ∨ day = 0 then none
  else
    match daysInMonth year month with
    | none => none
    | some last =>
      if last < day then none
      else
        let y := if month ≤ 2 then year - 1 else year
        let era := (if y ≥ 0 then y else y - 399) / 400
        let yoe := y - era * 400
        let monthIndex := if month > 2 then month - 3 else month + 9
        let doy := (153 * monthIndex + 2) / 5 + day - 1
        let doe := yoe * 365 + yoe / 4 - yoe / 100 + doy
        some (era * 146097 + doe - 719468)

/-- `civil::split`: days since 1970-01-01 and milliseconds since midnight. -/
def split (timestamp : Int) : Option (Int × Int) :=
  let days := timestamp / dayMs
  let millis := timestamp % dayMs
  if inRange days then some (days, millis) else none

/-! ### RFC 3339 -/

def parseYmd (text : List UInt8) : Parse (Int × Int × Int) := do
  guard (text.length = 10 ∧ text[4]? = some (byteOf '-') ∧ text[7]? = some (byteOf '-'))
  let year ← digitsAt text 0 4
  let month ← digitsAt text 5 7
  let day ← digitsAt text 8 10
  return (year, month, day)

/-- The milliseconds behind the seconds: three digits count, and the digits behind them are zeros. -/
def parseMillis (text : List UInt8) (requireMillis : Bool) : Option Int :=
  if text.length = 8 ∧ requireMillis = false then some 0
  else if text[8]? = some (byteOf '.') then
    let fraction := text.drop 9
    if fraction = [] ∨ fraction.any (fun byte => !isDigit byte) ∨ (requireMillis = true ∧ fraction.length ≠ 3)
      ∨ (fraction.drop 3).any (fun byte => byte != byteOf '0') then none
    else
      let counted := fraction.take 3 ++ List.replicate (3 - fraction.length) (byteOf '0')
      let millis : Nat := counted.foldl (fun value byte => value * 10 + (byte.toNat - 48)) 0
      some millis
  else none

def parseHms (text : List UInt8) (requireMillis : Bool) : Parse Int := do
  guard (8 ≤ text.length ∧ text[2]? = some (byteOf ':') ∧ text[5]? = some (byteOf ':'))
  let hour ← digitsAt text 0 2
  let minute ← digitsAt text 3 5
  let second ← digitsAt text 6 8
  guard (hour ≤ 23 ∧ minute ≤ 59 ∧ second ≤ 59)
  let millis ← Parse.ofOption (parseMillis text requireMillis)
  return hour * 3600000 + minute * 60000 + second * 1000 + millis

/-- `text.rfind(['+', '-'])`. -/
def rfindSign (text : List UInt8) : Option Nat :=
  (text.reverse.findIdx? fun byte => byte == byteOf '+' || byte == byteOf '-').map fun back =>
    text.length - 1 - back

def splitOffset (text : List UInt8) : Parse (List UInt8 × Int) :=
  if text.getLast? = some (byteOf 'Z') then pure (text.dropLast, 0)
  else do
    let signIndex ← Parse.ofOption (rfindSign text)
    guard (8 ≤ signIndex)
    let time ← slice text 0 signIndex
    let offset ← slice text signIndex text.length
    let sign : Int := if offset.head? = some (byteOf '+') then 1 else -1
    let offset ← slice offset 1 offset.length
    guard (offset.length = 5 ∧ offset[2]? = some (byteOf ':'))
    let hours ← digitsAt offset 0 2
    let minutes ← digitsAt offset 3 5
    guard (hours ≤ 23 ∧ minutes ≤ 59)
    return (time, sign * (hours * 3600000 + minutes * 60000))

/-- Milliseconds since the Unix epoch. -/
def parseRfc3339 (text : List UInt8) : Parse Int := do
  let separator ← Parse.ofOption (text.findIdx? fun byte => byte == byteOf 'T')
  let date ← slice text 0 separator
  let rest ← slice text separator text.length
  let rest ← Parse.ofOption (if isCharBoundary rest 1 then some (rest.drop 1) else none)
  let (time, offset) ← splitOffset rest
  let (year, month, day) ← parseYmd date
  let days ← Parse.ofOption (daysFromCivil year month day)
  let millis ← parseHms time false
  let utc := days * dayMs + millis - offset
  guard (-2 ^ 63 ≤ utc ∧ utc < 2 ^ 63)
  guard (inRange (utc / dayMs))
  return utc

end BasicNext.Text
