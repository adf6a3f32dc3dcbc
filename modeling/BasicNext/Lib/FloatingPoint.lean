import Mathlib.Algebra.Order.Field.Power
import Mathlib.Data.Int.Log
import Mathlib.Data.List.TakeWhile
import Mathlib.Data.Rat.Floor

/-!
# Floating-point numbers

Numbers are rationals, two infinities and NaN; zeros have no sign. A format keeps the rationals with a
bounded number of binary digits above a least place. An operation computes the exact result and rounds it to
the nearest number of the format, to the even one of two.
-/

namespace BasicNext.Lib

inductive Number where
  | finite (value : ℚ)
  | infinity (negative : Bool)
  | nan
deriving DecidableEq, Repr

namespace Number

/-! ### Exact operations -/

def isFinite : Number → Bool
  | finite _ => true
  | _ => false

def neg : Number → Number
  | finite value => finite (-value)
  | infinity negative => infinity !negative
  | nan => nan

def add : Number → Number → Number
  | finite x, finite y => finite (x + y)
  | infinity x, infinity y => if x = y then infinity x else nan
  | infinity x, finite _ => infinity x
  | finite _, infinity y => infinity y
  | _, _ => nan

def sub (x y : Number) : Number := add x (neg y)

/-- Zero times an infinity is no number. -/
def mul : Number → Number → Number
  | finite x, finite y => finite (x * y)
  | infinity x, infinity y => infinity (x ^^ y)
  | infinity x, finite y | finite y, infinity x => if y = 0 then nan else infinity (x ^^ decide (y < 0))
  | _, _ => nan

/-- A number divided by zero is an infinity, zero divided by zero is no number. -/
def div : Number → Number → Number
  | finite x, finite y =>
    if y = 0 then if x = 0 then nan else infinity (decide (x < 0)) else finite (x / y)
  | infinity x, finite y => infinity (x ^^ decide (y < 0))
  | finite _, infinity _ => finite 0
  | _, _ => nan

/-- Nothing is less than NaN, and NaN is less than nothing. -/
def less : Number → Number → Bool
  | finite x, finite y => x < y
  | infinity x, infinity y => x && !y
  | infinity x, finite _ => x
  | finite _, infinity y => !y
  | _, _ => false

/-- NaN does not equal itself. -/
def equal : Number → Number → Bool
  | nan, _ | _, nan => false
  | x, y => x = y

def lessEqual (x y : Number) : Bool := less x y || equal x y

/-- Toward zero. -/
def truncate (value : ℚ) : Int := if 0 ≤ value then ⌊value⌋ else ⌈value⌉

/-- An integer between two ends: toward zero, an end for what is beyond it, and zero for no number. -/
def saturate (low high : Int) : Number → Int
  | finite value => max low (min (truncate value) high)
  | infinity negative => if negative then low else high
  | nan => 0

end Number

/-! ### Formats -/

structure Format where
  precision : Nat
  /-- The exponent of the least place. -/
  least : Int
  largest : ℚ
  positive : 0 < precision

namespace Format

def binary32 : Format := ⟨24, -149, (2 ^ 24 - 1) * 2 ^ 104, by decide⟩

def binary64 : Format := ⟨53, -1074, (2 ^ 53 - 1) * 2 ^ 971, by decide⟩

/-- The nearest integer, the even one of two. -/
def roundEven (x : ℚ) : Int :=
  let low := ⌊x⌋
  if x - low < 1 / 2 then low else if 1 / 2 < x - low then low + 1 else low + low % 2

/-- The place to which a rational is rounded. -/
def place (format : Format) (x : ℚ) : Int := max (Int.log 2 |x| - (format.precision - 1)) format.least

/-- The nearest rational with the digits of the format. -/
def nearest (format : Format) (x : ℚ) : ℚ := roundEven (x / 2 ^ format.place x) * 2 ^ format.place x

def round (format : Format) : Number → Number
  | .finite value =>
    if format.largest < |format.nearest value| then .infinity (decide (format.nearest value < 0))
    else .finite (format.nearest value)
  | other => other

variable {format : Format} {x y : ℚ} {n : Int}

theorem roundEven_intCast (n : Int) : roundEven n = n := by
  rw [roundEven, Int.floor_intCast, sub_self, if_pos (by norm_num)]

theorem roundEven_bounds (x : ℚ) : ⌊x⌋ ≤ roundEven x ∧ roundEven x ≤ ⌊x⌋ + 1 := by
  have low := Int.emod_nonneg ⌊x⌋ (show (2 : Int) ≠ 0 by decide)
  have high := Int.emod_lt_of_pos ⌊x⌋ (show (0 : Int) < 2 by decide)
  rw [roundEven]
  split_ifs <;> omega

theorem roundEven_abs_le (bound : |x| < n) : |roundEven x| ≤ n := by
  have bounds := roundEven_bounds x
  have low : -n ≤ ⌊x⌋ := by
    rw [Int.le_floor]
    push_cast
    exact (abs_lt.1 bound).1.le
  have high : ⌊x⌋ < n := Int.floor_lt.2 (abs_lt.1 bound).2
  rw [abs_le]
  omega

theorem nearest_of_multiple (multiple : x = n * 2 ^ format.place x) : format.nearest x = x := by
  have power : (2 : ℚ) ^ format.place x ≠ 0 := zpow_ne_zero _ two_ne_zero
  have quotient : x / 2 ^ format.place x = n := by
    rw [div_eq_iff power]
    exact multiple
  rw [nearest, quotient, roundEven_intCast]
  exact multiple.symm

theorem multiple_below {low high : Int} (below : low ≤ high) (n : Int) : ∃ m : Int, (n : ℚ) * 2 ^ high = m * 2 ^ low := by
  obtain ⟨count, difference⟩ := Int.eq_ofNat_of_zero_le (Int.sub_nonneg.2 below)
  refine ⟨n * 2 ^ count, ?_⟩
  have sum : high = count + low := by omega
  rw [sum, zpow_add₀ two_ne_zero, zpow_natCast]
  push_cast
  ring

theorem nearest_of_less {place : Int} (digits : |n| < 2 ^ format.precision) (above : format.least ≤ place)
    (value : x = n * 2 ^ place) : format.nearest x = x := by
  by_cases zero : x = 0
  · exact @nearest_of_multiple format x 0 (by rw [Int.cast_zero, zero_mul, zero])
  · have power : (0 : ℚ) < 2 ^ place := zpow_pos two_pos _
    have less : |x| < ((2 : Nat) : ℚ) ^ (format.precision + place) := by
      rw [value, abs_mul, abs_of_pos power, Nat.cast_ofNat, zpow_add₀ two_ne_zero, zpow_natCast]
      exact mul_lt_mul_of_pos_right (by exact_mod_cast digits) power
    have exponent := (Int.lt_zpow_iff_log_lt (by decide) (abs_pos.2 zero)).1 less
    have below : format.place x ≤ place := by
      rw [Format.place]
      omega
    obtain ⟨m, multiple⟩ := multiple_below below n
    exact nearest_of_multiple (value.trans multiple)

theorem nearest_of_digits {place : Int} (digits : |n| ≤ 2 ^ format.precision) (above : format.least ≤ place)
    (value : x = n * 2 ^ place) : format.nearest x = x := by
  rcases lt_or_eq_of_le digits with less | equal
  · exact nearest_of_less less above value
  · -- A power of two has one digit at a higher place.
    obtain ⟨count, precision⟩ := Nat.exists_eq_add_of_le' format.positive
    have half : (0 : Int) < 2 ^ count := by positivity
    have twice : (2 : Int) ^ (count + 1) = 2 * 2 ^ count := by ring
    rw [precision, twice] at equal
    obtain ⟨m, rfl⟩ : ∃ m, n = 2 * m := by
      rcases abs_eq (by omega : 0 ≤ 2 * (2 : Int) ^ count) |>.1 equal with same | same
      · exact ⟨2 ^ count, same⟩
      · exact ⟨-2 ^ count, by omega⟩
    have digits : |m| < 2 ^ format.precision := by
      rw [abs_mul, abs_two] at equal
      rw [precision, twice]
      omega
    refine nearest_of_less digits (above.trans (Int.le_add_one le_rfl)) ?_
    rw [value, zpow_add_one₀ two_ne_zero]
    push_cast
    ring

theorem roundEven_digits (format : Format) (x : ℚ) : |roundEven (x / 2 ^ format.place x)| ≤ 2 ^ format.precision := by
  have power : (0 : ℚ) < 2 ^ format.place x := zpow_pos two_pos _
  have bound : |x / 2 ^ format.place x| < ((2 ^ format.precision : Int) : ℚ) := by
    have exponent : Int.log 2 |x| + 1 ≤ format.precision + format.place x := by
      rw [Format.place]
      omega
    have less := Int.lt_zpow_succ_log_self (b := 2) (by decide) |x|
    rw [abs_div, abs_of_pos power, div_lt_iff₀ power]
    push_cast
    rw [← zpow_natCast, ← zpow_add₀ two_ne_zero]
    exact less.trans_le (zpow_le_zpow_right₀ one_le_two exponent)
  exact roundEven_abs_le bound

theorem nearest_nearest (format : Format) (x : ℚ) : format.nearest (format.nearest x) = format.nearest x :=
  nearest_of_digits (roundEven_digits format x) (le_max_right _ _) rfl

theorem round_round (format : Format) (x : Number) : format.round (format.round x) = format.round x := by
  cases x with
  | finite value =>
    rw [round]
    split
    next => rfl
    next small => rw [round, nearest_nearest, if_neg small]
  | infinity => rfl
  | nan => rfl

/-! ### Representable numbers -/

/-- The numbers of a format: few enough digits above its least place. -/
def Representable (format : Format) (x : ℚ) : Prop :=
  |x| ≤ format.largest ∧ ∃ n place : Int, |n| < 2 ^ format.precision ∧ format.least ≤ place ∧ x = n * 2 ^ place

theorem representable_iff : format.Representable x ↔ |x| ≤ format.largest ∧ format.nearest x = x := by
  constructor
  · rintro ⟨small, n, place, digits, above, value⟩
    exact ⟨small, nearest_of_less digits above value⟩
  · rintro ⟨small, same⟩
    refine ⟨small, ?_⟩
    have above : format.least ≤ format.place x := le_max_right _ _
    rcases lt_or_eq_of_le (roundEven_digits format x) with less | equal
    · exact ⟨_, _, less, above, same.symm⟩
    · -- A power of two is one digit at a higher place.
      rw [nearest] at same
      have one : (1 : Int) < 2 ^ format.precision := one_lt_pow₀ (by decide) format.positive.ne'
      rcases (abs_eq (by positivity)).1 equal with up | down
      · refine ⟨1, format.precision + format.place x, by simpa using one, by omega, ?_⟩
        rw [up] at same
        rw [zpow_add₀ two_ne_zero, zpow_natCast]
        push_cast at same ⊢
        rw [one_mul]
        exact same.symm
      · refine ⟨-1, format.precision + format.place x, by simpa using one, by omega, ?_⟩
        rw [down] at same
        rw [zpow_add₀ two_ne_zero, zpow_natCast]
        push_cast at same ⊢
        linarith only [same]

theorem abs_nearest_le {k : Nat} (above : format.least ≤ k) (bound : |x| < 2 ^ k) : |format.nearest x| ≤ 2 ^ k := by
  have power : (0 : ℚ) < 2 ^ format.place x := zpow_pos two_pos _
  have exponent : Int.log 2 |x| ≤ k := by
    by_cases zero : x = 0
    · rw [zero, abs_zero, Int.log_zero_right]
      omega
    · apply Int.le_of_lt
      apply (Int.lt_zpow_iff_log_lt (b := 2) (by decide) (abs_pos.2 zero)).1
      rw [zpow_natCast]
      exact_mod_cast bound
  have below : format.place x ≤ k := by
    have some_ := format.positive
    rw [Format.place]
    omega
  obtain ⟨count, difference⟩ := Int.eq_ofNat_of_zero_le (Int.sub_nonneg.2 below)
  have split : (2 : ℚ) ^ k = 2 ^ count * 2 ^ format.place x := by
    have sum : (k : Int) = count + format.place x := by omega
    rw [← zpow_natCast, sum, zpow_add₀ two_ne_zero, zpow_natCast]
  have quotient : |x / 2 ^ format.place x| < ((2 ^ count : Int) : ℚ) := by
    rw [abs_div, abs_of_pos power, div_lt_iff₀ power]
    push_cast
    rw [← split]
    exact bound
  have digits : |(roundEven (x / 2 ^ format.place x) : ℚ)| ≤ 2 ^ count := by exact_mod_cast roundEven_abs_le quotient
  rw [nearest, abs_mul, abs_of_pos power, split]
  exact mul_le_mul_of_nonneg_right digits power.le

theorem nearest_intCast (format : Format) (n : Int) : ∃ m : Int, format.nearest n = m := by
  rcases Int.le_total 0 (format.place n) with above | below
  · obtain ⟨m, same⟩ := multiple_below above (roundEven ((n : ℚ) / 2 ^ format.place n))
    rw [zpow_zero, mul_one] at same
    exact ⟨m, same⟩
  · obtain ⟨m, same⟩ := multiple_below below n
    rw [zpow_zero, mul_one] at same
    exact ⟨n, nearest_of_multiple same⟩

theorem roundEven_sub {n : Int} {x : ℚ} (positive : 0 < x) (small : x < 1 / 2) : roundEven (n - x) = n := by
  have floor : ⌊(n : ℚ) - x⌋ = n - 1 := by
    apply Int.floor_eq_iff.2
    push_cast
    constructor <;> linarith
  rw [roundEven, floor]
  push_cast
  rw [if_neg (by linarith), if_pos (by linarith)]
  omega

theorem nearest_pred_two_pow {k : Nat} (wide : format.precision + 2 ≤ k) (above : format.least ≤ 0) :
    format.nearest (2 ^ k - 1) = 2 ^ k := by
  obtain ⟨count, rfl⟩ := Nat.exists_eq_add_of_le wide
  have precise := format.positive
  have large : (1 : ℚ) ≤ 2 ^ (format.precision + 1 + count) := one_le_pow₀ one_le_two
  have double : (2 : ℚ) ^ (format.precision + 2 + count) = 2 * 2 ^ (format.precision + 1 + count) := by ring
  have positive : (0 : ℚ) < 2 ^ (format.precision + 2 + count) - 1 := by linarith
  have log : Int.log 2 |(2 : ℚ) ^ (format.precision + 2 + count) - 1| = (format.precision + 1 + count : Nat) := by
    rw [abs_of_pos positive]
    apply le_antisymm
    · apply Int.lt_add_one_iff.1
      apply (Int.lt_zpow_iff_log_lt (b := 2) (by decide) positive).1
      have exponent : ((format.precision + 1 + count : Nat) : Int) + 1 = (format.precision + 2 + count : Nat) := by omega
      rw [exponent, zpow_natCast, Nat.cast_ofNat]
      linarith
    · apply (Int.zpow_le_iff_le_log (b := 2) (by decide) positive).1
      rw [zpow_natCast, Nat.cast_ofNat]
      linarith
  have place : format.place (2 ^ (format.precision + 2 + count) - 1) = (count + 2 : Nat) := by
    rw [Format.place, log]
    omega
  have power : (4 : ℚ) ≤ 2 ^ (count + 2) := by
    have one : (1 : ℚ) ≤ 2 ^ count := one_le_pow₀ one_le_two
    rw [pow_add]
    linarith
  have quotient : ((2 : ℚ) ^ (format.precision + 2 + count) - 1) / 2 ^ (count + 2) =
      ((2 ^ format.precision : Int) : ℚ) - 1 / 2 ^ (count + 2) := by
    have split : (2 : ℚ) ^ (format.precision + 2 + count) = 2 ^ format.precision * 2 ^ (count + 2) := by ring
    have nonzero : (2 : ℚ) ^ (count + 2) ≠ 0 := by positivity
    push_cast
    rw [split, sub_div, mul_div_assoc, div_self nonzero, mul_one]
  have rounded : roundEven (((2 : ℚ) ^ (format.precision + 2 + count) - 1) / 2 ^ (count + 2)) = 2 ^ format.precision := by
    rw [quotient]
    apply roundEven_sub
    · positivity
    · rw [div_lt_div_iff₀ (by positivity) (by norm_num)]
      linarith
  rw [nearest, place, zpow_natCast, rounded]
  push_cast
  ring

end Format

/-! ### Decimal texts -/

namespace Number

def digitsValue (digits : List Char) : Nat := digits.foldl (fun value digit => value * 10 + (digit.toNat - '0'.toNat)) 0

/-- One digit or more. -/
def ofDigits (digits : List Char) : Option Nat :=
  if digits ≠ [] ∧ digits.all Char.isDigit then some (digitsValue digits) else none

/-- A number of digits with or without a sign. -/
def ofSignedDigits : List Char → Option Int
  | '-' :: digits => (ofDigits digits).map fun value => -value
  | '+' :: digits => (ofDigits digits).map Int.ofNat
  | digits => (ofDigits digits).map Int.ofNat

def ofDecimal (text : List Char) : Option ℚ := do
  let (mantissa, exponent) := text.span fun character => character != 'e'
  let (whole, fraction) := mantissa.span fun character => character != '.'
  let fraction := fraction.drop 1
  let digits ← ofDigits (whole ++ fraction)
  let exponent ← if exponent = [] then some 0 else ofSignedDigits (exponent.drop 1)
  some (digits * 10 ^ (exponent - fraction.length))

/-- A number without a sign, in lower case. -/
def ofUnsigned (text : List Char) : Option Number :=
  if text = "inf".toList ∨ text = "infinity".toList then some (infinity false)
  else if text = "nan".toList then some nan
  else (ofDecimal text).map finite

/-- The exact number that a text writes; upper and lower case are the same. -/
def ofText (text : String) : Option Number :=
  match text.toList.map Char.toLower with
  | '-' :: rest => (ofUnsigned rest).map neg
  | '+' :: rest => ofUnsigned rest
  | rest => ofUnsigned rest

theorem ofDigits_of_isDigit {digits : List Char} (some_ : digits ≠ []) (all : ∀ digit ∈ digits, digit.isDigit = true) :
    ofDigits digits = some (Nat.ofDigitChars 10 digits 0) := by
  unfold ofDigits
  rw [if_pos ⟨some_, List.all_eq_true.2 all⟩]
  unfold digitsValue Nat.ofDigitChars
  congr 1
  apply List.foldl_ext
  intro value digit _
  rw [Nat.mul_comm]

theorem ofUnsigned_digits {digits : List Char} (all : ∀ digit ∈ digits, digit.isDigit = true) :
    ofUnsigned (digits ++ ['.', '0']) = some (finite (Nat.ofDigitChars 10 digits 0 : Nat)) := by
  have point (text : List Char) (absent : '.' ∉ text) : digits ++ ['.', '0'] ≠ text := by
    rintro rfl
    exact absent (by simp)
  have noExponent : ∀ character ∈ digits ++ ['.', '0'], (character != 'e') = true := by
    intro character member
    rcases List.mem_append.1 member with digit | rest
    · rw [bne_iff_ne]
      rintro rfl
      exact absurd (all 'e' digit) (by decide)
    · rcases List.mem_pair.1 rest with rfl | rfl <;> rfl
  have noPoint : ∀ character ∈ digits, (character != '.') = true := by
    intro character member
    rw [bne_iff_ne]
    rintro rfl
    exact absurd (all '.' member) (by decide)
  have mantissa : (digits ++ ['.', '0']).span (fun character => character != 'e') = (digits ++ ['.', '0'], []) := by
    rw [List.span_eq_takeWhile_dropWhile, List.takeWhile_eq_self_iff.2 noExponent, List.dropWhile_eq_nil_iff.2 noExponent]
  have whole : (digits ++ ['.', '0']).span (fun character => character != '.') = (digits, ['.', '0']) := by
    rw [List.span_eq_takeWhile_dropWhile, List.takeWhile_append_of_pos noPoint, List.dropWhile_append_of_pos noPoint]
    simp
  have value : ofDigits (digits ++ ['0']) = some (10 * Nat.ofDigitChars 10 digits 0) := by
    rw [ofDigits_of_isDigit (by simp), Nat.ofDigitChars_append]
    · rfl
    · intro digit member
      rcases List.mem_append.1 member with inside | last
      · exact all digit inside
      · rw [List.mem_singleton.1 last]
        rfl
  have exact_ : ofDecimal (digits ++ ['.', '0']) = some ((Nat.ofDigitChars 10 digits 0 : Nat) : ℚ) := by
    unfold ofDecimal
    rw [mantissa]
    dsimp only
    rw [whole]
    simp only [List.drop_succ_cons, List.drop_zero, value, Option.bind_eq_bind, Option.bind_some, if_true, List.length_singleton]
    rw [Nat.cast_mul, Nat.cast_one, zero_sub, zpow_neg_one]
    simp only [Nat.cast_ofNat]
    rw [mul_comm (10 : ℚ), mul_assoc, mul_inv_cancel₀ (by norm_num), mul_one]
  unfold ofUnsigned
  rw [if_neg, if_neg (point _ (by decide)), exact_]
  · rfl
  · rintro (same | same)
    · exact point _ (by decide) same
    · exact point _ (by decide) same

end Number

/-- `str::parse` to a number of 64 bits. -/
def parseDouble (text : String) : Option Number := (Number.ofText text).map Format.binary64.round

end BasicNext.Lib
