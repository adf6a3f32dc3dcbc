import Mathlib.Algebra.Order.Ring.Int

/-!
# Words of integers

A word holds the integers that its bits stand for, read with or without a sign. Machines often compute
with a wider word: the integer is extended to it, by its sign or by zeros, and the bit operations commute
with that extension.
-/

namespace BasicNext.Lib

structure Word where
  signed : Bool
  width : Nat
  positive : 0 < width

namespace Word

variable (word : Word)

def minimum : Int := if word.signed then -2 ^ (word.width - 1) else 0

def maximum : Int := if word.signed then 2 ^ (word.width - 1) - 1 else 2 ^ word.width - 1

def InRange (n : Int) : Prop := word.minimum ≤ n ∧ n ≤ word.maximum

instance (n : Int) : Decidable (word.InRange n) := inferInstanceAs (Decidable (_ ∧ _))

/-- The bits of an integer, modulo the word. -/
def bits (n : Int) : BitVec word.width := BitVec.ofInt word.width n

/-- The integer that bits stand for. -/
def value (pattern : BitVec word.width) : Int :=
  if word.signed then pattern.toInt else pattern.toNat

/-- The bits in a wider word, by the sign or by zeros. -/
def extend (wide : Nat) (pattern : BitVec word.width) : BitVec wide :=
  if word.signed then pattern.signExtend wide else pattern.setWidth wide

/-- Shifts to the right what was shifted to the left, by the sign or by zeros. -/
def back (pattern : BitVec word.width) (count : Nat) : BitVec word.width :=
  if word.signed then pattern.sshiftRight count else pattern >>> count

variable {word}

theorem inRange_value (pattern : BitVec word.width) : word.InRange (word.value pattern) := by
  rw [InRange, minimum, maximum, value]
  cases word.signed with
  | true =>
    have low := BitVec.le_toInt pattern
    have high := BitVec.toInt_lt (x := pattern)
    exact ⟨low, by rw [if_pos rfl, if_pos rfl]; omega⟩
  | false =>
    have high := pattern.isLt
    have cast : ((2 ^ word.width : Nat) : Int) = 2 ^ word.width := by norm_cast
    exact ⟨Int.natCast_nonneg _, by rw [if_neg nofun, if_neg nofun]; omega⟩

theorem value_bits {n : Int} (inRange : word.InRange n) : word.value (word.bits n) = n := by
  rw [InRange, minimum, maximum] at inRange
  rw [value, bits]
  cases sign : word.signed with
  | true =>
    rw [sign, if_pos rfl, if_pos rfl] at inRange
    rw [if_pos rfl]
    exact BitVec.toInt_ofInt_eq_self word.positive inRange.1 (by omega)
  | false =>
    rw [sign, if_neg nofun, if_neg nofun] at inRange
    have cast : ((2 ^ word.width : Nat) : Int) = 2 ^ word.width := by norm_cast
    rw [if_neg nofun, BitVec.toNat_ofInt, Int.emod_eq_of_lt inRange.1 (by omega)]
    exact Int.toNat_of_nonneg inRange.1

theorem bits_value (pattern : BitVec word.width) : word.bits (word.value pattern) = pattern := by
  rw [value, bits]
  split
  · exact BitVec.ofInt_toInt
  · rw [BitVec.ofInt_natCast, BitVec.ofNat_toNat, BitVec.setWidth_eq]

theorem bits_injective {n m : Int} (first : word.InRange n) (second : word.InRange m)
    (same : word.bits n = word.bits m) : n = m := by
  rw [← value_bits first, same, value_bits second]

theorem bits_eq_of_dvd {n m : Int} (multiple : (2 ^ word.width : Int) ∣ n - m) : word.bits n = word.bits m := by
  apply BitVec.eq_of_toNat_eq
  rw [bits, bits, BitVec.toNat_ofInt, BitVec.toNat_ofInt]
  apply congrArg Int.toNat
  apply Int.emod_eq_emod_iff_emod_sub_eq_zero.2
  apply Int.emod_eq_zero_of_dvd
  exact_mod_cast multiple

/-! ### Wider words -/

variable {wide : Nat}

theorem toInt_extend (wider : word.width < wide) (pattern : BitVec word.width) :
    (word.extend wide pattern).toInt = word.value pattern := by
  rw [extend, value]
  split
  · exact BitVec.toInt_signExtend_of_le (by omega)
  · have less := pattern.isLt
    have double : 2 ^ word.width * 2 ≤ 2 ^ wide := by
      rw [← pow_succ]
      exact Nat.pow_le_pow_right (by omega) wider
    rw [BitVec.toInt_setWidth]
    generalize 2 ^ wide = bound at double
    exact Int.bmod_eq_of_le_mul_two (by omega) (by omega)

theorem extend_bits {n : Int} (inRange : word.InRange n) (wider : word.width < wide) :
    word.extend wide (word.bits n) = BitVec.ofInt wide n := by
  have same := toInt_extend wider (word.bits n)
  rw [value_bits inRange] at same
  have back : BitVec.ofInt wide (word.extend wide (word.bits n)).toInt = word.extend wide (word.bits n) :=
    BitVec.ofInt_toInt
  rw [← back, same]

theorem extend_and (first second : BitVec word.width) :
    word.extend wide (first &&& second) = word.extend wide first &&& word.extend wide second := by
  rw [extend, extend, extend]
  split
  · exact BitVec.signExtend_and
  · exact BitVec.setWidth_and

theorem extend_or (first second : BitVec word.width) :
    word.extend wide (first ||| second) = word.extend wide first ||| word.extend wide second := by
  rw [extend, extend, extend]
  split
  · exact BitVec.signExtend_or
  · exact BitVec.setWidth_or

theorem extend_xor (first second : BitVec word.width) :
    word.extend wide (first ^^^ second) = word.extend wide first ^^^ word.extend wide second := by
  rw [extend, extend, extend]
  split
  · exact BitVec.signExtend_xor
  · exact BitVec.setWidth_xor

theorem toInt_wide (operation : ∀ {width : Nat}, BitVec width → BitVec width → BitVec width)
    (commutes : ∀ first second : BitVec word.width, word.extend wide (operation first second) =
        operation (word.extend wide first) (word.extend wide second))
    {n m : Int} (first : word.InRange n) (second : word.InRange m) (wider : word.width < wide) :
    (operation (BitVec.ofInt wide n) (BitVec.ofInt wide m)).toInt = word.value (operation (word.bits n) (word.bits m)) := by
  rw [← extend_bits first wider, ← extend_bits second wider, ← commutes, toInt_extend wider]

theorem value_not {n : Int} (inRange : word.InRange n) (signed : word.signed = true) :
    word.value (~~~word.bits n) = -n - 1 := by
  have complement : ~~~word.bits n = word.bits (-n - 1) := by
    rw [bits, bits, Int.sub_eq_add_neg, BitVec.ofInt_add, BitVec.ofInt_neg, BitVec.ofInt_neg,
      BitVec.not_eq_neg_add, BitVec.sub_eq_add_neg]
    rfl
  have other : word.InRange (-n - 1) := by
    rw [InRange, minimum, maximum, if_pos signed, if_pos signed] at *
    omega
  rw [complement, value_bits other]

/-! ### Shifts -/

theorem toInt_shiftRight (n : Int) (count : Nat) (wider : word.width < wide) :
    ((BitVec.ofInt wide n &&& BitVec.ofNat wide (2 ^ word.width - 1)) >>> count).toInt = (word.bits n >>> count).toNat := by
  have larger : 2 ^ word.width * 2 ≤ 2 ^ wide := by
    rw [← pow_succ]
    exact Nat.pow_le_pow_right (by omega) wider
  have low : BitVec.ofInt wide n &&& BitVec.ofNat wide (2 ^ word.width - 1) = (word.bits n).setWidth wide := by
    apply BitVec.eq_of_toNat_eq
    have less := (word.bits n).isLt
    have some : 0 < 2 ^ word.width := Nat.two_pow_pos _
    have rest : (BitVec.ofInt wide n).toNat % 2 ^ word.width = (word.bits n).toNat := by
      rw [bits, BitVec.toNat_ofInt, BitVec.toNat_ofInt]
      apply Int.ofNat_inj.1
      have power : ((2 ^ word.width : Nat) : Int) ∣ (2 ^ wide : Nat) := Int.natCast_dvd_natCast.2 (pow_dvd_pow 2 (by omega))
      rw [Int.natCast_emod, Int.toNat_of_nonneg (Int.emod_nonneg _ (by omega)),
        Int.toNat_of_nonneg (Int.emod_nonneg _ (by omega)), Int.emod_emod_of_dvd n power]
    rw [BitVec.toNat_and, BitVec.toNat_ofNat, BitVec.toNat_setWidth,
      Nat.mod_eq_of_lt (show 2 ^ word.width - 1 < 2 ^ wide by omega), Nat.and_two_pow_sub_one_eq_mod,
      rest, Nat.mod_eq_of_lt (show (word.bits n).toNat < 2 ^ wide by omega)]
  have shifted : (word.bits n >>> count).toNat ≤ (word.bits n).toNat := by
    rw [BitVec.toNat_ushiftRight, Nat.shiftRight_eq_div_pow]
    exact Nat.div_le_self _ _
  have less := (word.bits n).isLt
  have same : ((word.bits n).setWidth wide >>> count).toNat = (word.bits n >>> count).toNat := by
    rw [BitVec.toNat_ushiftRight, BitVec.toNat_ushiftRight, BitVec.toNat_setWidth, Nat.mod_eq_of_lt (by omega)]
  rw [low, BitVec.toInt_eq_toNat_of_lt (by omega), same]

theorem toNat_shiftRight (n : Int) (count : Nat) :
    ((word.bits n >>> count).toNat : Int) = n % 2 ^ word.width / 2 ^ count := by
  have positive : (0 : Int) < (2 ^ word.width : Nat) := by exact_mod_cast Nat.two_pow_pos word.width
  rw [bits, BitVec.toNat_ushiftRight, BitVec.toNat_ofInt, Nat.shiftRight_eq_div_pow, Int.natCast_ediv,
    Int.toNat_of_nonneg (Int.emod_nonneg n (by omega))]
  norm_cast

theorem shiftRight_eq_iff {n : Int} {count width : Nat} (few : count < width) :
    n >>> count = n % 2 ^ width / 2 ^ count ↔ 0 ≤ n ∧ n < 2 ^ width := by
  have step : (2 : Int) ^ width = 2 ^ count * 2 ^ (width - count) := by
    rw [← pow_add]
    congr 1
    omega
  have positive : (0 : Int) < 2 ^ count := Int.pow_pos (by decide)
  have rest : (0 : Int) < 2 ^ (width - count) := Int.pow_pos (by decide)
  have whole : (0 : Int) < 2 ^ width := Int.pow_pos (by decide)
  have apart : n >>> count = n % 2 ^ width / 2 ^ count + 2 ^ (width - count) * (n / 2 ^ width) := by
    have split_ : n = n % 2 ^ width + 2 ^ count * (2 ^ (width - count) * (n / 2 ^ width)) := by
      rw [← mul_assoc, ← step]
      exact (Int.emod_add_mul_ediv n (2 ^ width)).symm
    have powers : n >>> count = n / 2 ^ count := by
      rw [Int.shiftRight_eq_div_pow]
      norm_cast
    rw [powers, ← Int.add_mul_ediv_left _ _ (by omega), ← split_]
  constructor
  · intro same
    have none_ : 2 ^ (width - count) * (n / 2 ^ width) = 0 := by omega
    have quotient : n / 2 ^ width = 0 := (mul_eq_zero.1 none_).resolve_left (by omega)
    have bounds := (Int.ediv_eq_iff_of_pos whole).1 quotient
    omega
  · intro inside
    rw [apart, Int.ediv_eq_zero_of_lt inside.1 inside.2, mul_zero, add_zero]

theorem bits_shiftLeft (n : Int) (count : Nat) :
    word.bits (n * 2 ^ count) = word.bits n <<< count := by
  have power : BitVec.ofInt word.width (2 ^ count) = BitVec.twoPow word.width count := by
    apply BitVec.eq_of_toNat_eq
    rw [BitVec.toNat_twoPow]
    norm_cast
  rw [bits, bits, BitVec.ofInt_mul, BitVec.shiftLeft_eq_mul_twoPow, power]

theorem value_shiftRight {n : Int} {count : Nat} (inRange : word.InRange n) (clear : 0 < count ∨ 0 ≤ n) :
    word.value (word.bits n >>> count) = (word.bits n >>> count).toNat := by
  have same := value_bits inRange
  rw [value] at same ⊢
  split
  next signed =>
    rw [if_pos signed] at same
    rcases clear with some | natural
    · exact BitVec.toInt_ushiftRight_of_lt some
    · have positive : (word.bits n).msb = false := by
        rw [← Bool.not_eq_true, BitVec.msb_eq_toInt, decide_eq_true_iff, same]
        omega
      apply BitVec.toInt_eq_toNat_of_msb
      rw [BitVec.msb_ushiftRight, positive, Bool.and_false]
  next => rfl

theorem value_back (pattern : BitVec word.width) (count : Nat) :
    word.value (word.back pattern count) = word.value pattern / 2 ^ count := by
  rw [value, value, back]
  split
  · rw [BitVec.toInt_sshiftRight, Int.shiftRight_eq_div_pow]
    norm_cast
  · rw [BitVec.toNat_ushiftRight, Nat.shiftRight_eq_div_pow]
    norm_cast

theorem dvd_sub_value (n : Int) : (2 ^ word.width : Int) ∣ n - word.value (word.bits n) := by
  rw [value, bits]
  split
  · rw [BitVec.toInt_ofInt]
    exact_mod_cast Int.dvd_self_sub_bmod
  · rw [BitVec.toNat_ofInt, Int.toNat_of_nonneg (Int.emod_nonneg _ (by exact_mod_cast pow_ne_zero word.width two_ne_zero))]
    exact_mod_cast Int.dvd_self_sub_emod

theorem inRange_shift_iff {n : Int} {count : Nat} (inRange : word.InRange n) (few : count ≤ word.width) :
    word.InRange (n * 2 ^ count) ↔ word.back (word.bits n <<< count) count = word.bits n := by
  rw [← bits_shiftLeft]
  constructor
  · intro kept
    rw [← bits_value (word.back _ _), value_back, value_bits kept]
    rw [Int.mul_ediv_cancel _ (pow_ne_zero count two_ne_zero)]
  · intro again
    have quotient : word.value (word.bits (n * 2 ^ count)) / 2 ^ count = n := by
      rw [← value_back, again, value_bits inRange]
    have whole : (2 ^ count : Int) ∣ word.value (word.bits (n * 2 ^ count)) := by
      have power : (2 ^ count : Int) ∣ 2 ^ word.width := pow_dvd_pow 2 few
      have modulo : (2 ^ word.width : Int) ∣ n * 2 ^ count - word.value (word.bits (n * 2 ^ count)) := dvd_sub_value _
      have rest := power.trans modulo
      exact (Int.dvd_iff_dvd_of_dvd_sub rest).1 (Int.dvd_mul_left _ _)
    have exact := Int.ediv_mul_cancel whole
    rw [quotient] at exact
    rw [exact]
    exact inRange_value _

end Word

end BasicNext.Lib
