import BasicNext.Lib.Word

/-!
# LLVM instructions on integers

The integer instructions of LLVM on words of any width: arithmetic wraps, the intrinsics with an overflow
bit say when it did, and a division or a shift outside of its domain is undefined. Code that may stop is a
computation that ends in a value, in a trap with a diagnostic or in an undefined operation. The lemmas say
what each instruction does to the integers that words stand for.
-/

namespace BasicNext.Lib.Llvm

/-- What ends code before it has a value. -/
inductive Stop (δ : Type) where
  | trap (diagnostic : δ)
  | undefined
deriving DecidableEq, Repr

abbrev Run (δ α : Type) := Except (Stop δ) α

section

variable {δ : Type} {width : Nat}

/-- A branch to a block that reports a diagnostic. -/
def trapIf (condition : Bool) (diagnostic : δ) : Run δ Unit :=
  if condition then .error (.trap diagnostic) else .ok ()

/-! ### Instructions -/

/-- The predicates of `icmp`. -/
inductive Predicate where
  | eq | ne | slt | sle | sgt | sge | ult | ule | ugt | uge
deriving DecidableEq, Repr

def icmp (predicate : Predicate) (x y : BitVec width) : Bool :=
  match predicate with
  | .eq => x == y
  | .ne => x != y
  | .slt => x.slt y
  | .sle => x.sle y
  | .sgt => y.slt x
  | .sge => y.sle x
  | .ult => x.ult y
  | .ule => x.ule y
  | .ugt => y.ult x
  | .uge => y.ule x

def sdiv (x y : BitVec width) : Run δ (BitVec width) :=
  if y = 0 ∨ (x = BitVec.intMin width ∧ y = -1) then .error .undefined else .ok (x.sdiv y)

def srem (x y : BitVec width) : Run δ (BitVec width) :=
  if y = 0 ∨ (x = BitVec.intMin width ∧ y = -1) then .error .undefined else .ok (x.srem y)

def udiv (x y : BitVec width) : Run δ (BitVec width) := if y = 0 then .error .undefined else .ok (x / y)

def urem (x y : BitVec width) : Run δ (BitVec width) := if y = 0 then .error .undefined else .ok (x % y)

/-- The result of a shift by the width or more is poison. -/
def shl (x count : BitVec width) : Run δ (BitVec width) :=
  if width ≤ count.toNat then .error .undefined else .ok (x <<< count.toNat)

def lshr (x count : BitVec width) : Run δ (BitVec width) :=
  if width ≤ count.toNat then .error .undefined else .ok (x >>> count.toNat)

def zext (target : Nat) (x : BitVec width) : BitVec target := x.setWidth target

def sext (target : Nat) (x : BitVec width) : BitVec target := x.signExtend target

def trunc (target : Nat) (x : BitVec width) : BitVec target := x.setWidth target

/-- `sadd.with.overflow` and `uadd.with.overflow` -/
def addWithOverflow (signed : Bool) (x y : BitVec width) : BitVec width × Bool :=
  (x + y, if signed then x.saddOverflow y else x.uaddOverflow y)

def subWithOverflow (signed : Bool) (x y : BitVec width) : BitVec width × Bool :=
  (x - y, if signed then x.ssubOverflow y else x.usubOverflow y)

def mulWithOverflow (signed : Bool) (x y : BitVec width) : BitVec width × Bool :=
  (x * y, if signed then x.smulOverflow y else x.umulOverflow y)

end

/-! ### Words -/

section

variable {word : Word} {n m : Int}

theorem bits_add (n m : Int) : word.bits n + word.bits m = word.bits (n + m) := (BitVec.ofInt_add n m).symm

theorem bits_sub (n m : Int) : word.bits n - word.bits m = word.bits (n - m) := by
  rw [Int.sub_eq_add_neg, ← bits_add, BitVec.sub_eq_add_neg, Word.bits, Word.bits, Word.bits, BitVec.ofInt_neg]

theorem bits_mul (n m : Int) : word.bits n * word.bits m = word.bits (n * m) := (BitVec.ofInt_mul n m).symm

theorem toInt_bits (inRange : word.InRange n) (signed : word.signed = true) : (word.bits n).toInt = n := by
  have same := Word.value_bits inRange
  rwa [Word.value, if_pos signed] at same

theorem toNat_bits (inRange : word.InRange n) (unsigned : word.signed = false) : ((word.bits n).toNat : Int) = n := by
  have same := Word.value_bits inRange
  rwa [Word.value, unsigned, if_neg Bool.false_ne_true] at same

theorem inRange_signed (signed : word.signed = true) :
    word.InRange n ↔ -2 ^ (word.width - 1) ≤ n ∧ n < 2 ^ (word.width - 1) := by
  rw [Word.InRange, Word.minimum, Word.maximum, if_pos signed, if_pos signed]
  omega

theorem inRange_unsigned (unsigned : word.signed = false) : word.InRange n ↔ 0 ≤ n ∧ n < 2 ^ word.width := by
  rw [Word.InRange, Word.minimum, Word.maximum, unsigned, if_neg Bool.false_ne_true, if_neg Bool.false_ne_true]
  omega

theorem natCast_two_pow (width : Nat) : ((2 ^ width : Nat) : Int) = 2 ^ width := by norm_cast

theorem xor_negOne {width : Nat} (x : BitVec width) : x ^^^ -1 = ~~~x := by
  have ones : (-1 : BitVec width) = BitVec.allOnes width := BitVec.neg_one_eq_allOnes
  rw [ones, BitVec.xor_allOnes]

/-! ### Widths -/

theorem extend_eq {wide : Nat} (pattern : BitVec word.width) :
    word.extend wide pattern = if !word.signed then zext wide pattern else sext wide pattern := by
  rw [Word.extend]
  cases word.signed <;> rfl

theorem trunc_bits {narrow width : Nat} (less : narrow ≤ width) (n : Int) :
    trunc narrow (BitVec.ofInt width n) = BitVec.ofInt narrow n := by
  have power : ((2 ^ narrow : Nat) : Int) ∣ (2 ^ width : Nat) := Int.natCast_dvd_natCast.2 (Nat.pow_dvd_pow 2 less)
  have positive (count : Nat) : ((2 ^ count : Nat) : Int) ≠ 0 := Int.natCast_ne_zero.2 (Nat.two_pow_pos count).ne'
  apply BitVec.eq_of_toNat_eq
  apply Int.ofNat_inj.1
  rw [trunc, BitVec.toNat_setWidth, BitVec.toNat_ofInt, BitVec.toNat_ofInt, Int.natCast_emod,
    Int.toNat_of_nonneg (Int.emod_nonneg n (positive width)), Int.toNat_of_nonneg (Int.emod_nonneg n (positive narrow)),
    Int.emod_emod_of_dvd n power]

/-! ### Overflow -/

theorem addWithOverflow_bits (first : word.InRange n) (second : word.InRange m) :
    addWithOverflow word.signed (word.bits n) (word.bits m) = (word.bits (n + m), !decide (word.InRange (n + m))) := by
  rw [addWithOverflow, bits_add]
  congr 1
  cases sign : word.signed with
  | true =>
    rw [if_pos rfl, BitVec.saddOverflow, toInt_bits first sign, toInt_bits second sign, Bool.eq_iff_iff]
    simp only [inRange_signed sign, Bool.or_eq_true, decide_eq_true_eq, Bool.not_eq_true', decide_eq_false_iff_not]
    omega
  | false =>
    have low := toNat_bits first sign
    have right := toNat_bits second sign
    have power := natCast_two_pow word.width
    rw [if_neg Bool.false_ne_true, BitVec.uaddOverflow, Bool.eq_iff_iff]
    simp only [inRange_unsigned sign, decide_eq_true_eq, Bool.not_eq_true', decide_eq_false_iff_not]
    omega

theorem subWithOverflow_bits (first : word.InRange n) (second : word.InRange m) :
    subWithOverflow word.signed (word.bits n) (word.bits m) = (word.bits (n - m), !decide (word.InRange (n - m))) := by
  rw [subWithOverflow, bits_sub]
  congr 1
  cases sign : word.signed with
  | true =>
    rw [if_pos rfl, BitVec.ssubOverflow, toInt_bits first sign, toInt_bits second sign, Bool.eq_iff_iff]
    simp only [inRange_signed sign, Bool.or_eq_true, decide_eq_true_eq, Bool.not_eq_true', decide_eq_false_iff_not]
    omega
  | false =>
    have low := toNat_bits first sign
    have right := toNat_bits second sign
    have inside := (inRange_unsigned sign).1 first
    rw [if_neg Bool.false_ne_true, BitVec.usubOverflow, Bool.eq_iff_iff]
    simp only [inRange_unsigned sign, decide_eq_true_eq, Bool.not_eq_true', decide_eq_false_iff_not]
    omega

theorem mulWithOverflow_bits (first : word.InRange n) (second : word.InRange m) :
    mulWithOverflow word.signed (word.bits n) (word.bits m) = (word.bits (n * m), !decide (word.InRange (n * m))) := by
  rw [mulWithOverflow, bits_mul]
  congr 1
  cases sign : word.signed with
  | true =>
    rw [if_pos rfl, BitVec.smulOverflow, toInt_bits first sign, toInt_bits second sign, Bool.eq_iff_iff]
    simp only [inRange_signed sign, Bool.or_eq_true, decide_eq_true_eq, Bool.not_eq_true', decide_eq_false_iff_not]
    omega
  | false =>
    have low := toNat_bits first sign
    have right := toNat_bits second sign
    have power := natCast_two_pow word.width
    have positive := Int.mul_nonneg ((inRange_unsigned sign).1 first).1 ((inRange_unsigned sign).1 second).1
    have product : (((word.bits n).toNat * (word.bits m).toNat : Nat) : Int) = n * m := by
      rw [Int.natCast_mul, low, right]
    rw [if_neg Bool.false_ne_true, BitVec.umulOverflow, Bool.eq_iff_iff]
    simp only [inRange_unsigned sign, decide_eq_true_eq, Bool.not_eq_true', decide_eq_false_iff_not]
    omega

/-! ### Comparisons -/

theorem eq_bits (first : word.InRange n) (second : word.InRange m) :
    icmp .eq (word.bits n) (word.bits m) = decide (n = m) := by
  rw [icmp, Bool.eq_iff_iff, beq_iff_eq, decide_eq_true_iff]
  exact ⟨Word.bits_injective first second, congrArg word.bits⟩

theorem ne_bits (first : word.InRange n) (second : word.InRange m) :
    icmp .ne (word.bits n) (word.bits m) = decide (n ≠ m) := by
  have equal : (word.bits n == word.bits m) = decide (n = m) := eq_bits first second
  show (word.bits n != word.bits m) = decide (n ≠ m)
  rw [bne, equal, decide_not]

theorem less_bits (first : word.InRange n) (second : word.InRange m) :
    icmp (if word.signed then .slt else .ult) (word.bits n) (word.bits m) = decide (n < m) := by
  cases sign : word.signed with
  | true => rw [if_pos rfl, icmp, BitVec.slt, toInt_bits first sign, toInt_bits second sign]
  | false =>
    have left := toNat_bits first sign
    have right := toNat_bits second sign
    rw [if_neg Bool.false_ne_true, icmp, BitVec.ult, decide_eq_decide]
    omega

theorem lessEqual_bits (first : word.InRange n) (second : word.InRange m) :
    icmp (if word.signed then .sle else .ule) (word.bits n) (word.bits m) = decide (n ≤ m) := by
  cases sign : word.signed with
  | true => rw [if_pos rfl, icmp, BitVec.sle, toInt_bits first sign, toInt_bits second sign]
  | false =>
    have left := toNat_bits first sign
    have right := toNat_bits second sign
    rw [if_neg Bool.false_ne_true, icmp, BitVec.ule, decide_eq_decide]
    omega

theorem greater_swap {width : Nat} (signed : Bool) (x y : BitVec width) :
    icmp (if signed then .sgt else .ugt) x y = icmp (if signed then .slt else .ult) y x := by
  cases signed <;> rfl

theorem greaterEqual_swap {width : Nat} (signed : Bool) (x y : BitVec width) :
    icmp (if signed then .sge else .uge) x y = icmp (if signed then .sle else .ule) y x := by
  cases signed <;> rfl

/-! ### Division -/

theorem inRange_zero : word.InRange 0 := by
  have half : (0 : Int) < 2 ^ (word.width - 1) := Int.pow_pos (by decide)
  have whole : (0 : Int) < 2 ^ word.width := Int.pow_pos (by decide)
  cases sign : word.signed with
  | true => exact (inRange_signed sign).2 (by omega)
  | false => exact (inRange_unsigned sign).2 (by omega)

theorem bits_eq_zero (inRange : word.InRange n) : word.bits n = 0 ↔ n = 0 := by
  have zero : word.bits 0 = 0 := BitVec.ofInt_ofNat word.width 0
  constructor
  · intro same
    exact Word.bits_injective inRange inRange_zero (same.trans zero.symm)
  · rintro rfl
    exact zero

theorem inRange_negOne (signed : word.signed = true) : word.InRange (-1) := by
  have half : (0 : Int) < 2 ^ (word.width - 1) := Int.pow_pos (by decide)
  exact (inRange_signed signed).2 (by omega)

theorem bits_eq_negOne (inRange : word.InRange n) (signed : word.signed = true) :
    word.bits n = -1 ↔ n = -1 := by
  have one : word.bits (-1) = -1 := by
    rw [Word.bits, BitVec.ofInt_neg]
    rfl
  constructor
  · intro same
    exact Word.bits_injective inRange (inRange_negOne signed) (same.trans one.symm)
  · rintro rfl
    exact one

theorem inRange_minimum : word.InRange word.minimum := by
  have zero := @inRange_zero word
  exact ⟨Int.le_refl _, Int.le_trans zero.1 zero.2⟩

theorem bits_minimum (signed : word.signed = true) : word.bits word.minimum = BitVec.intMin word.width := by
  apply BitVec.eq_of_toInt_eq
  have width := word.positive
  rw [toInt_bits inRange_minimum signed, BitVec.toInt_intMin_of_pos width, Word.minimum, if_pos signed]

theorem bits_eq_minimum (inRange : word.InRange n) (signed : word.signed = true) :
    word.bits n = BitVec.intMin word.width ↔ n = word.minimum := by
  rw [← bits_minimum signed]
  exact ⟨Word.bits_injective inRange inRange_minimum, congrArg word.bits⟩

theorem division_defined (signed : word.signed = true) (first : word.InRange n) (second : word.InRange m)
    (nonzero : m ≠ 0) (fits : ¬(n = word.minimum ∧ m = -1)) :
    ¬(word.bits m = 0 ∨ word.bits n = BitVec.intMin word.width ∧ word.bits m = -1) := by
  rw [bits_eq_zero second, bits_eq_minimum first signed, bits_eq_negOne second signed]
  exact not_or.2 ⟨nonzero, fits⟩

theorem sdiv_bits {δ : Type} (signed : word.signed = true) (first : word.InRange n) (second : word.InRange m)
    (nonzero : m ≠ 0) (fits : ¬(n = word.minimum ∧ m = -1)) :
    sdiv (δ := δ) (word.bits n) (word.bits m) = .ok (word.bits (n.tdiv m)) := by
  have defined := division_defined signed first second nonzero fits
  rw [sdiv, if_neg defined]
  congr 1
  have inside : word.bits n ≠ BitVec.intMin word.width ∨ word.bits m ≠ -BitVec.ofNat word.width 1 := by
    by_contra both
    exact defined (.inr ⟨by_contra fun other => both (.inl other), by_contra fun other => both (.inr other)⟩)
  have quotient := BitVec.toInt_sdiv_of_ne_or_ne _ _ inside
  rw [toInt_bits first signed, toInt_bits second signed] at quotient
  have again : word.bits ((word.bits n).sdiv (word.bits m)).toInt = _ := BitVec.ofInt_toInt
  rw [← quotient, again]

theorem srem_bits {δ : Type} (signed : word.signed = true) (first : word.InRange n) (second : word.InRange m)
    (nonzero : m ≠ 0) (fits : ¬(n = word.minimum ∧ m = -1)) :
    srem (δ := δ) (word.bits n) (word.bits m) = .ok (word.bits (n.tmod m)) := by
  rw [srem, if_neg (division_defined signed first second nonzero fits)]
  congr 1
  have remainder := BitVec.toInt_srem (word.bits n) (word.bits m)
  rw [toInt_bits first signed, toInt_bits second signed] at remainder
  have again : word.bits ((word.bits n).srem (word.bits m)).toInt = _ := BitVec.ofInt_toInt
  rw [← remainder, again]

theorem bits_toNat (pattern : BitVec word.width) : word.bits pattern.toNat = pattern := by
  rw [Word.bits, BitVec.ofInt_natCast, BitVec.ofNat_toNat, BitVec.setWidth_eq]

theorem udiv_bits {δ : Type} (unsigned : word.signed = false) (first : word.InRange n) (second : word.InRange m)
    (nonzero : m ≠ 0) : udiv (δ := δ) (word.bits n) (word.bits m) = .ok (word.bits (n / m)) := by
  have defined : ¬word.bits m = 0 := (bits_eq_zero second).not.2 nonzero
  rw [udiv, if_neg defined]
  congr 1
  rw [← bits_toNat (word.bits n / word.bits m), BitVec.toNat_udiv, Int.natCast_ediv, toNat_bits first unsigned,
    toNat_bits second unsigned]

theorem urem_bits {δ : Type} (unsigned : word.signed = false) (first : word.InRange n) (second : word.InRange m)
    (nonzero : m ≠ 0) : urem (δ := δ) (word.bits n) (word.bits m) = .ok (word.bits (n % m)) := by
  have defined : ¬word.bits m = 0 := (bits_eq_zero second).not.2 nonzero
  rw [urem, if_neg defined]
  congr 1
  rw [← bits_toNat (word.bits n % word.bits m), BitVec.toNat_umod, Int.natCast_emod, toNat_bits first unsigned,
    toNat_bits second unsigned]

/-! ### Euclidean division -/

theorem ediv_eq_tdiv (nonzero : m ≠ 0) :
    n / m = if n.tmod m < 0 then n.tdiv m + (if 0 < m then -1 else 1) else n.tdiv m := by
  have low := Int.emod_nonneg n nonzero
  have high := Int.emod_lt n nonzero
  have quotient := Int.tdiv_eq_ediv (a := n) (b := m)
  have remainder := Int.tmod_eq_emod (a := n) (b := m)
  by_cases whole : 0 ≤ n ∨ m ∣ n
  · rw [if_pos whole] at quotient remainder
    rw [if_neg (by omega)]
    omega
  · rw [if_neg whole] at quotient remainder
    rw [if_pos (by omega)]
    rcases Int.lt_or_gt_of_ne nonzero with negative | positive
    · rw [Int.sign_eq_neg_one_of_neg negative] at quotient
      rw [if_neg (by omega)]
      omega
    · rw [Int.sign_eq_one_of_pos positive] at quotient
      rw [if_pos positive]
      omega

theorem emod_eq_tmod (nonzero : m ≠ 0) :
    n % m = if n.tmod m < 0 then (if m < 0 then n.tmod m - m else n.tmod m + m) else n.tmod m := by
  have low := Int.emod_nonneg n nonzero
  have high := Int.emod_lt n nonzero
  have remainder := Int.tmod_eq_emod (a := n) (b := m)
  by_cases whole : 0 ≤ n ∨ m ∣ n
  · rw [if_pos whole] at remainder
    rw [if_neg (by omega)]
    omega
  · rw [if_neg whole] at remainder
    rw [if_pos (by omega)]
    split
    · omega
    · omega

theorem inRange_quotient (signed : word.signed = true) (first : word.InRange n) (second : word.InRange m)
    (nonzero : m ≠ 0) (fits : ¬(n = word.minimum ∧ m = -1)) : word.InRange (n / m) := by
  have bounds := (inRange_signed signed).1 first
  have bounds' := (inRange_signed signed).1 second
  rw [Word.minimum, if_pos signed] at fits
  rw [inRange_signed signed]
  generalize (2 : Int) ^ (word.width - 1) = half at bounds bounds' fits
  have small : (n / m).natAbs ≤ n.natAbs := Int.natAbs_ediv_le_natAbs n m
  by_cases largest : n / m = half
  · exfalso
    have euclid := Int.mul_ediv_add_emod n m
    have low := Int.emod_nonneg n nonzero
    have high := Int.emod_lt n nonzero
    have minimum : n = -half := by omega
    have product : (-m - 1) * half = n % m := by
      rw [largest] at euclid
      rw [Int.sub_mul, Int.neg_mul]
      omega
    have divisor : m ≤ -2 := by
      by_contra above
      have other : m ≠ -1 := fun same => fits ⟨minimum, same⟩
      have positive := Int.mul_nonneg (show 0 ≤ m by omega) (show 0 ≤ half by omega)
      rw [Int.sub_mul, Int.neg_mul] at product
      omega
    have twice := Int.mul_le_mul_of_nonneg_left (show 2 ≤ half by omega) (show 0 ≤ -m - 1 by omega)
    omega
  · omega

theorem inRange_tmod (signed : word.signed = true) (first : word.InRange n) (second : word.InRange m) :
    word.InRange (n.tmod m) := by
  have value := @Word.inRange_value word ((word.bits n).srem (word.bits m))
  rwa [Word.value, if_pos signed, BitVec.toInt_srem, toInt_bits first signed, toInt_bits second signed] at value

end

end BasicNext.Lib.Llvm
