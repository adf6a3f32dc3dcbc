import BasicNext.Native.Arithmetic
import Mathlib.Tactic.Ring

/-!
# The power loop

The squaring loop of native code computes the power whenever 128 bits hold it, and traps otherwise: it never
overflows on a square that the power does not need.
-/

namespace BasicNext.Native

open Lib Lib.Llvm
open Interp (exact wideWord)

/-- A result of 128 bits, or the trap. -/
def checkedWide (n : Int) : Code (BitVec 128) :=
  if wideWord.InRange n then .ok (BitVec.ofInt 128 n) else .error (.trap .numericOverflow)

theorem emitCheckedI128Mul_eq {n m : Int} (first : wideWord.InRange n) (second : wideWord.InRange m) :
    emitCheckedI128Mul (BitVec.ofInt 128 n) (BitVec.ofInt 128 m) = checkedWide (n * m) := by
  have product : mulWithOverflow true (BitVec.ofInt 128 n) (BitVec.ofInt 128 m) =
      (BitVec.ofInt 128 (n * m), !decide (wideWord.InRange (n * m))) := mulWithOverflow_bits first second
  rw [emitCheckedI128Mul, product, checkedWide]
  by_cases inRange : wideWord.InRange (n * m)
  · rw [if_pos inRange, decide_eq_true inRange]
    rfl
  · rw [if_neg inRange, decide_eq_false inRange]
    rfl

/-! ### The exponent -/

theorem ofNat_eq_zero {e : Nat} (bound : e < 2 ^ 32) : BitVec.ofNat 128 e = 0 ↔ e = 0 := by
  constructor
  · intro same
    have natural := congrArg BitVec.toNat same
    rw [BitVec.toNat_ofNat] at natural
    have : e % 2 ^ 128 = 0 := natural
    omega
  · rintro rfl
    rfl

theorem trunc_one {e : Nat} : trunc 1 (BitVec.ofNat 128 e) = 1 ↔ e % 2 = 1 := by
  have value : (trunc 1 (BitVec.ofNat 128 e)).toNat = e % 2 := by
    rw [trunc, BitVec.toNat_setWidth, BitVec.toNat_ofNat]
    omega
  constructor
  · intro same
    rw [← value, same]
    rfl
  · intro odd
    apply BitVec.eq_of_toNat_eq
    rw [value, odd]
    rfl

theorem halve_ofNat {e : Nat} (bound : e < 2 ^ 32) : halve (BitVec.ofNat 128 e) = BitVec.ofNat 128 (e / 2) := by
  apply BitVec.eq_of_toNat_eq
  rw [halve, BitVec.toNat_ushiftRight, BitVec.toNat_ofNat, BitVec.toNat_ofNat, Nat.shiftRight_eq_div_pow]
  omega

/-! ### The loop -/

/-- The loop holds a result that is zero only for a zero base, and a unit for a unit. -/
structure PowerInvariant (base result : Int) : Prop where
  baseFits : wideWord.InRange base
  resultFits : wideWord.InRange result
  zero : result = 0 → base = 0
  unit : base.natAbs ≤ 1 → result.natAbs ≤ 1

theorem natAbs_le {n : Int} (inRange : wideWord.InRange n) : n.natAbs ≤ 2 ^ 127 := by
  have := wide_inRange.1 inRange
  omega

theorem le_natAbs {n : Int} (outside : ¬wideWord.InRange n) : 2 ^ 127 ≤ n.natAbs := by
  rw [wide_inRange] at outside
  omega

section

variable {base result : Int}

theorem product_overflow (invariant : PowerInvariant base result) (outside : ¬wideWord.InRange (result * base))
    {e : Nat} (positive : 0 < e) : ¬wideWord.InRange (result * base ^ e) := by
  intro inRange
  obtain ⟨rest, rfl⟩ := Nat.exists_eq_add_one_of_ne_zero positive.ne'
  have most := natAbs_le inRange
  have least := le_natAbs outside
  have large : 2 ≤ base.natAbs := by
    by_contra small
    have unit := invariant.unit (by omega)
    have product := Nat.mul_le_mul unit (show base.natAbs ≤ 1 by omega)
    rw [← Int.natAbs_mul] at product
    omega
  have split_ : (result * base ^ (rest + 1)).natAbs = (result * base).natAbs * base.natAbs ^ rest := by
    rw [← Int.natAbs_pow, ← Int.natAbs_mul]
    congr 1
    ring
  cases rest with
  | zero => exact outside (by simpa using inRange)
  | succ rest =>
    have power : 2 ≤ base.natAbs ^ (rest + 1) := by
      calc 2 ≤ base.natAbs := large
        _ ≤ base.natAbs ^ (rest + 1) := Nat.le_self_pow (by omega) _
    have twice := Nat.mul_le_mul least power
    rw [split_] at most
    omega

theorem square_ne (n : Nat) : n * n ≠ 2 ^ 127 := by
  intro same
  rcases Nat.lt_or_ge n 13043817825332782213 with less | more
  · have := Nat.mul_le_mul (Nat.le_sub_one_of_lt less) (Nat.le_sub_one_of_lt less)
    omega
  · have := Nat.mul_le_mul more more
    omega

theorem square_overflow (invariant : PowerInvariant base result) (outside : ¬wideWord.InRange (base * base))
    {k : Nat} (positive : 0 < k) : ¬wideWord.InRange (result * (base * base) ^ k) := by
  intro inRange
  have most := natAbs_le inRange
  have least := le_natAbs outside
  rw [Int.natAbs_mul] at least
  have some_ : 0 < result.natAbs := by
    rw [Int.natAbs_pos]
    intro zero
    rw [invariant.zero zero] at least
    simp at least
  have other := square_ne base.natAbs
  have power : base.natAbs * base.natAbs ≤ (base.natAbs * base.natAbs) ^ k := Nat.le_self_pow positive.ne' _
  have product := Nat.mul_le_mul (show 1 ≤ result.natAbs from some_) power
  rw [Int.natAbs_mul, Int.natAbs_pow, Int.natAbs_mul] at most
  omega

theorem PowerInvariant.square (invariant : PowerInvariant base result) (inRange : wideWord.InRange (base * base)) :
    PowerInvariant (base * base) result where
  baseFits := inRange
  resultFits := invariant.resultFits
  zero none_ := by rw [invariant.zero none_, Int.mul_zero]
  unit small := by
    apply invariant.unit
    by_contra large
    have := Nat.mul_le_mul (show 2 ≤ base.natAbs by omega) (show 2 ≤ base.natAbs by omega)
    rw [Int.natAbs_mul] at small
    omega

theorem PowerInvariant.multiply (invariant : PowerInvariant base result) (inRange : wideWord.InRange (result * base)) :
    PowerInvariant base (result * base) where
  baseFits := invariant.baseFits
  resultFits := inRange
  zero none_ := (Int.mul_eq_zero.1 none_).elim invariant.zero id
  unit small := by
    have := Nat.mul_le_mul (invariant.unit small) small
    rwa [← Int.natAbs_mul] at this

theorem powerLoop_eq (e : Nat) (bound : e < 2 ^ 32) (invariant : PowerInvariant base result) :
    powerLoop (BitVec.ofInt 128 base) (BitVec.ofNat 128 e) (BitVec.ofInt 128 result) = checkedWide (result * base ^ e) := by
  induction e using Nat.strong_induction_on generalizing base result with
  | _ e ih =>
  rw [powerLoop]
  by_cases none_ : e = 0
  · subst none_
    rw [if_pos (show 0#128 = 0 from rfl), pow_zero, Int.mul_one, checkedWide, if_pos invariant.resultFits]
  rw [if_neg ((ofNat_eq_zero bound).not.2 none_), halve_ofNat bound]
  -- the result after the multiplication of an odd step, and what is left of the power
  have rest {result : Int} (invariant : PowerInvariant base result) :
      (if BitVec.ofNat 128 (e / 2) = 0 then .ok (BitVec.ofInt 128 result) else do
        let square ← emitCheckedI128Mul (BitVec.ofInt 128 base) (BitVec.ofInt 128 base)
        powerLoop square (BitVec.ofNat 128 (e / 2)) (BitVec.ofInt 128 result)) =
      checkedWide (result * (base * base) ^ (e / 2)) := by
    have half : BitVec.ofNat 128 (e / 2) = 0 ↔ e / 2 = 0 := ofNat_eq_zero (by omega)
    by_cases last : e / 2 = 0
    · rw [if_pos (half.2 last), last, pow_zero, Int.mul_one, checkedWide, if_pos invariant.resultFits]
    · rw [if_neg (half.not.2 last), emitCheckedI128Mul_eq invariant.baseFits invariant.baseFits, checkedWide]
      by_cases fits : wideWord.InRange (base * base)
      · rw [if_pos fits]
        exact ih (e / 2) (by omega) (by omega) (invariant.square fits)
      · rw [if_neg fits, checkedWide, if_neg (square_overflow invariant fits (Nat.pos_of_ne_zero last))]
        rfl
  have split_ : base ^ e = base ^ (e % 2) * (base * base) ^ (e / 2) := by
    rw [← pow_two, ← pow_mul, ← pow_add]
    congr 1
    omega
  by_cases odd : e % 2 = 1
  · rw [if_pos (trunc_one.2 odd), emitCheckedI128Mul_eq invariant.resultFits invariant.baseFits]
    by_cases fits : wideWord.InRange (result * base)
    · rw [checkedWide, if_pos fits, split_, odd, pow_one, ← mul_assoc]
      exact rest (invariant.multiply fits)
    · rw [checkedWide, if_neg fits, checkedWide, if_neg (product_overflow invariant fits (Nat.pos_of_ne_zero none_))]
      rfl
  · rw [if_neg (trunc_one.not.2 odd), split_, show e % 2 = 0 by omega, pow_zero, one_mul]
    exact rest invariant

end

/-! ### The power -/

section

variable {left right : Ty} {kind : IntegerType} {n m : Int}

theorem emitCastInteger_read {source : Ty} {target : Nat} (n : Int) :
    emitCastInteger source target (register source n) = BitVec.ofInt target (read source n) := by
  rw [← register_read]
  exact emitCastInteger_register fun _ => Word.inRange_value _

theorem read_wide (ty : Ty) (n : Int) : wideWord.InRange (read ty n) := by
  have bounds : -2 ^ 63 ≤ read ty n ∧ read ty n < 2 ^ 64 := @Interp.bounds (integerKind ty) _ (Word.inRange_value _)
  rw [wide_inRange]
  omega

theorem wide_negative {e : Int} (inRange : wideWord.InRange e) : icmp .slt (BitVec.ofInt 128 e) 0 = decide (e < 0) := by
  have zero : (0 : BitVec 128) = BitVec.ofInt 128 0 := rfl
  rw [zero]
  exact wide_less inRange inRange_zero

theorem wide_large {e : Int} (low : 0 ≤ e) (high : e < 2 ^ 127) :
    icmp .ugt (BitVec.ofInt 128 e) (BitVec.ofNat 128 (2 ^ 32 - 1)) = decide (2 ^ 32 ≤ e) := by
  have natural : (BitVec.ofInt 128 e).toNat = e.toNat := by
    rw [BitVec.toNat_ofInt, Int.emod_eq_of_lt low (by omega)]
  rw [icmp, BitVec.ult, natural, decide_eq_decide, BitVec.toNat_ofNat]
  omega

theorem invalid_exponent (outside : read right m < 0 ∨ 2 ^ 32 ≤ read right m) :
    emitIntegerPower left right (.integer kind) (register left n) (register right m) = .error (.trap .invalidExponent) := by
  have bounds := wide_inRange.1 (read_wide right m)
  rw [emitIntegerPower, emitCastInteger_read, emitCastInteger_read, wide_negative (read_wide right m)]
  by_cases negative : read right m < 0
  · rw [decide_eq_true negative]
    rfl
  · rw [wide_large (by omega) bounds.2, decide_eq_false negative, decide_eq_true (by omega)]
    rfl

theorem power_emits (natural : 0 ≤ read right m) (small : read right m < 2 ^ 32) :
    Emits kind (emitIntegerPower left right (.integer kind) (register left n) (register right m))
      (exact kind (read left n ^ (read right m).toNat)) := by
  have bounds := wide_inRange.1 (read_wide right m)
  have exponent : BitVec.ofInt 128 (read right m) = BitVec.ofNat 128 (read right m).toNat := by
    rw [← BitVec.ofInt_natCast, Int.toNat_of_nonneg natural]
  have invariant : PowerInvariant (read left n) 1 := ⟨read_wide left n, by decide, nofun, fun _ => Nat.le_refl 1⟩
  have loop := powerLoop_eq (read right m).toNat (by omega) invariant
  rw [emitIntegerPower, emitCastInteger_read, emitCastInteger_read, wide_negative (read_wide right m),
    wide_large natural bounds.2, decide_eq_false (by omega), decide_eq_false (by omega), exponent]
  show Emits kind (powerLoop (BitVec.ofInt 128 (read left n)) (BitVec.ofNat 128 (read right m).toNat)
    (BitVec.ofInt 128 1) >>= emitI128RangeTrunc (.integer kind)) _
  rw [loop, Int.one_mul, checkedWide]
  by_cases fits : wideWord.InRange (read left n ^ (read right m).toNat)
  · rw [if_pos fits]
    exact emitI128RangeTrunc_emits fits
  · have outside : ¬kind.word.InRange (read left n ^ (read right m).toNat) := by
      intro inRange
      have := Interp.bounds inRange
      rw [wide_inRange] at fits
      omega
    rw [if_neg fits, exact, if_neg outside]
    exact .overflow

end

end BasicNext.Native
