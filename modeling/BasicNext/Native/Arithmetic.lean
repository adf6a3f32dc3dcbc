import BasicNext.Interp.IntegerSemantics
import BasicNext.Native.Registers

/-!
# Integer arithmetic in native code

The instructions that the native backend emits for the integer operators (`bn_llvm::llvm::emission2`,
`euclidean` and `power_shift`). Sums and products are checked by the overflow bit of their intrinsic, a
division is guarded and its truncated result corrected to the Euclidean one, and powers and shifts to the
left are computed in 128 bits and checked against the range of the type. A trap is its diagnostic only.
-/

namespace BasicNext.Native

open Lib Lib.Llvm
open Interp (Operator)

abbrev Code (α : Type) := Run DiagId α

/-! ### Sums and products -/

def checkedIntrinsic (operator : Operator) (ty : Ty) (lhs rhs : Register ty) : Option (Register ty × Bool) :=
  match operator with
  | .plus => some (addWithOverflow (!isUnsigned ty) lhs rhs)
  | .minus => some (subWithOverflow (!isUnsigned ty) lhs rhs)
  | .star => some (mulWithOverflow (!isUnsigned ty) lhs rhs)
  | _ => none

/-- `emit_checked_integer_op`, with operands of the type. -/
def emitCheckedIntegerOp (operator : Operator) (ty : Ty) (lhs rhs : Register ty) : Option (Code (Register ty)) :=
  (checkedIntrinsic operator ty lhs rhs).map fun (result, overflow) => do
    trapIf overflow .numericOverflow
    .ok result

/-! ### Division -/

def emitSignedDiv {width : Nat} (left right : BitVec width) : Code (BitVec width) := do
  let quotient ← sdiv left right
  let remainder ← srem left right
  let adjust := if icmp .sgt right 0 then -1 else 1
  .ok (if icmp .slt remainder 0 then quotient + adjust else quotient)

def emitSignedRem {width : Nat} (left right : BitVec width) : Code (BitVec width) := do
  let remainder ← srem left right
  let adjusted := if icmp .slt right 0 then remainder - right else remainder + right
  .ok (if icmp .slt remainder 0 then adjusted else remainder)

def signedMinimum (ty : Ty) : Register ty := BitVec.intMin _

/-- `emit_euclidean_integer_op`, with operands of the type. -/
def emitEuclideanIntegerOp (operator : Operator) (ty : Ty) (left right : Register ty) : Code (Register ty) := do
  trapIf (icmp .eq right 0) .divisionByZero
  if isUnsigned ty then
    if operator = .div then udiv left right else urem left right
  else
    let overflow := icmp .eq left (signedMinimum ty) && icmp .eq right (-1)
    if operator = .div then do
      trapIf overflow .numericOverflow
      emitSignedDiv left right
    else if overflow then .ok 0
    else emitSignedRem left right

/-! ### 128 bits -/

/-- `emit_cast_integer`, extending as the type of the value. -/
def emitCastInteger (source : Ty) (target : Nat) (value : Register source) : BitVec target :=
  if (word source).width < target then
    if isUnsigned source then zext target value else sext target value
  else trunc target value

def emitI128RangeTrunc (ty : Ty) (raw : BitVec 128) : Code (Register ty) := do
  let low := icmp .slt raw (BitVec.ofInt 128 (word ty).minimum)
  let high := icmp .sgt raw (BitVec.ofInt 128 (word ty).maximum)
  trapIf (low || high) .numericOverflow
  .ok (trunc _ raw)

/-! ### Shifts -/

def emitShift (operator : Operator) (left right ty : Ty) (value : Register left) (count : Register right) :
    Code (Register ty) := do
  let count : BitVec 64 := emitCastInteger right 64 count
  let negative := !isUnsigned right && icmp .slt count 0
  let wide := icmp .uge count (BitVec.ofNat 64 (word ty).width)
  trapIf (negative || wide) .invalidShiftCount
  let amount : BitVec 128 := zext 128 count
  if operator = .shr then do
    let bits : Register ty := trunc _ value
    let raw ← lshr (zext 128 bits) amount
    .ok (trunc _ raw)
  else do
    let raw ← shl (emitCastInteger left 128 value) amount
    emitI128RangeTrunc ty raw

/-! ### Powers -/

def emitCheckedI128Mul (left right : BitVec 128) : Code (BitVec 128) := do
  let (product, overflow) := mulWithOverflow true left right
  trapIf overflow .numericOverflow
  .ok product

/-- Half of an exponent; a shift by one place is defined. -/
def halve (exponent : BitVec 128) : BitVec 128 := exponent >>> 1

theorem halve_less {exponent : BitVec 128} (positive : exponent ≠ 0) : (halve exponent).toNat < exponent.toNat := by
  have some_ : exponent.toNat ≠ 0 := fun zero => positive (BitVec.eq_of_toNat_eq zero)
  rw [halve, BitVec.toNat_ushiftRight, Nat.shiftRight_eq_div_pow]
  omega

/-- The squaring loop of `emit_integer_power`. -/
def powerLoop (base exponent result : BitVec 128) : Code (BitVec 128) :=
  if exponent = 0 then .ok result
  else do
    let result ← if trunc 1 exponent = 1 then emitCheckedI128Mul result base else .ok result
    if halve exponent = 0 then .ok result
    else do
      let square ← emitCheckedI128Mul base base
      powerLoop square (halve exponent) result
termination_by exponent.toNat
decreasing_by exact halve_less ‹_›

def emitIntegerPower (left right ty : Ty) (base : Register left) (exponent : Register right) : Code (Register ty) := do
  let base : BitVec 128 := emitCastInteger left 128 base
  let exponent : BitVec 128 := emitCastInteger right 128 exponent
  trapIf (icmp .slt exponent 0) .invalidExponent
  trapIf (icmp .ugt exponent (BitVec.ofNat 128 (2 ^ 32 - 1))) .invalidExponent
  let result ← powerLoop base exponent 1
  emitI128RangeTrunc ty result

/-! ### Operators -/

/-- The integer operators of `emit_runtime_binary`. -/
def emitRuntimeBinary (operator : Operator) (left right ty : Ty) (x : Register left) (y : Register right) :
    Option (Code (Register ty)) :=
  let lhs := coerceToType left ty x
  let rhs := coerceToType right ty y
  match operator with
  | .plus | .minus | .star => emitCheckedIntegerOp operator ty lhs rhs
  | .div | .percent => some (emitEuclideanIntegerOp operator ty lhs rhs)
  | .shl | .shr => some (emitShift operator left right ty x y)
  | .power => some (emitIntegerPower left right ty x y)
  | .and => some (.ok (lhs &&& rhs))
  | .or => some (.ok (lhs ||| rhs))
  | .xor => some (.ok (lhs ^^^ rhs))
  | _ => none

def emitIntegerNot (ty : Ty) (operand : Register ty) : Code (Register ty) := do
  trapIf (isUnsigned ty) .numericOverflow
  .ok (operand ^^^ -1)

def emitUnary (operator : Operator) (ty : Ty) (operand : Register ty) : Option (Code (Register ty)) :=
  match operator with
  | .minus => emitCheckedIntegerOp .minus ty 0 operand
  | .not => some (emitIntegerNot ty operand)
  | _ => none

end BasicNext.Native

/-!
## What native arithmetic yields

Each sequence of instructions yields the integer that the operator answers, or traps with the diagnostic of
the answer.
-/

namespace BasicNext.Native

open Lib Lib.Llvm
open Interp (Operator Outcome exact)

/-- An answer in the terms of native code. -/
inductive Emits (kind : IntegerType) : Code (Register (.integer kind)) → Outcome → Prop
  | value {n : Int} : Emits kind (.ok (register (.integer kind) n)) (.value n)
  | overflow : Emits kind (.error (.trap .numericOverflow)) .overflow
  | divisionByZero : Emits kind (.error (.trap .divisionByZero)) .divisionByZero
  | invalidExponent : Emits kind (.error (.trap .invalidExponent)) .invalidExponent
  | invalidShiftCount : Emits kind (.error (.trap .invalidShiftCount)) .invalidShiftCount

section

variable {kind : IntegerType} {n m : Int}

theorem not_isUnsigned (kind : IntegerType) : (!isUnsigned (.integer kind)) = kind.word.signed := by
  rw [isUnsigned_eq, Bool.not_not]
  rfl

/-! ### Sums and products -/

theorem checked_emits (n : Int) :
    Emits kind (do trapIf (!decide (kind.word.InRange n)) .numericOverflow; .ok (register (.integer kind) n))
      (exact kind n) := by
  rw [exact]
  by_cases inRange : kind.word.InRange n
  · rw [if_pos inRange, decide_eq_true inRange]
    exact .value
  · rw [if_neg inRange, decide_eq_false inRange]
    exact .overflow

theorem emitCheckedIntegerOp_emits {operator : Operator} {x y : Register (.integer kind)}
    (intrinsic : checkedIntrinsic operator (.integer kind) x y = some (register _ n, !decide (kind.word.InRange n))) :
    ∃ emitted, emitCheckedIntegerOp operator (.integer kind) x y = some emitted ∧ Emits kind emitted (exact kind n) := by
  refine ⟨_, ?_, checked_emits n⟩
  rw [emitCheckedIntegerOp, intrinsic]
  rfl

theorem checkedIntrinsic_plus (first : kind.word.InRange n) (second : kind.word.InRange m) :
    checkedIntrinsic .plus (.integer kind) (register _ n) (register _ m) =
      some (register _ (n + m), !decide (kind.word.InRange (n + m))) := by
  rw [checkedIntrinsic, not_isUnsigned]
  exact congrArg some (addWithOverflow_bits first second)

theorem checkedIntrinsic_minus (first : kind.word.InRange n) (second : kind.word.InRange m) :
    checkedIntrinsic .minus (.integer kind) (register _ n) (register _ m) =
      some (register _ (n - m), !decide (kind.word.InRange (n - m))) := by
  rw [checkedIntrinsic, not_isUnsigned]
  exact congrArg some (subWithOverflow_bits first second)

theorem checkedIntrinsic_star (first : kind.word.InRange n) (second : kind.word.InRange m) :
    checkedIntrinsic .star (.integer kind) (register _ n) (register _ m) =
      some (register _ (n * m), !decide (kind.word.InRange (n * m))) := by
  rw [checkedIntrinsic, not_isUnsigned]
  exact congrArg some (mulWithOverflow_bits first second)

/-! ### Division -/

theorem register_zero (kind : IntegerType) : (0 : Register (.integer kind)) = register (.integer kind) 0 :=
  (BitVec.ofInt_ofNat kind.word.width 0).symm

theorem register_one (kind : IntegerType) : (1 : Register (.integer kind)) = register (.integer kind) 1 :=
  (BitVec.ofInt_ofNat kind.word.width 1).symm

theorem register_negOne (kind : IntegerType) : (-1 : Register (.integer kind)) = register (.integer kind) (-1) := by
  rw [register_one]
  exact (BitVec.ofInt_neg (n := 1)).symm

theorem icmp_zero (signed : kind.word.signed = true) (inRange : kind.word.InRange n) :
    icmp .slt (register (.integer kind) n) 0 = decide (n < 0) ∧
      icmp .sgt (register (.integer kind) n) 0 = decide (0 < n) := by
  have less := less_bits inRange (@inRange_zero kind.word)
  have greater := less_bits (@inRange_zero kind.word) inRange
  rw [if_pos signed] at less greater
  rw [register_zero]
  exact ⟨less, greater⟩

theorem emitSignedDiv_eq (signed : kind.word.signed = true) (first : kind.word.InRange n)
    (second : kind.word.InRange m) (nonzero : m ≠ 0) (fits : ¬(n = kind.word.minimum ∧ m = -1)) :
    emitSignedDiv (register (.integer kind) n) (register (.integer kind) m) = .ok (register _ (n / m)) := by
  have quotient : sdiv (register (.integer kind) n) (register (.integer kind) m) = .ok (register _ (n.tdiv m)) :=
    sdiv_bits (δ := DiagId) signed first second nonzero fits
  have remainder : srem (register (.integer kind) n) (register (.integer kind) m) = .ok (register _ (n.tmod m)) :=
    srem_bits (δ := DiagId) signed first second nonzero fits
  have truncated := (icmp_zero signed (inRange_tmod signed first second)).1
  have divisor := (icmp_zero signed second).2
  rw [emitSignedDiv, quotient, remainder]
  show (Except.ok (if icmp .slt (register (.integer kind) (n.tmod m)) 0 then
      register (.integer kind) (n.tdiv m) + (if icmp .sgt (register (.integer kind) m) 0 then -1 else 1)
    else register (.integer kind) (n.tdiv m)) : Code (Register (.integer kind))) = _
  rw [truncated, divisor, ediv_eq_tdiv nonzero]
  simp only [decide_eq_true_eq]
  by_cases negative : n.tmod m < 0
  · rw [if_pos negative, if_pos negative]
    by_cases positive : 0 < m
    · rw [if_pos positive, if_pos positive, register_negOne]
      exact congrArg Except.ok (bits_add _ _)
    · rw [if_neg positive, if_neg positive, register_one]
      exact congrArg Except.ok (bits_add _ _)
  · rw [if_neg negative, if_neg negative]

theorem emitSignedRem_eq (signed : kind.word.signed = true) (first : kind.word.InRange n)
    (second : kind.word.InRange m) (nonzero : m ≠ 0) (fits : ¬(n = kind.word.minimum ∧ m = -1)) :
    emitSignedRem (register (.integer kind) n) (register (.integer kind) m) = .ok (register _ (n % m)) := by
  have remainder : srem (register (.integer kind) n) (register (.integer kind) m) = .ok (register _ (n.tmod m)) :=
    srem_bits (δ := DiagId) signed first second nonzero fits
  have truncated := (icmp_zero signed (inRange_tmod signed first second)).1
  have divisor := (icmp_zero signed second).1
  rw [emitSignedRem, remainder]
  show (Except.ok (if icmp .slt (register (.integer kind) (n.tmod m)) 0 then
      (if icmp .slt (register (.integer kind) m) 0 then
        register (.integer kind) (n.tmod m) - register (.integer kind) m
      else register (.integer kind) (n.tmod m) + register (.integer kind) m)
    else register (.integer kind) (n.tmod m)) : Code (Register (.integer kind))) = _
  rw [truncated, divisor, emod_eq_tmod nonzero]
  simp only [decide_eq_true_eq]
  by_cases negative : n.tmod m < 0
  · rw [if_pos negative, if_pos negative]
    split
    · exact congrArg Except.ok (bits_sub _ _)
    · exact congrArg Except.ok (bits_add _ _)
  · rw [if_neg negative, if_neg negative]

theorem emitEuclideanIntegerOp_zero (operator : Operator) (x : Register (.integer kind)) :
    emitEuclideanIntegerOp operator (.integer kind) x (register _ 0) = .error (.trap .divisionByZero) := by
  have zero : icmp .eq (register (.integer kind) 0) 0 = true := by
    rw [← register_zero]
    exact beq_self_eq_true _
  rw [emitEuclideanIntegerOp, zero]
  rfl

theorem emitEuclideanIntegerOp_unsigned (operator : Operator) (unsigned : kind.word.signed = false)
    (first : kind.word.InRange n) (second : kind.word.InRange m) (nonzero : m ≠ 0) :
    emitEuclideanIntegerOp operator (.integer kind) (register _ n) (register _ m) =
      .ok (register _ (if operator = .div then n / m else n % m)) := by
  have zero : icmp .eq (register (.integer kind) m) 0 = false := by
    rw [register_zero]
    exact (eq_bits second inRange_zero).trans (decide_eq_false nonzero)
  have sign : isUnsigned (.integer kind) = true := by
    rw [← Bool.not_not (isUnsigned (.integer kind)), not_isUnsigned, unsigned]
    rfl
  rw [emitEuclideanIntegerOp, zero, sign]
  show (if operator = .div then udiv (register (.integer kind) n) (register (.integer kind) m)
    else urem (register (.integer kind) n) (register (.integer kind) m)) = _
  split
  · exact udiv_bits (δ := DiagId) unsigned first second nonzero
  · exact urem_bits (δ := DiagId) unsigned first second nonzero

theorem emitEuclideanIntegerOp_signed (operator : Operator) (signed : kind.word.signed = true)
    (first : kind.word.InRange n) (second : kind.word.InRange m) (nonzero : m ≠ 0) :
    emitEuclideanIntegerOp operator (.integer kind) (register _ n) (register _ m) = if n = kind.word.minimum ∧ m = -1 then
        if operator = .div then .error (.trap .numericOverflow) else .ok (register _ 0)
      else .ok (register _ (if operator = .div then n / m else n % m)) := by
  have zero : icmp .eq (register (.integer kind) m) 0 = false := by
    rw [register_zero]
    exact (eq_bits second inRange_zero).trans (decide_eq_false nonzero)
  have sign : isUnsigned (.integer kind) = false := by
    rw [← Bool.not_not (isUnsigned (.integer kind)), not_isUnsigned, signed]
    rfl
  have minimum : icmp .eq (register (.integer kind) n) (signedMinimum (.integer kind)) =
      decide (n = kind.word.minimum) := by
    have bits : signedMinimum (.integer kind) = register (.integer kind) kind.word.minimum := (bits_minimum signed).symm
    rw [bits]
    exact eq_bits first inRange_minimum
  have negOne : icmp .eq (register (.integer kind) m) (-1) = decide (m = -1) := by
    rw [register_negOne]
    exact eq_bits second (inRange_negOne signed)
  rw [emitEuclideanIntegerOp, zero, sign, minimum, negOne, ← Bool.decide_and]
  by_cases overflow : n = kind.word.minimum ∧ m = -1
  · rw [if_pos overflow, decide_eq_true overflow]
    by_cases divides : operator = .div
    · subst divides
      rfl
    · rw [if_neg divides, if_neg divides, if_neg divides, register_zero]
      rfl
  · rw [if_neg overflow, decide_eq_false overflow]
    by_cases divides : operator = .div
    · subst divides
      exact emitSignedDiv_eq signed first second nonzero overflow
    · rw [if_neg divides, if_neg divides, if_neg divides]
      exact emitSignedRem_eq signed first second nonzero overflow

theorem exact_inRange (inRange : kind.word.InRange n) : exact kind n = .value n := if_pos inRange

theorem emitEuclideanIntegerOp_emits {operator : Operator} (divides : operator = .div ∨ operator = .percent)
    (first : kind.word.InRange n) (second : kind.word.InRange m) :
    ∃ outcome, Interp.Answers kind (Interp.integerBinary operator n m (.integer kind)) outcome ∧
      Emits kind (emitEuclideanIntegerOp operator (.integer kind) (register _ n) (register _ m)) outcome := by
  by_cases nonzero : m = 0
  · subst nonzero
    rw [emitEuclideanIntegerOp_zero]
    rcases divides with rfl | rfl
    · exact ⟨_, .divisionByZero, .divisionByZero⟩
    · exact ⟨_, .divisionByZero, .divisionByZero⟩
  have quotient : Interp.integerBinary .div n m (.integer kind) = Interp.checkedInteger (some (n / m)) (.integer kind) := by
    rw [Interp.integerBinary, if_pos nonzero, Interp.checkedDivEuclid_eq first nonzero]
  have remainder : Interp.integerBinary .percent n m (.integer kind) =
      Interp.checkedInteger (some (n % m)) (.integer kind) := by
    rw [Interp.integerBinary, if_pos nonzero, Interp.checkedRemEuclid_eq first second nonzero]
  have inside : kind.word.InRange (n % m) :=
    Interp.inRange_remainder second (Int.emod_nonneg n nonzero) (Int.emod_lt_abs n nonzero)
  cases signed : kind.word.signed with
  | true =>
    rw [emitEuclideanIntegerOp_signed operator signed first second nonzero]
    by_cases overflow : n = kind.word.minimum ∧ m = -1
    · rw [if_pos overflow]
      obtain ⟨rfl, rfl⟩ := overflow
      rcases divides with rfl | rfl
      · refine ⟨_, quotient ▸ Interp.checkedInteger_some kind _, ?_⟩
        have outside : ¬kind.word.InRange (kind.word.minimum / -1) := by
          rw [inRange_signed signed, Word.minimum, if_pos signed, Int.ediv_neg, Int.ediv_one]
          omega
        rw [exact, if_neg outside]
        exact .overflow
      · rw [if_neg (fun same => by cases same)]
        refine ⟨_, remainder ▸ Interp.checkedInteger_some kind _, ?_⟩
        rw [exact_inRange inside, Int.emod_neg, Int.emod_one]
        exact .value
    · rw [if_neg overflow]
      rcases divides with rfl | rfl
      · refine ⟨_, quotient ▸ Interp.checkedInteger_some kind _, ?_⟩
        rw [exact_inRange (inRange_quotient signed first second nonzero overflow)]
        exact .value
      · refine ⟨_, remainder ▸ Interp.checkedInteger_some kind _, ?_⟩
        rw [exact_inRange inside]
        exact .value
  | false =>
    rw [emitEuclideanIntegerOp_unsigned operator signed first second nonzero]
    rcases divides with rfl | rfl
    · have natural := (inRange_unsigned signed).1 first
      have natural' := (inRange_unsigned signed).1 second
      have inside : kind.word.InRange (n / m) := by
        rw [inRange_unsigned signed]
        have low := Int.ediv_nonneg natural.1 natural'.1
        have high := Int.ediv_le_self m natural.1
        omega
      refine ⟨_, quotient ▸ Interp.checkedInteger_some kind _, ?_⟩
      rw [exact_inRange inside]
      exact .value
    · refine ⟨_, remainder ▸ Interp.checkedInteger_some kind _, ?_⟩
      rw [exact_inRange inside]
      exact .value

/-! ### 128 bits -/

theorem emitCastInteger_register {source : Ty} {target : Nat}
    (kept : (word source).width < target → (word source).InRange n) :
    emitCastInteger source target (register source n) = BitVec.ofInt target n := by
  rw [emitCastInteger, register]
  split
  next wider =>
    rw [isUnsigned_eq, ← extend_eq]
    exact Word.extend_bits (kept wider) wider
  next narrow => exact trunc_bits (Nat.le_of_not_lt narrow) n

theorem wide_inRange : Interp.wideWord.InRange n ↔ -2 ^ 127 ≤ n ∧ n < 2 ^ 127 := inRange_signed rfl

theorem wide_less (first : Interp.wideWord.InRange n) (second : Interp.wideWord.InRange m) :
    icmp .slt (BitVec.ofInt 128 n) (BitVec.ofInt 128 m) = decide (n < m) := less_bits first second

theorem emitI128RangeTrunc_emits (wide : Interp.wideWord.InRange n) :
    Emits kind (emitI128RangeTrunc (.integer kind) (BitVec.ofInt 128 n)) (exact kind n) := by
  have bounds : Interp.wideWord.InRange kind.word.minimum ∧ Interp.wideWord.InRange kind.word.maximum := by
    cases kind <;> decide
  have low : icmp .slt (BitVec.ofInt 128 n) (BitVec.ofInt 128 kind.word.minimum) = decide (n < kind.word.minimum) :=
    wide_less wide bounds.1
  have high : icmp .sgt (BitVec.ofInt 128 n) (BitVec.ofInt 128 kind.word.maximum) = decide (kind.word.maximum < n) :=
    wide_less bounds.2 wide
  have narrow : trunc kind.word.width (BitVec.ofInt 128 n) = register (.integer kind) n :=
    trunc_bits (by cases kind <;> decide) n
  have out : (decide (n < kind.word.minimum) || decide (kind.word.maximum < n)) = !decide (kind.word.InRange n) := by
    rw [Bool.eq_iff_iff, Bool.or_eq_true, decide_eq_true_iff, decide_eq_true_iff, Bool.not_eq_true', decide_eq_false_iff_not,
      Word.InRange]
    omega
  have unfolded : emitI128RangeTrunc (.integer kind) (BitVec.ofInt 128 n) = (do
      trapIf (icmp .slt (BitVec.ofInt 128 n) (BitVec.ofInt 128 kind.word.minimum) ||
        icmp .sgt (BitVec.ofInt 128 n) (BitVec.ofInt 128 kind.word.maximum)) .numericOverflow
      .ok (trunc kind.word.width (BitVec.ofInt 128 n))) := rfl
  rw [unfolded, low, high, narrow, out]
  exact checked_emits n

/-! ### Shifts -/

theorem uge_width {width : Nat} (few : width ≤ 64) (low : 0 ≤ m) (high : m < 2 ^ 64) :
    icmp .uge (BitVec.ofInt 64 m) (BitVec.ofNat 64 width) = decide ((width : Int) ≤ m) := by
  have first : IntegerType.uint64.word.InRange width := (inRange_unsigned rfl).2 ⟨by omega, by
    show (width : Int) < 2 ^ 64
    omega⟩
  have second : IntegerType.uint64.word.InRange m := (inRange_unsigned rfl).2 ⟨low, high⟩
  have bits : BitVec.ofNat 64 width = IntegerType.uint64.word.bits width := (BitVec.ofInt_natCast 64 width).symm
  rw [bits]
  exact lessEqual_bits first second

theorem shift_guard {right : Ty} (unsigned : isUnsigned right = true → 0 ≤ m ∧ m < 2 ^ 64)
    (signed : isUnsigned right = false → -2 ^ 63 ≤ m ∧ m < 2 ^ 63) {width : Nat} (few : width ≤ 64) :
    (!isUnsigned right && icmp .slt (BitVec.ofInt 64 m) 0 || icmp .uge (BitVec.ofInt 64 m) (BitVec.ofNat 64 width)) =
      decide (m < 0 ∨ width ≤ m) := by
  cases sign : isUnsigned right with
  | true =>
    have bounds := unsigned sign
    rw [uge_width few bounds.1 bounds.2]
    simp only [Bool.not_true, Bool.false_and, Bool.false_or, decide_eq_decide]
    omega
  | false =>
    have bounds := signed sign
    have inRange : IntegerType.int64.word.InRange m := (inRange_signed rfl).2 bounds
    have negative : icmp .slt (BitVec.ofInt 64 m) 0 = decide (m < 0) := (@icmp_zero .int64 m rfl inRange).1
    rw [negative]
    by_cases below : m < 0
    · simp [below]
    · rw [uge_width few (by omega) (by omega)]
      simp [below]

theorem operand_bounds {ty : Ty} (inRange : (word ty).InRange n) :
    (isUnsigned ty = true → 0 ≤ n ∧ n < 2 ^ 64) ∧ (isUnsigned ty = false → -2 ^ 63 ≤ n ∧ n < 2 ^ 63) := by
  have both : -2 ^ 63 ≤ n ∧ n < 2 ^ 64 := @Interp.bounds (integerKind ty) n inRange
  rw [isUnsigned_eq]
  constructor
  · intro unsigned
    have sign : (word ty).signed = false := (Bool.not_eq_true' _).mp unsigned
    have natural := (inRange_unsigned sign).1 inRange
    omega
  · intro signed
    have sign : (word ty).signed = true := (Bool.not_eq_false' _).mp signed
    have bounds := (inRange_signed sign).1 inRange
    have half : (2 : Int) ^ ((word ty).width - 1) ≤ 2 ^ 63 := by
      have width := width_le ty
      exact_mod_cast Nat.pow_le_pow_right (show 0 < 2 by decide) (show (word ty).width - 1 ≤ 63 by omega)
    omega

theorem amount_toNat {count : Nat} (few : count < 64) : (zext 128 (BitVec.ofInt 64 (count : Int))).toNat = count := by
  rw [zext, BitVec.ofInt_natCast, BitVec.toNat_setWidth, BitVec.toNat_ofNat]
  omega

theorem trunc_lshr {width count : Nat} (narrow : width ≤ 128) (bits : BitVec width) :
    trunc width (zext 128 bits >>> count) = bits >>> count := by
  apply BitVec.eq_of_toNat_eq
  have less := bits.isLt
  have most : 2 ^ width ≤ 2 ^ 128 := Nat.pow_le_pow_right (by decide) narrow
  have shifted : bits.toNat >>> count ≤ bits.toNat := by
    rw [Nat.shiftRight_eq_div_pow]
    exact Nat.div_le_self _ _
  rw [trunc, zext, BitVec.toNat_setWidth, BitVec.toNat_ushiftRight, BitVec.toNat_setWidth, BitVec.toNat_ushiftRight,
    Nat.mod_eq_of_lt (show bits.toNat < 2 ^ 128 by omega), Nat.mod_eq_of_lt (by omega)]

section

variable {left right : Ty} (value : kind.word.width ≤ (word left).width) (first : (word left).InRange n)
  (second : (word right).InRange m)

include second in
theorem emitShift_eq (operator : Operator) (x : Register left) :
    emitShift operator left right (.integer kind) x (register right m) = (do
      trapIf (decide (m < 0 ∨ kind.width ≤ m)) .invalidShiftCount
      let amount : BitVec 128 := zext 128 (BitVec.ofInt 64 m)
      if operator = .shr then do
        let bits : Register (.integer kind) := trunc _ x
        let raw ← lshr (zext 128 bits) amount
        .ok (trunc _ raw)
      else do
        let raw ← shl (emitCastInteger left 128 x) amount
        emitI128RangeTrunc (.integer kind) raw) := by
  have count : emitCastInteger right 64 (register right m) = BitVec.ofInt 64 m := emitCastInteger_register fun _ => second
  have bounds := operand_bounds second
  have guard := shift_guard bounds.1 bounds.2 (width_le (.integer kind))
  have width : ((word (.integer kind)).width : Int) = kind.width := congrArg Int.ofNat (Interp.width_eq kind)
  rw [width] at guard
  rw [← guard, emitShift, count]

include second in
theorem emitShift_count (operator : Operator) (x : Register left) (outside : m < 0 ∨ kind.width ≤ m) :
    emitShift operator left right (.integer kind) x (register right m) = .error (.trap .invalidShiftCount) := by
  rw [emitShift_eq second, decide_eq_true outside]
  rfl

include value second in
theorem emitShift_right {count : Nat} (same : m = count) (few : count < kind.width) :
    emitShift .shr left right (.integer kind) (register left n) (register right m) = .ok (kind.word.bits n >>> count) := by
  have most := Interp.width_le kind
  have inside : ¬(m < 0 ∨ kind.width ≤ m) := by omega
  have bits : trunc (word (.integer kind)).width (register left n) = kind.word.bits n := trunc_bits value n
  have amount := amount_toNat (show count < 64 by omega)
  have raw : lshr (zext 128 (kind.word.bits n)) (zext 128 (BitVec.ofInt 64 (count : Int))) =
      (.ok (zext 128 (kind.word.bits n) >>> count) : Code (BitVec 128)) := by
    rw [lshr, amount, if_neg (by omega)]
  rw [emitShift_eq second, decide_eq_false inside, same, bits]
  show (lshr (zext 128 (kind.word.bits n)) (zext 128 (BitVec.ofInt 64 (count : Int))) >>= fun raw =>
    .ok (trunc kind.word.width raw) : Code (Register (.integer kind))) = _
  rw [raw]
  exact congrArg Except.ok (trunc_lshr (by rw [Interp.width_eq]; omega) _)

include first second in
theorem emitShift_left {count : Nat} (same : m = count) (few : count < kind.width) :
    emitShift .shl left right (.integer kind) (register left n) (register right m) =
      emitI128RangeTrunc (.integer kind) (BitVec.ofInt 128 (n * 2 ^ count)) := by
  have most := Interp.width_le kind
  have inside : ¬(m < 0 ∨ kind.width ≤ m) := by omega
  have bits : emitCastInteger left 128 (register left n) = BitVec.ofInt 128 n := emitCastInteger_register fun _ => first
  have amount := amount_toNat (show count < 64 by omega)
  have raw : shl (BitVec.ofInt 128 n) (zext 128 (BitVec.ofInt 64 (count : Int))) =
      (.ok (BitVec.ofInt 128 (n * 2 ^ count)) : Code (BitVec 128)) := by
    have moved : BitVec.ofInt 128 (n * 2 ^ count) = BitVec.ofInt 128 n <<< count :=
      @Word.bits_shiftLeft Interp.wideWord n count
    rw [shl, amount, if_neg (by omega), moved]
  rw [emitShift_eq second, decide_eq_false inside, bits, same]
  show (shl (BitVec.ofInt 128 n) (zext 128 (BitVec.ofInt 64 (count : Int))) >>= fun raw =>
    emitI128RangeTrunc (.integer kind) raw : Code (Register (.integer kind))) = _
  rw [raw]
  rfl

include value first second in
theorem emitShift_emits {operator : Operator} (shifts : operator = .shl ∨ operator = .shr)
    (inRange : kind.word.InRange n) (closed : ¬(operator = .shr ∧ m = 0 ∧ n < 0)) :
    ∃ outcome, Interp.Answers kind (Interp.integerBinary operator n m (.integer kind)) outcome ∧
      Emits kind (emitShift operator left right (.integer kind) (register left n) (register right m)) outcome := by
  by_cases outside : m < 0 ∨ kind.width ≤ m
  · rw [emitShift_count second operator _ outside]
    rcases shifts with rfl | rfl
    · exact ⟨_, Interp.shift_count true outside, .invalidShiftCount⟩
    · exact ⟨_, Interp.shift_count false outside, .invalidShiftCount⟩
  · obtain ⟨count, same⟩ := Int.eq_ofNat_of_zero_le (show 0 ≤ m by omega)
    have few : count < kind.width := by omega
    rcases shifts with rfl | rfl
    · have wide : Interp.wideWord.InRange (n * 2 ^ count) := wide_inRange.2 (Interp.shift_bounds inRange few)
      rw [emitShift_left first second same few]
      refine ⟨_, ?_, emitI128RangeTrunc_emits wide⟩
      have answers := Interp.checkedInteger_some kind (n * 2 ^ count)
      rw [← Interp.checkedShl_eq inRange few] at answers
      rw [Interp.integerBinary, Interp.shift_eq, if_neg outside, if_pos rfl, same, Int.toNat_natCast]
      exact answers
    · have clear : 0 < count ∨ 0 ≤ n := by
        by_contra other
        exact closed ⟨rfl, by omega, by omega⟩
      rw [emitShift_right value second same few, same]
      refine ⟨_, Interp.shift_right inRange few clear, ?_⟩
      have bits := Word.bits_value (kind.word.bits n >>> count)
      nth_rewrite 1 [← bits]
      exact .value

include value second in
theorem emitShift_open (inRange : kind.word.InRange n) (none_ : m = 0) (negative : n < 0) :
    Interp.Answers kind (Interp.integerBinary .shr n m (.integer kind)) .overflow ∧
      emitShift .shr left right (.integer kind) (register left n) (register right m) = .ok (register (.integer kind) n) := by
  have positive : 0 < kind.width := by cases kind <;> decide
  have same : m = ((0 : Nat) : Int) := none_
  constructor
  · have signed : kind.word.signed = true := by
      by_contra unsigned
      have natural := (inRange_unsigned (Bool.eq_false_iff.2 unsigned)).1 inRange
      omega
    have bounds := (inRange_signed signed).1 inRange
    have narrow : kind.word.width < 128 := by
      have := Interp.width_le kind
      rw [Interp.width_eq]
      omega
    have whole : (2 : Int) ^ kind.word.width = 2 * 2 ^ (kind.word.width - 1) := by
      cases kind <;> rfl
    have bits : ((kind.word.bits n >>> 0).toNat : Int) = n + 2 ^ kind.word.width := by
      rw [Word.toNat_shiftRight, pow_zero, Int.ediv_one, ← Int.add_emod_right, Int.emod_eq_of_lt (by omega) (by omega)]
    have outside : ¬kind.word.InRange (n + 2 ^ kind.word.width) := by
      rw [inRange_signed signed]
      omega
    have answers := Interp.checkedInteger_some kind (n + 2 ^ kind.word.width)
    rw [exact, if_neg outside] at answers
    have inside : ¬(m < 0 ∨ kind.width ≤ m) := by omega
    rw [Interp.integerBinary, Interp.shift_eq, if_neg inside, if_neg (fun same => by cases same), same, Int.toNat_natCast, ← Interp.width_eq,
      Word.toInt_shiftRight n 0 narrow, bits]
    exact answers
  · rw [emitShift_right value second same positive]
    rfl

end

end

end BasicNext.Native
