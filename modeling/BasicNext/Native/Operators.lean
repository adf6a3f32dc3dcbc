import BasicNext.Native.Power
import BasicNext.Native.Comparison

/-!
# Integer operators in both back ends

Native code yields what the interpreter yields, or stops with the same diagnostic, but for two operations: a
negative integer that is shifted to the right by no place, which only the interpreter refuses, and a power of
a constant from 2^63 on, which native code reads as a negative base.
-/

namespace BasicNext.Native

open Lib Lib.Llvm
open Interp (Operator Outcome Answers exact)
open Semantic (HoldsInteger integerResult integerResult_comm integerOperation settled)

section

variable {left right : Ty} {kind : IntegerType} {n m : Int}

theorem width_of_literal (text : String) (ty : Ty) : ¬(word (.integerLiteral text)).width < (word ty).width :=
  Nat.not_lt.2 (width_le ty)

theorem operand_coerced (result : integerResult left right = some (.integer kind)) (holds : HoldsInteger left n) :
    coerceToType left (.integer kind) (register left n) = register (.integer kind) n := by
  apply coerceToType_register
  intro wider
  cases left with
  | integer left =>
    refine ⟨holds, ?_⟩
    cases right with
    | integer right =>
      obtain ⟨_, promoted, same⟩ := Option.map_eq_some_iff.1 result
      cases same
      have minimum := (Semantic.promoteIntegers_holds promoted).1 (@inRange_minimum left.word)
      rw [isUnsigned_eq, isUnsigned_eq]
      intro unsigned
      have sign : kind.word.signed = false := (Bool.not_eq_true' _).mp unsigned
      have natural := (inRange_unsigned sign).1 minimum
      have half : (0 : Int) < 2 ^ (left.word.width - 1) := Int.pow_pos (by decide)
      cases signed : left.word.signed with
      | true =>
        rw [Word.minimum, if_pos signed] at natural
        omega
      | false => exact (Bool.not_eq_true' _).mpr signed
    | integerLiteral text =>
      obtain ⟨_, same⟩ := Option.ite_none_right_eq_some.1 result
      cases same
      exact absurd wider (Nat.lt_irrefl _)
    | _ => cases result
  | integerLiteral text => exact absurd wider (width_of_literal text _)
  | _ => exact holds.elim

variable {emitted : Code (Register (.integer kind))}

theorem emits_value (emits : Emits kind emitted (.value n)) :
    emitted = .ok (register (.integer kind) n) := by
  cases emits
  rfl

theorem emits_bits (pattern : Register (.integer kind)) : Emits kind (.ok pattern) (.value (kind.word.value pattern)) := by
  have bits : register (.integer kind) (kind.word.value pattern) = pattern := Word.bits_value pattern
  nth_rewrite 1 [← bits]
  exact .value

theorem emits_overflow (emits : Emits kind emitted .overflow) :
    emitted = .error (.trap .numericOverflow) := by
  cases emits
  rfl

theorem emits_exact_iff (emits : Emits kind emitted (exact kind n)) :
    Emits kind emitted (exact kind m) ↔ exact kind n = exact kind m := by
  refine ⟨fun other => ?_, fun same => same ▸ emits⟩
  rw [exact] at emits other ⊢
  rw [exact]
  by_cases first : kind.word.InRange n
  · by_cases second : kind.word.InRange m
    · rw [if_pos first] at emits ⊢
      rw [if_pos second] at other ⊢
      have same := Except.ok.inj ((emits_value emits).symm.trans (emits_value other))
      rw [Word.bits_injective first second same]
    · rw [if_pos first] at emits
      rw [if_neg second] at other
      cases (emits_value emits).symm.trans (emits_overflow other)
  · by_cases second : kind.word.InRange m
    · rw [if_neg first] at emits
      rw [if_pos second] at other
      cases (emits_overflow emits).symm.trans (emits_value other)
    · rw [if_neg first, if_neg second]

/-! ### Powers -/

/-- A constant that its register of 64 bits reads as negative. -/
def Wraps : Ty → Int → Prop
  | .integerLiteral _, n => 2 ^ 63 ≤ n
  | _, _ => False

/-- The operands for which the two back ends differ. -/
def Diverges (operator : Operator) (left : Ty) (n m : Int) : Prop :=
  match operator with
  | .shr => m = 0 ∧ n < 0
  | .power =>
    Wraps left n ∧ (m = 1 ∨ 2 ≤ m ∧ m < 2 ^ 32 ∧ 0 ≤ (n - 2 ^ 64) ^ m.toNat ∧ (n - 2 ^ 64) ^ m.toNat < 2 ^ 64)
  | _ => False

theorem wraps_uint64 (wraps : Wraps left n) (inRange : kind.word.InRange n) : kind = .uint64 ∧ 2 ^ 63 ≤ n := by
  cases left with
  | integerLiteral text =>
    have large : 2 ^ 63 ≤ n := wraps
    rw [Word.InRange, Word.minimum, Word.maximum] at inRange
    refine ⟨?_, large⟩
    cases kind <;> simp [IntegerType.word] at inRange ⊢ <;> omega
  | _ => exact wraps.elim

theorem read_wraps (wraps : Wraps left n) (inRange : kind.word.InRange n) : read left n = n - 2 ^ 64 := by
  have bounds := Interp.bounds inRange
  cases left with
  | integerLiteral text =>
    have large : 2 ^ 63 ≤ n := wraps
    have modulus : (2 ^ 64 : Int) ∣ n - (n - 2 ^ 64) := ⟨1, by omega⟩
    exact read_of_dvd (inRange_literal.2 (by omega)) modulus
  | _ => exact wraps.elim

theorem read_operand (holds : HoldsInteger left n) (inRange : kind.word.InRange n) (kept : ¬Wraps left n) :
    read left n = n := by
  have bounds := Interp.bounds inRange
  cases left with
  | integerLiteral text =>
    have small : ¬2 ^ 63 ≤ n := kept
    exact read_eq (inRange_literal.2 (by omega))
  | integer kind => exact read_eq holds
  | _ => exact holds.elim

theorem read_exponent (holds : HoldsInteger right m) (inRange : kind.word.InRange m) :
    (0 ≤ m ∧ m < 2 ^ 32 → read right m = m) ∧ (m < 0 ∨ 2 ^ 32 ≤ m → read right m < 0 ∨ 2 ^ 32 ≤ read right m) := by
  have bounds := Interp.bounds inRange
  by_cases wraps : Wraps right m
  · have large := (wraps_uint64 wraps inRange).2
    rw [read_wraps wraps inRange]
    omega
  · rw [read_operand holds inRange wraps]
    exact ⟨fun _ => rfl, id⟩

theorem wrapped_power (large : 2 ^ 63 ≤ n) (high : n < 2 ^ 64) (valid : 0 ≤ m ∧ m < 2 ^ 32) (wraps : Wraps left n) :
    exact .uint64 ((n - 2 ^ 64) ^ m.toNat) = exact .uint64 (n ^ m.toNat) ↔ ¬Diverges .power left n m := by
  have range (k : Int) : IntegerType.uint64.word.InRange k ↔ 0 ≤ k ∧ k < 2 ^ 64 := inRange_unsigned rfl
  rw [Diverges]
  obtain ⟨e, rfl⟩ := Int.eq_ofNat_of_zero_le valid.1
  rw [Int.toNat_natCast]
  have cases_ : e = 0 ∨ e = 1 ∨ ∃ k, e = k + 2 := by
    by_cases small : e ≤ 1
    · omega
    · exact .inr (.inr ⟨e - 2, by omega⟩)
  rcases cases_ with rfl | rfl | ⟨k, rfl⟩
  · rw [pow_zero, pow_zero]
    exact iff_of_true rfl (by omega)
  · rw [pow_one, pow_one, exact, if_neg ((range _).not.2 (by omega)), exact, if_pos ((range _).2 (by omega))]
    exact iff_of_false (fun same => by cases same) (fun agrees => agrees ⟨wraps, .inl rfl⟩)
  · have square := Int.mul_le_mul large large (by decide) (by omega)
    have power : 2 ^ 126 ≤ n ^ (k + 2) := by
      have rest : 0 < n ^ k := Int.pow_pos (by omega)
      have product := Int.mul_le_mul_of_nonneg_right (show 1 ≤ n ^ k from rest) (show 0 ≤ n * n by omega)
      rw [pow_add, pow_two]
      omega
    rw [exact, exact, if_neg ((range (n ^ (k + 2))).not.2 (by omega))]
    by_cases inside : IntegerType.uint64.word.InRange ((n - 2 ^ 64) ^ (k + 2))
    · rw [if_pos inside]
      have bounds := (range _).1 inside
      exact iff_of_false (fun same => by cases same) (fun agrees => agrees ⟨wraps, .inr ⟨by omega, valid.2, bounds⟩⟩)
    · rw [if_neg inside]
      have outside := (range _).not.1 inside
      refine iff_of_true rfl fun diverges => ?_
      rcases diverges.2 with one | two
      · omega
      · exact outside two.2.2

theorem power_agrees_iff (result : integerResult left right = some (.integer kind)) (first : HoldsInteger left n)
    (second : HoldsInteger right m) :
    ∃ outcome, Answers kind (Interp.integerBinary .power n m (.integer kind)) outcome ∧
      (Emits kind (emitIntegerPower left right (.integer kind) (register left n) (register right m)) outcome ↔
        ¬Diverges .power left n m) := by
  obtain ⟨_, same, inside, inside'⟩ := Semantic.integerResult_holds result first second
  cases same
  have exponent := read_exponent second inside'
  by_cases valid : 0 ≤ m ∧ m < 2 ^ 32
  · have reads := exponent.1 valid
    have answers : Answers kind (Interp.integerBinary .power n m (.integer kind)) (exact kind (n ^ m.toNat)) := by
      rw [Interp.integerBinary, if_pos valid.1, if_pos valid.2]
      exact Interp.checkedInteger_i128 kind (n ^ m.toNat)
    have emits : Emits kind (emitIntegerPower left right (.integer kind) (register left n) (register right m))
        (exact kind (read left n ^ m.toNat)) := by
      have power := @power_emits left right kind n m (by omega) (by omega)
      rwa [reads] at power
    refine ⟨_, answers, (emits_exact_iff emits).trans ?_⟩
    by_cases wraps : Wraps left n
    · obtain ⟨rfl, large⟩ := wraps_uint64 wraps inside
      have bounds := Interp.bounds inside
      rw [read_wraps wraps inside]
      exact wrapped_power large bounds.2 valid wraps
    · rw [read_operand first inside wraps, Diverges]
      exact iff_of_true rfl fun diverges => wraps diverges.1
  · have outside : m < 0 ∨ 2 ^ 32 ≤ m := by omega
    refine ⟨.invalidExponent, ?_, ?_⟩
    · rw [Interp.integerBinary]
      by_cases negative : 0 ≤ m
      · rw [if_pos negative, if_neg (by omega)]
        exact .invalidExponent
      · rw [if_neg negative]
        exact .invalidExponent
    · rw [invalid_exponent (exponent.2 outside), Diverges]
      exact iff_of_true .invalidExponent (by omega)

theorem power_ends (left right : Ty) (kind : IntegerType) (n m : Int) :
    ∃ outcome, Emits kind (emitIntegerPower left right (.integer kind) (register left n) (register right m)) outcome := by
  by_cases valid : 0 ≤ read right m ∧ read right m < 2 ^ 32
  · exact ⟨_, power_emits valid.1 valid.2⟩
  · rw [invalid_exponent (by omega)]
    exact ⟨_, .invalidExponent⟩

/-! ### Shifts -/

variable {operator : Operator}

theorem shift_operands (shifts : operator = .shl ∨ operator = .shr)
    (typed : integerOperation operator left right = some (.integer kind)) (first : HoldsInteger left n)
    (second : HoldsInteger right m) :
    kind.word.InRange n ∧ kind.word.width ≤ (word left).width ∧ (word left).InRange n ∧ (word right).InRange m := by
  have shape : settled left left = true ∧ Semantic.defaultLiteralType left = .integer kind ∧
      (Semantic.constantIntegerFromType right).all (Semantic.countFits (Semantic.defaultLiteralType left)) = true := by
    rcases shifts with rfl | rfl <;>
      obtain ⟨checks, same⟩ := Option.ite_none_right_eq_some.1 typed <;>
      obtain ⟨settles, counts⟩ := Bool.and_eq_true_iff.1 checks <;>
      exact ⟨settles, Option.some.inj same, counts⟩
  obtain ⟨settles, default, counts⟩ := shape
  have count : (word right).InRange m := by
    cases right with
    | integer kind => exact second
    | integerLiteral text =>
      have constant : Semantic.constantIntegerFromType (.integerLiteral text) = some m := second
      rw [default, constant] at counts
      have few : (decide (0 ≤ m) && decide (m < kind.width)) = true := counts
      rw [Bool.and_eq_true, decide_eq_true_eq, decide_eq_true_eq] at few
      have width := Interp.width_le kind
      exact inRange_literal.2 (by omega)
    | _ => exact second.elim
  cases left with
  | integer left =>
    cases default
    exact ⟨first, Nat.le_refl _, first, count⟩
  | integerLiteral text =>
    cases default
    have fits := (Semantic.integerLiteralFits_iff first).1 (Bool.and_eq_true_iff.1 settles).1
    have bounds : -2 ^ 31 ≤ n ∧ n < 2 ^ 31 := (inRange_signed rfl).1 fits
    exact ⟨fits, by show 32 ≤ 64; decide, inRange_literal.2 (by omega), count⟩
  | _ => exact first.elim

/-! ### Operators -/

theorem Emits.defined {outcome : Outcome} (emits : Emits kind emitted outcome) : emitted ≠ .error .undefined := by
  cases emits <;> exact nofun

/-- The operators whose operands are brought to the type of the operation. -/
def coercedOperators : List Operator := [.plus, .minus, .star, .div, .percent, .and, .or, .xor]

theorem coerced_operation (coerced : operator ∈ coercedOperators)
    (typed : integerOperation operator left right = some (.integer kind)) :
    integerResult left right = some (.integer kind) ∧ ¬Diverges operator left n m := by
  simp only [coercedOperators, List.mem_cons, List.not_mem_nil, or_false] at coerced
  rcases coerced with rfl | rfl | rfl | rfl | rfl | rfl | rfl | rfl <;>
    exact ⟨(Option.ite_none_right_eq_some.1 typed).2, id⟩

theorem emitRuntimeBinary_emits (coerced : operator ∈ coercedOperators)
    (result : integerResult left right = some (.integer kind)) (first : HoldsInteger left n)
    (second : HoldsInteger right m) :
    ∃ outcome emitted, Answers kind (Interp.integerBinary operator n m (.integer kind)) outcome ∧
      emitRuntimeBinary operator left right (.integer kind) (register left n) (register right m) = some emitted ∧
      Emits kind emitted outcome := by
  obtain ⟨_, same, inside, inside'⟩ := Semantic.integerResult_holds result first second
  cases same
  have lhs := operand_coerced result first
  have rhs := operand_coerced (integerResult_comm left right ▸ result) second
  simp only [coercedOperators, List.mem_cons, List.not_mem_nil, or_false] at coerced
  rcases coerced with rfl | rfl | rfl | rfl | rfl | rfl | rfl | rfl
  · obtain ⟨emitted, emits⟩ := emitCheckedIntegerOp_emits (checkedIntrinsic_plus inside inside')
    refine ⟨_, emitted, Interp.checkedInteger_i128 kind (n + m), ?_, emits.2⟩
    rw [emitRuntimeBinary, lhs, rhs, emits.1]
  · obtain ⟨emitted, emits⟩ := emitCheckedIntegerOp_emits (checkedIntrinsic_minus inside inside')
    refine ⟨_, emitted, Interp.checkedInteger_i128 kind (n - m), ?_, emits.2⟩
    rw [emitRuntimeBinary, lhs, rhs, emits.1]
  · obtain ⟨emitted, emits⟩ := emitCheckedIntegerOp_emits (checkedIntrinsic_star inside inside')
    refine ⟨_, emitted, Interp.checkedInteger_i128 kind (n * m), ?_, emits.2⟩
    rw [emitRuntimeBinary, lhs, rhs, emits.1]
  · obtain ⟨outcome, answers, emits⟩ := emitEuclideanIntegerOp_emits (.inl rfl) inside inside'
    refine ⟨outcome, _, answers, ?_, emits⟩
    rw [emitRuntimeBinary, lhs, rhs]
  · obtain ⟨outcome, answers, emits⟩ := emitEuclideanIntegerOp_emits (.inr rfl) inside inside'
    refine ⟨outcome, _, answers, ?_, emits⟩
    rw [emitRuntimeBinary, lhs, rhs]
  · refine ⟨_, _, Interp.bits_answer (· &&& ·) Word.extend_and inside inside', ?_, emits_bits _⟩
    rw [emitRuntimeBinary, lhs, rhs]
    rfl
  · refine ⟨_, _, Interp.bits_answer (· ||| ·) Word.extend_or inside inside', ?_, emits_bits _⟩
    rw [emitRuntimeBinary, lhs, rhs]
    rfl
  · refine ⟨_, _, Interp.bits_answer (· ^^^ ·) Word.extend_xor inside inside', ?_, emits_bits _⟩
    rw [emitRuntimeBinary, lhs, rhs]
    rfl

theorem emitUnary_emits (integers : operator = .minus ∨ operator = .not)
    (source : IntegerType) (inRange : kind.word.InRange n) :
    ∃ outcome emitted, Answers kind (Interp.unary operator (.integer n source) (.integer kind)) outcome ∧
      emitUnary operator (.integer kind) (register _ n) = some emitted ∧ Emits kind emitted outcome := by
  rcases integers with rfl | rfl
  · obtain ⟨emitted, emits⟩ := emitCheckedIntegerOp_emits (checkedIntrinsic_minus inRange_zero inRange)
    refine ⟨_, emitted, Interp.unary_minus source inRange, ?_, ?_⟩
    · rw [emitUnary, register_zero, emits.1]
    · rw [← Int.zero_sub]
      exact emits.2
  · cases signed : kind.word.signed with
    | true =>
      have sign : isUnsigned (.integer kind) = false := by
        rw [isUnsigned_eq, Bool.not_eq_false']
        exact signed
      have complement : register (.integer kind) n ^^^ -1 = ~~~register (.integer kind) n := xor_negOne _
      refine ⟨_, _, Interp.unary_not_signed source inRange signed, ?_, emits_bits _⟩
      rw [emitUnary, emitIntegerNot, sign, complement]
      rfl
    | false =>
      have sign : isUnsigned (.integer kind) = true := by
        rw [isUnsigned_eq, Bool.not_eq_true']
        exact signed
      refine ⟨_, _, Interp.unary_not_unsigned source inRange signed, ?_, .overflow⟩
      rw [emitUnary, emitIntegerNot, sign]
      rfl

theorem binary_agrees_iff (typed : integerOperation operator left right = some (.integer kind))
    (first : HoldsInteger left n) (second : HoldsInteger right m) :
    ∃ outcome emitted, Answers kind (Interp.integerBinary operator n m (.integer kind)) outcome ∧
      emitRuntimeBinary operator left right (.integer kind) (register left n) (register right m) = some emitted ∧
      emitted ≠ .error .undefined ∧ (Emits kind emitted outcome ↔ ¬Diverges operator left n m) := by
  by_cases coerced : operator ∈ coercedOperators
  · obtain ⟨result, agrees⟩ := coerced_operation coerced typed
    obtain ⟨outcome, emitted, answers, emitted_, emits⟩ := emitRuntimeBinary_emits coerced result first second
    exact ⟨outcome, emitted, answers, emitted_, emits.defined, iff_of_true emits agrees⟩
  cases operator with
  | plus | minus | star | div | percent | and | or | xor => exact absurd (by decide) coerced
  | power =>
    obtain ⟨_, result⟩ := Option.ite_none_right_eq_some.1 typed
    obtain ⟨outcome, answers, agrees⟩ := power_agrees_iff result first second
    obtain ⟨_, ends⟩ := power_ends left right kind n m
    exact ⟨outcome, _, answers, rfl, ends.defined, agrees⟩
  | shl =>
    obtain ⟨inRange, value, left_, right_⟩ := shift_operands (.inl rfl) typed first second
    obtain ⟨outcome, answers, emits⟩ := emitShift_emits value left_ right_ (.inl rfl) inRange (by simp)
    exact ⟨outcome, _, answers, rfl, emits.defined, iff_of_true emits id⟩
  | shr =>
    obtain ⟨inRange, value, left_, right_⟩ := shift_operands (.inr rfl) typed first second
    by_cases open_ : m = 0 ∧ n < 0
    · obtain ⟨answers, emitted⟩ := emitShift_open value right_ inRange open_.1 open_.2
      refine ⟨_, _, answers, rfl, ?_, iff_of_false ?_ fun agrees => agrees open_⟩
      · rw [emitted]
        exact nofun
      · intro emits
        cases emitted.symm.trans (emits_overflow emits)
    · obtain ⟨outcome, answers, emits⟩ :=
        emitShift_emits value left_ right_ (.inr rfl) inRange fun opened => open_ opened.2
      exact ⟨outcome, _, answers, rfl, emits.defined, iff_of_true emits open_⟩
  | _ => cases typed

end

/-- Every integer operator of native code yields what the interpreter yields, or stops with the diagnostic of
the interpreter, exactly where the operands are not of the two kinds that diverge; it never reaches an
undefined operation. -/
theorem arithmetic_agrees_iff (classes : ClassModel) (pointerLength : Option Nat) :
    (∀ (operator : Operator) (left right : Ty) (kind leftKind rightKind : IntegerType) (n m : Int),
      integerOperation operator left right = some (.integer kind) → HoldsInteger left n → HoldsInteger right m →
      ∃ outcome emitted,
        Answers kind (Interp.binary operator (.integer n leftKind) (.integer m rightKind) (.integer kind) classes
          pointerLength) outcome ∧
        emitRuntimeBinary operator left right (.integer kind) (register left n) (register right m) = some emitted ∧
        emitted ≠ .error .undefined ∧ (Emits kind emitted outcome ↔ ¬Diverges operator left n m)) ∧
    ∀ (operator : Operator) (kind source : IntegerType) (n : Int), operator = .minus ∨ operator = .not →
      kind.word.InRange n →
      ∃ outcome emitted, Answers kind (Interp.unary operator (.integer n source) (.integer kind)) outcome ∧
        emitUnary operator (.integer kind) (register _ n) = some emitted ∧ Emits kind emitted outcome := by
  refine ⟨fun operator left right kind leftKind rightKind n m typed first second => ?_, ?_⟩
  · have others : operator ∉ [.is, .assign, .notEqual, .slash] := by
      intro member
      simp only [List.mem_cons, List.not_mem_nil, or_false] at member
      rcases member with rfl | rfl | rfl | rfl <;> cases typed
    rw [Interp.binary_integers others]
    exact binary_agrees_iff typed first second
  · exact fun operator kind source n integers inRange => emitUnary_emits integers source inRange

theorem arithmetic_agrees_iff_div :
    ∃ outcome emitted,
      Answers .int16 (Interp.binary .div (.integer (-7) .int8) (.integer 2 .byte) (.integer .int16) {} none) outcome ∧
      emitRuntimeBinary .div (.integer .int8) (.integer .byte) (.integer .int16) (register _ (-7)) (register _ 2) =
        some emitted ∧
      emitted ≠ .error .undefined ∧ (Emits .int16 emitted outcome ↔ ¬Diverges .div (.integer .int8) (-7) 2) :=
  (arithmetic_agrees_iff {} none).1 .div (.integer .int8) (.integer .byte) .int16 .int8 .byte (-7) 2 (by decide)
    (show HoldsInteger (.integer .int8) (-7) from ⟨by decide, by decide⟩)
    (show HoldsInteger (.integer .byte) 2 from ⟨by decide, by decide⟩)

/-- A shift of `-1` to the right by no place. -/
theorem shiftByNone_diverges :
    ¬∀ (operator : Operator) (left right : Ty) (kind : IntegerType) (n m : Int),
      integerOperation operator left right = some (.integer kind) → HoldsInteger left n → HoldsInteger right m →
      ∀ outcome emitted, Answers kind (Interp.integerBinary operator n m (.integer kind)) outcome →
        emitRuntimeBinary operator left right (.integer kind) (register left n) (register right m) = some emitted →
        Emits kind emitted outcome := by
  intro agrees
  have inRange : IntegerType.int8.word.InRange (-1) := by decide
  have inRange' : IntegerType.int8.word.InRange 0 := by decide
  obtain ⟨answers, emitted⟩ :=
    @emitShift_open .int8 (-1) 0 (.integer .int8) (.integer .int8) (Nat.le_refl _) inRange' inRange rfl (by decide)
  have emits := agrees .shr (.integer .int8) (.integer .int8) .int8 (-1) 0 (by decide) inRange inRange' _ _ answers rfl
  cases emitted.symm.trans (emits_overflow emits)

end BasicNext.Native
