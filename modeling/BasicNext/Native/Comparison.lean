import BasicNext.Native.Registers
import BasicNext.Interp.IntegerSemantics

/-!
# Comparisons of integers in native code

A comparison brings both operands to the wider of their two types, the left one for types of one width, and
compares with the sign of that type (`bn_llvm::llvm::binary`). The analyzer compares integers whose types
have a common type; that type is wider than both for `BYTE` with `INT8`, and native code does not use it.
Where one operand is outside of the type that is used, it is read as another integer.
-/

namespace BasicNext.Native

open Lib Lib.Llvm
open Interp (Operator)
open Semantic (HoldsInteger comparesIntegers integerResult integerResult_comm)

def widerIntegerType (left right : Ty) : Ty :=
  if (word left).width < (word right).width then right else left

/-- `integer_compare_cond`, for the operators that compare. -/
def integerCompareCond (operator : Operator) (ty : Ty) : Option Predicate :=
  match operator, isUnsigned ty with
  | .less, false => some .slt
  | .less, true => some .ult
  | .lessEqual, false => some .sle
  | .lessEqual, true => some .ule
  | .greater, false => some .sgt
  | .greater, true => some .ugt
  | .greaterEqual, false => some .sge
  | .greaterEqual, true => some .uge
  | .assign, _ => some .eq
  | .notEqual, _ => some .ne
  | _, _ => none

/-- The comparison of two integers that `emit_runtime_binary` emits. -/
def emitComparison (operator : Operator) (left right : Ty) (x : Register left) (y : Register right) :
    Option Bool :=
  let common := widerIntegerType left right
  (integerCompareCond operator common).map fun predicate =>
    icmp predicate (coerceToType left common x) (coerceToType right common y)

/-! ### What is compared -/

/-- A comparison of two integers. -/
def compares (operator : Operator) (n m : Int) : Option Bool :=
  match operator with
  | .less => some (n < m)
  | .lessEqual => some (n ≤ m)
  | .greater => some (m < n)
  | .greaterEqual => some (m ≤ n)
  | .assign => some (n = m)
  | .notEqual => some (n ≠ m)
  | _ => none

variable {operator : Operator} {n m : Int}

theorem icmp_bits {ty : Ty} {word : Word} (sign : isUnsigned ty = !word.signed)
    (first : word.InRange n) (second : word.InRange m) :
    (integerCompareCond operator ty).map (fun predicate => icmp predicate (word.bits n) (word.bits m)) =
      compares operator n m := by
  cases operator with
  | less =>
    have condition : integerCompareCond .less ty = some (if word.signed then .slt else .ult) := by
      rw [integerCompareCond.eq_def, sign]
      cases word.signed <;> rfl
    rw [condition]
    exact congrArg some (less_bits first second)
  | lessEqual =>
    have condition : integerCompareCond .lessEqual ty = some (if word.signed then .sle else .ule) := by
      rw [integerCompareCond.eq_def, sign]
      cases word.signed <;> rfl
    rw [condition]
    exact congrArg some (lessEqual_bits first second)
  | greater =>
    have condition : integerCompareCond .greater ty = some (if word.signed then .sgt else .ugt) := by
      rw [integerCompareCond.eq_def, sign]
      cases word.signed <;> rfl
    rw [condition]
    exact congrArg some ((greater_swap _ _ _).trans (less_bits second first))
  | greaterEqual =>
    have condition : integerCompareCond .greaterEqual ty = some (if word.signed then .sge else .uge) := by
      rw [integerCompareCond.eq_def, sign]
      cases word.signed <;> rfl
    rw [condition]
    exact congrArg some ((greaterEqual_swap _ _ _).trans (lessEqual_bits second first))
  | assign => exact congrArg some (eq_bits first second)
  | notEqual => exact congrArg some (ne_bits first second)
  | _ => rfl

theorem icmp_register {ty : Ty} (first : (word ty).InRange n) (second : (word ty).InRange m) :
    (integerCompareCond operator ty).map (fun predicate => icmp predicate (register ty n) (register ty m)) =
      compares operator n m := icmp_bits (isUnsigned_eq ty) first second

theorem extension_kept {left right : Ty} {kind : IntegerType} {n : Int}
    (result : integerResult left right = some (.integer kind)) (holds : HoldsInteger left n) :
    ((word left).width < (word right).width →
      (word left).InRange n ∧ (isUnsigned right = true → isUnsigned left = true)) := by
  cases left with
  | integer left =>
    cases right with
    | integer right =>
      obtain ⟨_, promoted, _⟩ := Option.map_eq_some_iff.1 result
      have promotes := Option.isSome_of_eq_some promoted
      intro wider
      refine ⟨holds, ?_⟩
      clear holds result promoted
      revert wider promotes
      cases left <;> cases right <;> decide
    | integerLiteral text => exact fun _ => ⟨holds, fun unsigned => nomatch unsigned⟩
    | _ => cases result
  | integerLiteral text => exact fun wider => absurd wider (Nat.not_lt.2 (width_le right))
  | _ => cases result

theorem emitComparison_eq {left right : Ty} {kind : IntegerType}
    (result : integerResult left right = some (.integer kind)) (first : HoldsInteger left n) (second : HoldsInteger right m) :
    emitComparison operator left right (register left n) (register right m) =
      compares operator (read (widerIntegerType left right) n) (read (widerIntegerType left right) m) := by
  have left_ : coerceToType left (widerIntegerType left right) (register left n) =
      register (widerIntegerType left right) n := by
    apply coerceToType_register
    rw [widerIntegerType]
    split
    · exact extension_kept result first
    · exact fun narrow => absurd narrow (Nat.lt_irrefl _)
  have right_ : coerceToType right (widerIntegerType left right) (register right m) =
      register (widerIntegerType left right) m := by
    apply coerceToType_register
    rw [widerIntegerType]
    split
    · exact fun narrow => absurd narrow (Nat.lt_irrefl _)
    · exact extension_kept (integerResult_comm left right ▸ result) second
  rw [emitComparison, left_, right_, ← register_read _ n, ← register_read _ m]
  exact icmp_register (Word.inRange_value _) (Word.inRange_value _)

/-! ### Where the operands are read as they are -/

/-- Integers outside of the type of a comparison are read as others. -/
def Misread (operator : Operator) : Ty → Ty → Int → Int → Prop
  | .integer .byte, .integer .int8, n, m =>
    m < 0 ∧ match operator with
      | .assign | .notEqual => n - 256 = m
      | .less | .greaterEqual => n - 256 < m
      | _ => n - 256 ≤ m
  | .integer .int8, .integer .byte, n, m =>
    128 ≤ m ∧ match operator with
      | .assign | .notEqual => n = m - 256
      | .less | .greaterEqual => m - 256 ≤ n
      | _ => m - 256 < n
  | .integerLiteral _, .integer .uint64, n, m =>
    operator ≠ .assign ∧ operator ≠ .notEqual ∧ ¬(n < 2 ^ 63 ↔ m < 2 ^ 63)
  | _, _, _, _ => False

section

variable {operator : Operator} {left right : Ty} {kind : IntegerType} {n m : Int}

theorem emitComparison_inRange (result : integerResult left right = some (.integer kind))
    (first : HoldsInteger left n) (second : HoldsInteger right m)
    (kept : (word (widerIntegerType left right)).InRange n) (kept' : (word (widerIntegerType left right)).InRange m) :
    emitComparison operator left right (register left n) (register right m) = compares operator n m := by
  rw [emitComparison_eq result first second, read_eq kept, read_eq kept']

theorem wider_inRange {left right : IntegerType}
    (result : integerResult (.integer left) (.integer right) = some (.integer kind))
    (one : ¬(left = .byte ∧ right = .int8)) (other : ¬(left = .int8 ∧ right = .byte))
    (first : left.word.InRange n) (second : right.word.InRange m) :
    (word (widerIntegerType (.integer left) (.integer right))).InRange n ∧
      (word (widerIntegerType (.integer left) (.integer right))).InRange m := by
  have promotes : (integerResult (.integer left) (.integer right)).isSome = true := Option.isSome_of_eq_some result
  have wider : word (widerIntegerType (.integer left) (.integer right)) =
      (if left.word.width < right.word.width then right else left).word := by
    by_cases less : left.word.width < right.word.width
    · rw [if_pos less]
      exact congrArg word (if_pos less)
    · rw [if_neg less]
      exact congrArg word (if_neg less)
  rw [wider]
  generalize common : (if left.word.width < right.word.width then right else left) = ty
  have bounds : (ty.word.minimum ≤ left.word.minimum ∧ left.word.maximum ≤ ty.word.maximum) ∧
      ty.word.minimum ≤ right.word.minimum ∧ right.word.maximum ≤ ty.word.maximum := by
    clear first second result wider
    revert promotes one other
    rw [← common]
    cases left <;> cases right <;> decide
  exact ⟨Semantic.inRange_of_bounds bounds.1.1 bounds.1.2 first, Semantic.inRange_of_bounds bounds.2.1 bounds.2.2 second⟩

theorem not_misread {left right : IntegerType} (one : ¬(left = .byte ∧ right = .int8))
    (other : ¬(left = .int8 ∧ right = .byte)) : ¬Misread operator (.integer left) (.integer right) n m := by
  cases left <;> cases right <;> simp [Misread] at one other ⊢

theorem inRange_byte : (word (.integer .byte)).InRange n ↔ 0 ≤ n ∧ n < 256 := by
  show (0 : Int) ≤ n ∧ n ≤ 2 ^ 8 - 1 ↔ _
  omega

theorem inRange_int8 : (word (.integer .int8)).InRange n ↔ -128 ≤ n ∧ n < 128 := by
  show (-2 ^ 7 : Int) ≤ n ∧ n ≤ 2 ^ 7 - 1 ↔ _
  omega

variable {text : String}

theorem inRange_literal : (word (.integerLiteral text)).InRange n ↔ -2 ^ 63 ≤ n ∧ n < 2 ^ 63 := by
  show (-2 ^ 63 : Int) ≤ n ∧ n ≤ 2 ^ 63 - 1 ↔ _
  omega

variable {truth : Bool}

theorem emitComparison_byte_int8 (first : IntegerType.byte.word.InRange n) (second : IntegerType.int8.word.InRange m)
    (mathematical : compares operator n m = some truth) :
    emitComparison operator (.integer .byte) (.integer .int8) (register _ n) (register _ m) = some truth ↔
      ¬Misread operator (.integer .byte) (.integer .int8) n m := by
  have low := inRange_byte.1 first
  have high := inRange_int8.1 second
  have same : read (.integer .byte) n = n := read_eq first
  have reads : read (.integer .byte) m = if m < 0 then m + 256 else m := by
    have modulus : (2 ^ 8 : Int) ∣ m - (m + 256) := ⟨-1, by omega⟩
    split
    · exact read_of_dvd (inRange_byte.2 (by omega)) modulus
    · exact read_eq (inRange_byte.2 (by omega))
  have result : integerResult (.integer .byte) (.integer .int8) = some (.integer .int16) := rfl
  have common : widerIntegerType (.integer .byte) (.integer .int8) = .integer .byte := rfl
  rw [emitComparison_eq result first second, common, same, reads, ← mathematical]
  by_cases negative : m < 0
  · rw [if_pos negative]
    cases operator <;> simp [compares, Misread] at mathematical ⊢ <;> omega
  · rw [if_neg negative]
    simp [Misread, negative]

theorem emitComparison_int8_byte (first : IntegerType.int8.word.InRange n) (second : IntegerType.byte.word.InRange m)
    (mathematical : compares operator n m = some truth) :
    emitComparison operator (.integer .int8) (.integer .byte) (register _ n) (register _ m) = some truth ↔
      ¬Misread operator (.integer .int8) (.integer .byte) n m := by
  have low := inRange_int8.1 first
  have high := inRange_byte.1 second
  have same : read (.integer .int8) n = n := read_eq first
  have reads : read (.integer .int8) m = if 128 ≤ m then m - 256 else m := by
    have modulus : (2 ^ 8 : Int) ∣ m - (m - 256) := ⟨1, by omega⟩
    split
    · exact read_of_dvd (inRange_int8.2 (by omega)) modulus
    · exact read_eq (inRange_int8.2 (by omega))
  have result : integerResult (.integer .int8) (.integer .byte) = some (.integer .int16) := rfl
  have common : widerIntegerType (.integer .int8) (.integer .byte) = .integer .int8 := rfl
  rw [emitComparison_eq result first second, common, same, reads, ← mathematical]
  by_cases large : 128 ≤ m
  · rw [if_pos large]
    cases operator <;> simp [compares, Misread] at mathematical ⊢ <;> omega
  · rw [if_neg large]
    simp [Misread, large]

theorem emitComparison_literal_uint64 (first : HoldsInteger (.integerLiteral text) n)
    (second : IntegerType.uint64.word.InRange m)
    (result : integerResult (.integerLiteral text) (.integer .uint64) = some (.integer kind))
    (mathematical : compares operator n m = some truth) :
    emitComparison operator (.integerLiteral text) (.integer .uint64) (register _ n) (register _ m) = some truth ↔
      ¬Misread operator (.integerLiteral text) (.integer .uint64) n m := by
  obtain ⟨fits, _⟩ := Option.ite_none_right_eq_some.1 result
  have inside : IntegerType.uint64.word.InRange n := (Semantic.integerLiteralFits_iff first).1 fits
  have low : 0 ≤ n ∧ n < 2 ^ 64 := ⟨inside.1, Int.lt_of_le_sub_one inside.2⟩
  have high : 0 ≤ m ∧ m < 2 ^ 64 := ⟨second.1, Int.lt_of_le_sub_one second.2⟩
  have reads (k : Int) (natural : 0 ≤ k) (less : k < 2 ^ 64) :
      read (.integerLiteral text) k = if k < 2 ^ 63 then k else k - 2 ^ 64 := by
    have modulus : (2 ^ 64 : Int) ∣ k - (k - 2 ^ 64) := ⟨1, by omega⟩
    split
    · exact read_eq (inRange_literal.2 (by omega))
    · exact read_of_dvd (inRange_literal.2 (by omega)) modulus
  have common : widerIntegerType (.integerLiteral text) (.integer .uint64) = .integerLiteral text := rfl
  rw [emitComparison_eq result first second, common, reads n low.1 low.2, reads m high.1 high.2, ← mathematical]
  cases operator <;> simp [compares, Misread] at mathematical ⊢ <;> omega

theorem literal_inRange {left : IntegerType} (first : left.word.InRange n) (inside : left.word.InRange m) :
    (word (widerIntegerType (.integer left) (.integerLiteral text))).InRange n ∧
      (word (widerIntegerType (.integer left) (.integerLiteral text))).InRange m := by
  by_cases large : left = .int64 ∨ left = .uint64
  · have common : widerIntegerType (.integer left) (.integerLiteral text) = .integer left := by
      rcases large with rfl | rfl <;> rfl
    rw [common]
    exact ⟨first, inside⟩
  · have common : widerIntegerType (.integer left) (.integerLiteral text) = .integerLiteral text := by
      cases left <;> simp at large <;> rfl
    have bounds : IntegerType.int64.word.minimum ≤ left.word.minimum ∧
        left.word.maximum ≤ IntegerType.int64.word.maximum := by
      clear first inside common
      revert large
      cases left <;> decide
    rw [common]
    exact ⟨Semantic.inRange_of_bounds bounds.1 bounds.2 first, Semantic.inRange_of_bounds bounds.1 bounds.2 inside⟩

theorem literal_inRange_left {right : IntegerType} (other : right ≠ .uint64)
    (inside : right.word.InRange n) (second : right.word.InRange m) :
    (word (widerIntegerType (.integerLiteral text) (.integer right))).InRange n ∧
      (word (widerIntegerType (.integerLiteral text) (.integer right))).InRange m := by
  have common : widerIntegerType (.integerLiteral text) (.integer right) = .integerLiteral text := by
    cases right <;> rfl
  have bounds : IntegerType.int64.word.minimum ≤ right.word.minimum ∧
      right.word.maximum ≤ IntegerType.int64.word.maximum := by
    clear inside second common
    revert other
    cases right <;> decide
  rw [common]
  exact ⟨Semantic.inRange_of_bounds bounds.1 bounds.2 inside, Semantic.inRange_of_bounds bounds.1 bounds.2 second⟩

theorem binary_compares (mathematical : compares operator n m = some truth)
    (leftKind rightKind : IntegerType) (classes : ClassModel) (pointerLength : Option Nat) :
    Interp.binary operator (.integer n leftKind) (.integer m rightKind) .boolean classes pointerLength =
      .ok (.boolean truth) := by
  cases operator with
  | assign =>
    cases mathematical
    rfl
  | notEqual =>
    cases mathematical
    rw [decide_not]
    rfl
  | less | lessEqual | greater | greaterEqual =>
    cases mathematical
    rfl
  | _ => cases mathematical

theorem comparesIntegers_compares (accepted : comparesIntegers operator left right = true) (n m : Int) :
    ∃ truth, compares operator n m = some truth := by
  obtain ⟨_, accepts⟩ := Bool.and_eq_true_iff.1 accepted
  cases operator with
  | assign | notEqual | less | lessEqual | greater | greaterEqual => exact ⟨_, rfl⟩
  | _ => cases accepts

/-- On the operands that the analyzer accepts the interpreter compares the integers, and native code gives
the same truth exactly when it does not misread one. -/
theorem comparison_agrees_iff (accepted : comparesIntegers operator left right = true)
    (first : HoldsInteger left n) (second : HoldsInteger right m) (leftKind rightKind : IntegerType)
    (classes : ClassModel) (pointerLength : Option Nat) :
    ∃ truth, compares operator n m = some truth ∧
      Interp.binary operator (.integer n leftKind) (.integer m rightKind) .boolean classes pointerLength =
        .ok (.boolean truth) ∧
      (emitComparison operator left right (register left n) (register right m) = some truth ↔
        ¬Misread operator left right n m) := by
  obtain ⟨truth, mathematical⟩ := comparesIntegers_compares accepted n m
  refine ⟨truth, mathematical, binary_compares mathematical leftKind rightKind classes pointerLength, ?_⟩
  obtain ⟨kind, result⟩ := Semantic.comparesIntegers_result accepted first second
  have kept (inside : (word (widerIntegerType left right)).InRange n ∧ (word (widerIntegerType left right)).InRange m)
      (reads : ¬Misread operator left right n m) :
      emitComparison operator left right (register left n) (register right m) = some truth ↔
        ¬Misread operator left right n m := by
    rw [emitComparison_inRange result first second inside.1 inside.2]
    exact iff_of_true mathematical reads
  cases left with
  | integer left =>
    cases right with
    | integer right =>
      by_cases one : left = .byte ∧ right = .int8
      · obtain ⟨rfl, rfl⟩ := one
        exact emitComparison_byte_int8 first second mathematical
      · by_cases other : left = .int8 ∧ right = .byte
        · obtain ⟨rfl, rfl⟩ := other
          exact emitComparison_int8_byte first second mathematical
        · exact kept (wider_inRange result one other first second) (not_misread one other)
    | integerLiteral text =>
      obtain ⟨fits, _⟩ := Option.ite_none_right_eq_some.1 result
      have inside := (Semantic.integerLiteralFits_iff second).1 fits
      exact kept (literal_inRange first inside) (by cases left <;> exact id)
    | _ => exact second.elim
  | integerLiteral text =>
    cases right with
    | integer right =>
      by_cases other : right = .uint64
      · subst other
        exact emitComparison_literal_uint64 first second result mathematical
      · obtain ⟨fits, _⟩ := Option.ite_none_right_eq_some.1 result
        have inside := (Semantic.integerLiteralFits_iff first).1 fits
        refine kept (literal_inRange_left other inside second) ?_
        cases right <;> first | exact id | exact absurd rfl other
    | integerLiteral text' =>
      obtain ⟨fits, fits'⟩ := Bool.and_eq_true_iff.1 (Bool.and_eq_true_iff.1 accepted).1
      have bounds : IntegerType.int64.word.minimum ≤ IntegerType.int32.word.minimum ∧
          IntegerType.int32.word.maximum ≤ IntegerType.int64.word.maximum := by decide
      have large := (Semantic.integerLiteralFits_iff first).1 fits
      have large' := (Semantic.integerLiteralFits_iff second).1 fits'
      refine kept ⟨?_, ?_⟩ id
      · exact Semantic.inRange_of_bounds bounds.1 bounds.2 large
      · exact Semantic.inRange_of_bounds bounds.1 bounds.2 large'
    | _ => exact second.elim
  | _ => exact first.elim

end

theorem comparison_agrees_iff_bytes :
    ∃ truth, compares .greater 200 7 = some truth ∧
      Interp.binary .greater (.integer 200 .byte) (.integer 7 .int8) .boolean {} none = .ok (.boolean truth) ∧
      (emitComparison .greater (.integer .byte) (.integer .int8) (register _ 200) (register _ 7) = some truth ↔
        ¬Misread .greater (.integer .byte) (.integer .int8) 200 7) :=
  comparison_agrees_iff (by decide) (show HoldsInteger (.integer .byte) 200 from ⟨by decide, by decide⟩)
    (show HoldsInteger (.integer .int8) 7 from ⟨by decide, by decide⟩) .byte .int8 {} none

/-- `1` of `BYTE` is not less than `-1` of `INT8`, and native code says that it is. -/
theorem int8_misread :
    ¬∀ (operator : Operator) (left right : Ty) (n m : Int), comparesIntegers operator left right = true →
      HoldsInteger left n → HoldsInteger right m →
      emitComparison operator left right (register left n) (register right m) = compares operator n m := by
  intro agrees
  have same := agrees .less (.integer .byte) (.integer .int8) 1 (-1) (by decide)
    (show IntegerType.byte.word.InRange 1 by decide) (show IntegerType.int8.word.InRange (-1) by decide)
  revert same
  decide

end BasicNext.Native
