import BasicNext.Native.Operators
import BasicNext.Interp.Scalars

/-!
# Casts in native code

The conversions that native code emits for `AS` (`bn_llvm::llvm::casts`): between integer types, to `BOOLEAN`
from an integer and from a `STRING`, and from a floating-point number to an integer type. An integer is
extended to 128 bits and checked against the range of its target; a floating-point number is converted to
128 bits first, which is undefined beyond them; a `STRING` is `TRUE` when its first byte is not zero.
-/

namespace BasicNext.Native

open Lib Lib.Llvm
open Interp (Scalar FloatValue cast)

/-! ### Conversions -/

def emitI128FitTrunc (target : Ty) (wide : BitVec 128) : Code (Register target) := emitI128RangeTrunc target wide

/-- `lower_cast` from an integer type to an integer type. -/
def castInteger (source target : Ty) (value : Register source) : Code (Register target) :=
  let wide : BitVec 128 := if isUnsigned source then zext 128 value else sext 128 value
  emitI128FitTrunc target wide

/-- `fptosi`: a number whose integer part does not fit is undefined. -/
def fptosi (width : Nat) : Number → Code (BitVec width)
  | .finite value =>
    if -2 ^ (width - 1) ≤ Number.truncate value ∧ Number.truncate value < 2 ^ (width - 1) then
      .ok (BitVec.ofInt width (Number.truncate value))
    else .error .undefined
  | _ => .error .undefined

def emitFloatToInteger (target : Ty) (value : Number) : Code (Register target) := do
  let nan := decide (value = .nan)
  let infinite := value.equal (.infinity false) || value.equal (.infinity true)
  trapIf (nan || infinite) .invalidNumericConversion
  let wide ← fptosi 128 value
  emitI128FitTrunc target wide

/-- `emit_to_boolean` of an integer. -/
def integerToBoolean (source : Ty) (value : Register source) : Bool := icmp .ne value 0

/-! ### Strings -/

/-- A `STRING` in memory: a header with the count of its holders and its length in bytes, and the payload,
to which its pointer points. A NUL follows the text. -/
structure StringObject where
  count : BitVec 64
  length : BitVec 64
  payload : List UInt8

def stringBytes (text : String) : List UInt8 := text.toList.flatMap String.utf8EncodeChar

def stringObject (count : BitVec 64) (text : String) : StringObject where
  count
  length := BitVec.ofNat 64 (stringBytes text).length
  payload := stringBytes text ++ [0]

def loadByte (object : StringObject) : UInt8 := object.payload.headD 0

/-- `emit_to_boolean` of a pointer. -/
def stringToBoolean (object : StringObject) : Bool := loadByte object != 0

/-! ### Integers -/

section

variable {kind source : IntegerType} {n : Int}

/-- What native code does where the interpreter answers an integer or stops. -/
inductive CastEmits (kind : IntegerType) : Interp.ScalarResult → Code (Register (.integer kind)) → Prop
  | value {n : Int} : CastEmits kind (.ok (some (.integer n kind))) (.ok (register _ n))
  | overflow {operation : String} :
    CastEmits kind (.error (.numericOverflow operation)) (.error (.trap .numericOverflow))
  | conversion {message : String} :
    CastEmits kind (.error (.invalidNumericConversion message)) (.error (.trap .invalidNumericConversion))

theorem emitI128FitTrunc_emits (wide : Interp.wideWord.InRange n) :
    CastEmits kind (Interp.ofResult (Interp.checkedInteger (some n) (.integer kind)))
      (emitI128FitTrunc (.integer kind) (BitVec.ofInt 128 n)) := by
  have emits := @emitI128RangeTrunc_emits kind n wide
  rw [emitI128FitTrunc, Semantic.checkedInteger_eq]
  rw [Interp.exact] at emits
  by_cases inRange : kind.word.InRange n
  · rw [if_pos inRange] at emits ⊢
    rw [emits_value emits]
    exact .value
  · rw [if_neg inRange] at emits ⊢
    rw [emits_overflow emits]
    exact .overflow

theorem castInteger_emits (render : Scalar → String) (inRange : source.word.InRange n) :
    CastEmits kind (cast render (.integer n source) (.integer kind))
      (castInteger (.integer source) (.integer kind) (register _ n)) := by
  have range := Interp.bounds inRange
  have wide : emitCastInteger (.integer source) 128 (register (.integer source) n) = BitVec.ofInt 128 n :=
    emitCastInteger_register fun _ => inRange
  rw [emitCastInteger, if_pos (by cases source <;> decide)] at wide
  rw [castInteger, wide]
  exact emitI128FitTrunc_emits (wide_inRange.2 (by omega))

theorem integerToBoolean_eq (render : Scalar → String) (inRange : source.word.InRange n) :
    cast render (.integer n source) .boolean =
      .ok (some (.boolean (integerToBoolean (.integer source) (register _ n)))) := by
  have zero : (0 : Register (.integer source)) = source.word.bits 0 := (BitVec.ofInt_ofNat source.word.width 0).symm
  have nonzero : icmp .ne (source.word.bits n) (source.word.bits 0) = decide (n ≠ 0) := ne_bits inRange inRange_zero
  rw [integerToBoolean, zero]
  refine Eq.trans ?_ (congrArg (fun truth => Except.ok (some (Scalar.boolean truth))) nonzero.symm)
  show Except.ok (some (Scalar.boolean (n != 0))) = _
  apply congrArg (fun truth => Except.ok (some (Scalar.boolean truth)))
  rw [Bool.eq_iff_iff, bne_iff_ne, decide_eq_true_iff]

/-! ### Floating-point numbers -/

/-- A number whose integer part fits 128 bits. -/
def Fits : Number → Prop
  | .finite value => -2 ^ 127 ≤ Number.truncate value ∧ Number.truncate value < 2 ^ 127
  | _ => True

theorem castEmits_defined {result : Interp.ScalarResult} {emitted : Code (Register (.integer kind))}
    (emits : CastEmits kind result emitted) : emitted ≠ .error .undefined := by
  cases emits <;> nofun

theorem emitFloatToInteger_iff (render : Scalar → String) (value : FloatValue) :
    CastEmits kind (cast render (.float value) (.integer kind)) (emitFloatToInteger (.integer kind) value.value) ↔
      Fits value.value := by
  obtain ⟨number, floatKind, narrowed⟩ := value
  cases number with
  | finite value =>
    have code : emitFloatToInteger (.integer kind) (.finite value) =
        (fptosi 128 (.finite value)).bind (emitI128FitTrunc (.integer kind)) := rfl
    simp only
    rw [code, fptosi]
    by_cases fits : -2 ^ (128 - 1) ≤ Number.truncate value ∧ Number.truncate value < 2 ^ (128 - 1)
    · have saturated : Interp.truncateDouble value = Number.truncate value := by
        rw [Interp.truncateDouble]
        omega
      rw [if_pos fits]
      refine iff_of_true ?_ fits
      show CastEmits kind (Interp.ofResult (Interp.checkedInteger (some (Interp.truncateDouble value)) (.integer kind)))
        (emitI128FitTrunc (.integer kind) (BitVec.ofInt 128 (Number.truncate value)))
      rw [saturated]
      exact emitI128FitTrunc_emits (wide_inRange.2 fits)
    · rw [if_neg fits]
      exact iff_of_false (fun emits => castEmits_defined emits rfl) fits
  | infinity negative => cases negative <;> exact iff_of_true .conversion trivial
  | nan => exact iff_of_true .conversion trivial

/-! ### Strings -/

def nul : Char := Char.ofNat 0

theorem byte_ne_zero {n : Nat} (low : 0 < n) (high : n < 256) : UInt8.ofNat n ≠ 0 := by
  intro zero
  have same := congrArg UInt8.toNat zero
  rw [UInt8.toNat_ofNat', Nat.mod_eq_of_lt high] at same
  exact absurd same low.ne'

theorem utf8EncodeChar_head (character : Char) (bytes : List UInt8) :
    (String.utf8EncodeChar character ++ bytes).headD 0 = 0 ↔ character = nul := by
  have value : character = nul ↔ character.val.toNat = 0 := by
    rw [← Char.val_inj, ← UInt32.toNat_inj]
    rfl
  rw [value, String.utf8EncodeChar]
  split
  next ascii =>
    show UInt8.ofNat character.val.toNat = 0 ↔ _
    constructor
    · intro zero
      by_contra nonzero
      exact byte_ne_zero (Nat.pos_of_ne_zero nonzero) (by omega) zero
    · intro zero
      rw [zero]
      rfl
  next wide =>
    refine iff_of_false ?_ (by omega)
    split
    · exact byte_ne_zero (by omega) (by omega)
    · split
      · exact byte_ne_zero (by omega) (by omega)
      · exact byte_ne_zero (by omega) (by omega)

theorem stringToBoolean_iff (render : Scalar → String) (count : BitVec 64) (text : String) :
    cast render (.string text) .boolean = .ok (some (.boolean (stringToBoolean (stringObject count text)))) ↔
      text.toList.head? ≠ some nul := by
  show Except.ok (some (Scalar.boolean (!text.isEmpty))) = _ ↔ _
  rw [Except.ok.injEq, Option.some.injEq, Scalar.boolean.injEq, stringToBoolean, loadByte]
  show (!text.isEmpty) = ((stringBytes text ++ [0]).headD 0 != 0) ↔ _
  rw [stringBytes]
  cases characters : text.toList with
  | nil =>
    obtain rfl := String.toList_eq_nil_iff.1 characters
    exact iff_of_true rfl nofun
  | cons character rest =>
    have nonempty : text.isEmpty = false := by
      rw [Bool.eq_false_iff, Ne, String.isEmpty_iff, ← String.toList_eq_nil_iff, characters]
      nofun
    have first := utf8EncodeChar_head character (rest.flatMap String.utf8EncodeChar ++ [0])
    rw [nonempty, List.flatMap_cons, List.append_assoc, List.head?_cons, Ne, Option.some.injEq, ← first, eq_comm,
      Bool.not_false, bne_iff_ne]

end

/-! ### Casts -/

/-- The scalars and targets of the conversions: integers of a type to an integer type and to `BOOLEAN`, texts
to `BOOLEAN`, floating-point numbers to an integer type. -/
def Converts : Scalar → Ty → Prop
  | .integer n source, .integer _ | .integer n source, .boolean => source.word.InRange n
  | .string _, .boolean | .float _, .integer _ => True
  | _, _ => False

/-- Native code and the interpreter end with the same value or the same failure. -/
def CastAgrees (render : Scalar → String) (value : Scalar) (target : Ty) : Prop :=
  match value, target with
  | .integer n source, .integer kind =>
    CastEmits kind (cast render value target) (castInteger (.integer source) (.integer kind) (register _ n))
  | .integer n source, .boolean =>
    cast render value target = .ok (some (.boolean (integerToBoolean (.integer source) (register _ n))))
  | .string text, .boolean =>
    ∀ count, cast render value target = .ok (some (.boolean (stringToBoolean (stringObject count text))))
  | .float value, .integer kind =>
    CastEmits kind (cast render (.float value) target) (emitFloatToInteger (.integer kind) value.value)
  | _, _ => False

/-- The integer part of a number fits 128 bits; a text does not begin with NUL. -/
def CastKept : Scalar → Ty → Prop
  | .float value, .integer _ => Fits value.value
  | .string text, .boolean => text.toList.head? ≠ some nul
  | _, _ => True

theorem cast_agrees_iff (render : Scalar → String) (value : Scalar) (target : Ty) (converts : Converts value target) :
    CastAgrees render value target ↔ CastKept value target := by
  cases value with
  | integer n source =>
    cases target with
    | integer kind => exact iff_of_true (castInteger_emits render converts) trivial
    | boolean => exact iff_of_true (integerToBoolean_eq render converts) trivial
    | _ => exact converts.elim
  | float value =>
    cases target with
    | integer kind => exact emitFloatToInteger_iff render value
    | _ => exact converts.elim
  | boolean value => exact converts.elim
  | string text =>
    cases target with
    | boolean => exact (forall_congr' fun count => stringToBoolean_iff render count text).trans (forall_const _)
    | _ => exact converts.elim

theorem cast_agrees_iff_half :
    CastAgrees (fun _ => "") (.float ⟨.finite (-7 / 2), .float64, rfl⟩) (.integer .int8) ↔
      CastKept (.float ⟨.finite (-7 / 2), .float64, rfl⟩) (.integer .int8) :=
  cast_agrees_iff (fun _ => "") (.float ⟨.finite (-7 / 2), .float64, rfl⟩) (.integer .int8) trivial

/-- A text of a NUL and a letter. -/
theorem nulText_diverges :
    ¬∀ (render : Scalar → String) (value : Scalar) (target : Ty), Converts value target → CastAgrees render value target := by
  intro agrees
  have same := agrees (fun _ => "") (.string (String.ofList [nul, 'a'])) .boolean trivial 1
  exact (stringToBoolean_iff _ 1 _).1 same rfl

end BasicNext.Native
