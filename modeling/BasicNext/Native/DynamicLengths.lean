import BasicNext.Interp.Vectors
import BasicNext.Native.ObjectLayout

/-!
# Lengths that a program computes

The length of a vector with a dynamic dimension and of a region (`bn_llvm::llvm::emission1`, `bn_llvm::llvm::vectors`). Native
code tests the register of a dimension as a number with a sign, whatever its type, and keeps 32 bits of it; a region
takes the length as it is coerced to `INT32`. The interpreter takes the integer.
-/

namespace BasicNext.Native

open Lib Lib.Llvm
open Interp (Defaults Failure Value runtimeError)

namespace DynamicLength

/-! ### Native code -/

/-- What is created: the length beside the pointer, the bytes at the pointer and how many of them are cleared. -/
structure Buffer where
  length : BitVec 32
  bytes : Nat
  cleared : Nat
deriving DecidableEq, Repr

/-- The element types that validation lets through in a vector with a dynamic dimension. -/
def elementSupported : LlvmType → Bool
  | .i1 | .i8 | .i16 | .i32 | .i64 | .float | .double | .ptr | .handleResult | .statusPointer => true
  | _ => false

def vectorElementBytes : LlvmType → Nat
  | .i1 | .i8 => 1
  | .i16 => 2
  | .i32 | .float => 4
  | _ => 8

/-- `Instruction::Default` of a vector with one dynamic dimension. -/
def emitDynamicDefault (kind : IntegerType) (element : LlvmType) (dimension : Register (.integer kind)) :
    Llvm.Run Failure Buffer := do
  trapIf (icmp .slt dimension 0) (runtimeError .invalidVectorDimension "vector dimension must be a non-negative size")
  let wide := (word (.integer kind)).width = 64
  -- A register of 32 bits is taken as it is.
  let length32 : BitVec 32 := if wide then trunc 32 dimension else zext 32 dimension
  let length64 : BitVec 64 := if wide then zext 64 dimension else zext 64 length32
  let cleared := length64 * BitVec.ofNat 64 (vectorElementBytes element)
  return ⟨length32, length64.toNat * (Layout.storage element).size, cleared.toNat⟩

def regionElementBytes : LlvmType → Nat
  | .i8 => 1
  | .i16 => 2
  | .i32 | .float => 4
  | .i64 | .double | .ptr => 8
  | _ => 4

def regionHeaderBytes : Nat := 16

/-- `emit_allocate` of a region: the elements lie behind a header. -/
def emitAllocate (element : LlvmType) (length : BitVec 32) : Llvm.Run Failure Buffer :=
  let bytes := zext 64 length * BitVec.ofNat 64 (regionElementBytes element)
  let all := (bytes + BitVec.ofNat 64 regionHeaderBytes).toNat
  .ok ⟨length, all - regionHeaderBytes, all - regionHeaderBytes⟩

/-- The length of `NEW T[n]`, and of `NEW T`. -/
def allocateLength : Option ((kind : IntegerType) × Register (.integer kind)) → BitVec 32
  | none => 1
  | some ⟨kind, length⟩ => coerceToType (.integer kind) (.integer .int32) length

/-! ### What is proved of a length -/

/-- Both sides create what has this length, with room for its elements, or stop with one diagnostic. -/
inductive Agree (length : Int) (elementSize : Nat) : Llvm.Run Failure Buffer → Except Failure Value → Prop
  | created {buffer : Buffer} {elements : List Value} : (buffer.length.toNat : Int) = length →
    (elements.length : Int) = length → buffer.length.toNat * elementSize ≤ buffer.bytes →
    Agree length elementSize (.ok buffer) (.ok (.vector elements))
  | stopped {failure : Failure} : Agree length elementSize (.error (.trap failure)) (.error failure)

namespace Agree

variable {length : Int} {elementSize : Nat} {buffer : Buffer} {failure : Failure} {result : Except Failure Value}

theorem length_eq (agree : Agree length elementSize (.ok buffer) result) : (buffer.length.toNat : Int) = length := by
  cases agree with
  | created equal _ _ => exact equal

theorem failure_eq (agree : Agree length elementSize (.error (.trap failure)) result) : result = .error failure := by
  cases agree
  rfl

end Agree

/-! ### Registers of lengths -/

variable {kind : IntegerType} {n : Int}

theorem slt_zero_register (inRange : kind.word.InRange n) :
    icmp .slt (register (.integer kind) n) 0 = decide (n < 0 ∨ 2 ^ (kind.word.width - 1) ≤ n) := by
  have zero : (0 : Register (.integer kind)).toInt = 0 := BitVec.toInt_zero
  rw [icmp, BitVec.slt, zero, decide_eq_decide]
  show (BitVec.ofInt kind.word.width n).toInt < 0 ↔ _
  rw [BitVec.toInt_ofInt, Int.bmod_def]
  revert inRange
  cases kind <;>
    simp only [Word.InRange, Word.minimum, Word.maximum, IntegerType.word, reduceIte, Bool.false_eq_true] <;>
    intro inRange <;> omega

variable {width : Nat}

theorem toNat_ofInt (n : Int) : ((BitVec.ofInt width n).toNat : Int) = n % 2 ^ width := by
  rw [BitVec.toNat_ofInt, Int.toNat_of_nonneg (Int.emod_nonneg n (Int.natCast_ne_zero.2 (Nat.two_pow_pos width).ne'))]
  push_cast
  rfl

theorem toNat_ofInt_of_lt (natural : 0 ≤ n) (below : n < 2 ^ width) : ((BitVec.ofInt width n).toNat : Int) = n := by
  rw [toNat_ofInt, Int.emod_eq_of_lt natural below]

theorem lt_two_pow_width (inRange : kind.word.InRange n) : n < 2 ^ kind.word.width := by
  revert inRange
  cases kind <;>
    simp only [Word.InRange, Word.minimum, Word.maximum, IntegerType.word, reduceIte, Bool.false_eq_true] <;>
    intro inRange <;> omega

theorem lt_of_narrow (inRange : kind.word.InRange n) (narrow : kind.word.width ≠ 64) : n < 2 ^ 32 := by
  have below := lt_two_pow_width inRange
  revert below narrow
  cases kind <;> simp only [IntegerType.word] <;> intro narrow below <;> omega

theorem toNat_register (inRange : kind.word.InRange n) (natural : 0 ≤ n) : ((register (.integer kind) n).toNat : Int) = n :=
  toNat_ofInt_of_lt natural (lt_two_pow_width inRange)

theorem toNat_setWidth_register (inRange : kind.word.InRange n) (natural : 0 ≤ n) (width : Nat) :
    (((register (.integer kind) n).setWidth width).toNat : Int) = n % 2 ^ width := by
  rw [BitVec.toNat_setWidth]
  push_cast
  rw [toNat_register inRange natural]

theorem length32_eq (dimension : BitVec width) :
    (if width = 64 then trunc 32 dimension else zext 32 dimension) = dimension.setWidth 32 := ite_self _

theorem toNat_length64 (inRange : kind.word.InRange n) (natural : 0 ≤ n) :
    (if kind.word.width = 64 then zext 64 (register (.integer kind) n)
      else zext 64 ((register (.integer kind) n).setWidth 32)).toNat = n.toNat := by
  have below := lt_two_pow_width inRange
  apply Int.ofNat_inj.1
  rw [Int.toNat_of_nonneg natural]
  split
  · next wide =>
    rw [zext, toNat_setWidth_register inRange natural]
    rw [wide] at below
    exact Int.emod_eq_of_lt natural below
  · next narrow =>
    have small := lt_of_narrow inRange narrow
    have half := toNat_setWidth_register inRange natural 32
    rw [zext, BitVec.toNat_setWidth]
    omega

theorem emitDynamicDefault_of_low (inRange : kind.word.InRange n) (element : LlvmType) (natural : 0 ≤ n)
    (low : n < 2 ^ (kind.word.width - 1)) : ∃ cleared, emitDynamicDefault kind element (register _ n) =
      .ok ⟨(register (.integer kind) n).setWidth 32, n.toNat * (Layout.storage element).size, cleared⟩ := by
  have passes : icmp .slt (register (.integer kind) n) 0 = false := by
    rw [slt_zero_register inRange]
    exact decide_eq_false (by omega)
  rw [← toNat_length64 inRange natural, ← length32_eq, emitDynamicDefault, passes]
  exact ⟨_, rfl⟩

theorem emitDynamicDefault_of_trap (inRange : kind.word.InRange n) (element : LlvmType)
    (trap : n < 0 ∨ 2 ^ (kind.word.width - 1) ≤ n) : emitDynamicDefault kind element (register _ n) =
      .error (.trap (runtimeError .invalidVectorDimension "vector dimension must be a non-negative size")) := by
  have stops : icmp .slt (register (.integer kind) n) 0 = true := by
    rw [slt_zero_register inRange]
    exact decide_eq_true trap
  rw [emitDynamicDefault, stops]
  rfl

/-! ### Vectors -/

variable {layout : LlvmType} {element : Ty}

theorem staticSizeOf_le (form : llvmType element = some layout)
    (supported : elementSupported layout = true) : (Interp.staticSizeOf element).getD 1 ≤ 8 := by
  cases element with
  | integer kind => cases kind <;> decide
  | float kind => cases kind <;> decide
  | named name =>
    rw [Interp.staticSizeOf]
    split <;> simp
  | vector element dimensions =>
    rw [llvmType] at form
    split at form
    · cases form
    · obtain ⟨_, _, rfl⟩ := Option.map_eq_some_iff.1 form
      cases supported
  | _ => simp [Interp.staticSizeOf]

theorem vector_agree_iff {defaults : Defaults} {value : Value}
    (inRange : kind.word.InRange n) (form : llvmType element = some layout) (supported : elementSupported layout = true)
    (has : Interp.elementDefault defaults element = .ok value) (declared : List Nat) :
    Agree n (Layout.storage layout).size (emitDynamicDefault kind layout (register _ n))
        (Interp.executeDefault defaults (.vector element declared) [] [.integer n kind]) ↔
      n < 0 ∨ n < 2 ^ (kind.word.width - 1) ∧ n < 2 ^ 32 := by
  have small : n < 2 ^ 64 := by
    have below := lt_two_pow_width inRange
    revert below
    cases kind <;> simp only [IntegerType.word] <;> intro below <;> omega
  rw [Interp.executeDefault_eq has declared kind small]
  by_cases negative : n < 0
  · rw [if_pos negative, emitDynamicDefault_of_trap inRange layout (.inl negative)]
    exact ⟨fun _ => .inl negative, fun _ => .stopped⟩
  · rw [if_neg negative]
    have natural : 0 ≤ n := by omega
    by_cases low : n < 2 ^ (kind.word.width - 1)
    · obtain ⟨cleared, emitted⟩ := emitDynamicDefault_of_low inRange layout natural low
      have length := toNat_setWidth_register inRange natural 32
      rw [emitted]
      constructor
      · intro agree
        have equal := agree.length_eq
        have below := Int.emod_lt_of_pos n (show (0 : Int) < 2 ^ 32 by decide)
        refine .inr ⟨low, ?_⟩
        omega
      · rintro (negative' | ⟨_, fits⟩)
        · omega
        · have few := staticSizeOf_le form supported
          have bytes : (Interp.staticSizeOf element).getD 1 * n.toNat ≤ 8 * 2 ^ 32 := Nat.mul_le_mul few (by omega)
          have allowed : ¬Interp.isizeMax < (Interp.staticSizeOf element).getD 1 * n.toNat := by
            rw [Interp.isizeMax]
            omega
          rw [if_neg allowed]
          rw [Int.emod_eq_of_lt natural fits] at length
          refine .created length ?_ ?_
          · rw [List.length_replicate, Int.toNat_of_nonneg natural]
          · apply Nat.mul_le_mul_right
            dsimp only
            omega
    · rw [emitDynamicDefault_of_trap inRange layout (.inr (by omega))]
      constructor
      · intro agree
        have same := agree.failure_eq
        split at same
        · cases same
        · cases same
      · rintro (negative' | ⟨low', _⟩)
        · omega
        · exact absurd low' low

/-! ### Regions -/

theorem toNat_allocateLength (inRange : kind.word.InRange n) :
    ((allocateLength (some ⟨kind, register _ n⟩)).toNat : Int) = n % 2 ^ 32 := by
  have coerced : coerceToType (.integer kind) (.integer .int32) (register _ n) = register (.integer .int32) n :=
    coerceToType_register fun _ => ⟨inRange, fun unsigned => by cases unsigned⟩
  rw [allocateLength, coerced]
  exact toNat_ofInt n

theorem regionElementBytes_le (element : LlvmType) : regionElementBytes element ≤ 8 := by
  cases element <;> decide

theorem emitAllocate_bytes (element : LlvmType) (length : BitVec 32) :
    ∃ buffer, emitAllocate element length = .ok buffer ∧ buffer.length = length ∧
      buffer.bytes = length.toNat * regionElementBytes element := by
  refine ⟨_, rfl, rfl, ?_⟩
  have few := regionElementBytes_le element
  have below := length.isLt
  have product : length.toNat * regionElementBytes element ≤ 2 ^ 32 * 8 := Nat.mul_le_mul (by omega) few
  have wide : (zext 64 length).toNat = length.toNat := by
    rw [zext, BitVec.toNat_setWidth]
    omega
  have size : (BitVec.ofNat 64 (regionElementBytes element)).toNat = regionElementBytes element := by
    rw [BitVec.toNat_ofNat]
    omega
  show (zext 64 length * BitVec.ofNat 64 (regionElementBytes element) + BitVec.ofNat 64 regionHeaderBytes).toNat -
    regionHeaderBytes = _
  rw [BitVec.toNat_add, BitVec.toNat_mul, wide, size, BitVec.toNat_ofNat]
  generalize length.toNat * regionElementBytes element = bytes at product
  simp only [regionHeaderBytes]
  omega

theorem regionElement_eq {size : Nat}
    (numeric : Interp.pointerElementSize element = some size) (form : llvmType element = some layout) :
    regionElementBytes layout = size ∧ size ≤ 8 ∧ ∃ initial, Interp.pointerElementDefault element = .ok initial := by
  cases element with
  | integer kind =>
    cases kind <;> cases numeric <;> cases form <;> exact ⟨rfl, by decide, _, rfl⟩
  | float kind =>
    cases kind <;> cases numeric <;> cases form <;> exact ⟨rfl, by decide, _, rfl⟩
  | _ => cases numeric

theorem region_agree_iff {reserves : Nat → Bool} {size : Nat}
    (inRange : kind.word.InRange n) (form : llvmType element = some layout)
    (numeric : Interp.pointerElementSize element = some size) (roomy : ∀ length < 2 ^ 32, reserves length = true) :
    Agree n size (emitAllocate layout (allocateLength (some ⟨kind, register _ n⟩)))
        ((Interp.allocateRegion reserves element [.integer n kind]).map .vector) ↔ 0 ≤ n ∧ n < 2 ^ 32 := by
  obtain ⟨bytes, few, initial, has⟩ := regionElement_eq numeric form
  obtain ⟨buffer, emitted, same, room⟩ := emitAllocate_bytes layout (allocateLength (some ⟨kind, register _ n⟩))
  have length := toNat_allocateLength inRange
  rw [← same] at length room
  rw [emitted]
  constructor
  · intro agree
    have equal := agree.length_eq
    omega
  · rintro ⟨natural, fits⟩
    rw [Interp.allocateRegion_eq numeric has kind fits roomy few, if_neg (by omega)]
    rw [Int.emod_eq_of_lt natural fits] at length
    refine .created length ?_ ?_
    · rw [List.length_replicate, Int.toNat_of_nonneg natural]
    · rw [room, bytes]

/-! ### Both -/

/-- The lengths of vectors and of regions are the same on both sides exactly in these ranges. -/
theorem agree_iff (inRange : kind.word.InRange n) :
    (∀ {defaults : Defaults} {value : Value} {element : Ty} {layout : LlvmType} (declared : List Nat),
      llvmType element = some layout → elementSupported layout = true → Interp.elementDefault defaults element = .ok value →
      (Agree n (Layout.storage layout).size (emitDynamicDefault kind layout (register _ n))
          (Interp.executeDefault defaults (.vector element declared) [] [.integer n kind]) ↔
        n < 0 ∨ n < 2 ^ (kind.word.width - 1) ∧ n < 2 ^ 32)) ∧
    (∀ {reserves : Nat → Bool} {element : Ty} {layout : LlvmType} {size : Nat}, llvmType element = some layout →
      Interp.pointerElementSize element = some size → (∀ length < 2 ^ 32, reserves length = true) →
      (Agree n size (emitAllocate layout (allocateLength (some ⟨kind, register _ n⟩)))
          ((Interp.allocateRegion reserves element [.integer n kind]).map .vector) ↔
        0 ≤ n ∧ n < 2 ^ 32)) :=
  ⟨fun declared form supported has => vector_agree_iff inRange form supported has declared, region_agree_iff inRange⟩

def plainDefaults : Defaults := ⟨fun name => .record name [], fun _ => none⟩

def everyLength : Nat → Bool := fun _ => true

theorem form_int32 : llvmType (.integer .int32) = some .i32 := rfl

theorem has_int32 : Interp.elementDefault plainDefaults (.integer .int32) = .ok (.integer 0 .int32) := rfl

theorem numeric_float64 : Interp.pointerElementSize (.float .float64) = some 8 := rfl

theorem everyLength_roomy : ∀ length < 2 ^ 32, everyLength length = true := fun _ _ => rfl

theorem agree_iff_hundred :
    Agree 100 4 (emitDynamicDefault .byte .i32 (register _ 100))
        (Interp.executeDefault plainDefaults (.vector (.integer .int32) []) [] [.integer 100 .byte]) ∧
      Agree 100 8 (emitAllocate .double (allocateLength (some ⟨.byte, register _ 100⟩)))
        ((Interp.allocateRegion everyLength (.float .float64) [.integer 100 .byte]).map .vector) := by
  have inRange : IntegerType.byte.word.InRange 100 := by decide
  obtain ⟨vector, region⟩ := agree_iff inRange
  exact ⟨(vector [] form_int32 rfl has_int32).2 (by decide), (region rfl numeric_float64 everyLength_roomy).2 (by decide)⟩

/-- A vector of 200 elements by a `BYTE`, which only the interpreter creates, and a region of -1 elements, which only native
code creates. -/
theorem not_agree :
    ¬Agree 200 4 (emitDynamicDefault .byte .i32 (register _ 200))
        (Interp.executeDefault plainDefaults (.vector (.integer .int32) []) [] [.integer 200 .byte]) ∧
      ¬Agree (-1) 8 (emitAllocate .double (allocateLength (some ⟨.int32, register _ (-1)⟩)))
        ((Interp.allocateRegion everyLength (.float .float64) [.integer (-1) .int32]).map .vector) := by
  have byte : IntegerType.byte.word.InRange 200 := by decide
  have negative : IntegerType.int32.word.InRange (-1) := by decide
  constructor
  · intro agree
    exact absurd ((vector_agree_iff byte form_int32 rfl has_int32 []).1 agree) (by decide)
  · intro agree
    exact absurd ((region_agree_iff negative rfl numeric_float64 everyLength_roomy).1 agree) (by decide)

end DynamicLength

end BasicNext.Native
