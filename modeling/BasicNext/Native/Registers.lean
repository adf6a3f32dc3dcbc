import BasicNext.Semantic.NumericTypes
import BasicNext.Lib.Llvm

/-!
# Integer registers

The registers in which native code holds integers (`bn_llvm::llvm::helpers`). A register has the width of
its type, and an integer constant has 64 bits. Operands are brought to one width by truncation or by
extension, with zeros when either type has no sign.
-/

namespace BasicNext.Native

open Lib Lib.Llvm

def isUnsigned : Ty → Bool
  | .integer .byte | .integer .uint16 | .integer .uint32 | .integer .uint64 => true
  | _ => false

def integerKind : Ty → IntegerType
  | .integer kind => kind
  | .integerLiteral _ => .int64
  | _ => .int32

/-- The word of a register: its width is that of `llvm_type`. -/
def word (ty : Ty) : Word := (integerKind ty).word

abbrev Register (ty : Ty) := BitVec (word ty).width

/-- The register that holds an integer. -/
def register (ty : Ty) (n : Int) : Register ty := (word ty).bits n

def coerceInteger {width : Nat} (target : Nat) (value : BitVec width) (unsigned : Bool) : BitVec target :=
  if width < target then if unsigned then zext target value else sext target value
  else trunc target value

def coerceToType (source target : Ty) (value : Register source) : Register target :=
  coerceInteger (word target).width value (isUnsigned target || isUnsigned source)

/-- The diagnostics that native code reports when it stops (`bn_diag::DiagId`). -/
inductive DiagId where
  | numericOverflow | divisionByZero | invalidExponent | invalidShiftCount | invalidNumericConversion
  | invalidForStep
deriving DecidableEq, Repr

/-! ### What a register is read as -/

/-- The integer as which a type reads an operand. -/
def read (ty : Ty) (n : Int) : Int := (word ty).value (register ty n)

theorem register_read (ty : Ty) (n : Int) : register ty (read ty n) = register ty n := Word.bits_value _

theorem read_eq {ty : Ty} {n : Int} (inRange : (word ty).InRange n) : read ty n = n := Word.value_bits inRange

theorem read_of_dvd {ty : Ty} {n k : Int} (inside : (word ty).InRange k)
    (multiple : (2 ^ (word ty).width : Int) ∣ n - k) : read ty n = k := by
  rw [read, register, Word.bits_eq_of_dvd multiple, Word.value_bits inside]

/-! ### What a coercion keeps -/

theorem width_le (ty : Ty) : (word ty).width ≤ 64 := by
  rw [word]
  cases integerKind ty <;> decide

theorem isUnsigned_eq (ty : Ty) : isUnsigned ty = !(word ty).signed := by
  cases ty with
  | integer kind => cases kind <;> rfl
  | _ => rfl

theorem coerceToType_register {source target : Ty} {n : Int} (kept : (word source).width < (word target).width →
      (word source).InRange n ∧ (isUnsigned target = true → isUnsigned source = true)) :
    coerceToType source target (register source n) = register target n := by
  rw [coerceToType, coerceInteger, register]
  split
  next wider =>
    obtain ⟨inRange, signs⟩ := kept wider
    have flag : (isUnsigned target || isUnsigned source) = !(word source).signed := by
      rw [← isUnsigned_eq, Bool.or_eq_right_iff_imp]
      exact signs
    rw [flag, ← extend_eq]
    exact Word.extend_bits inRange wider
  next narrow => exact trunc_bits (Nat.le_of_not_lt narrow) n

end BasicNext.Native
