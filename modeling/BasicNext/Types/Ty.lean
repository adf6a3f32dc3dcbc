import Mathlib.Algebra.Group.Nat.Defs
import Mathlib.Data.Finset.Basic

/-!
# Language types

`Ty` is the type identity that semantic analysis, the IR and both back ends share (`bn_types::Type`).
Equality is decided by the structural comparison `Ty.beq`, which walks the nested type lists
(`Function` parameters, `Alternative` members) beside the type itself.
-/

namespace BasicNext

/-- A module of the program, by number (`bn_types::ModuleId`, a `u32`). -/
abbrev ModuleId := Nat

inductive IntegerType where
  | byte | int8 | int16 | int32 | int64 | uint16 | uint32 | uint64
deriving DecidableEq, Repr

inductive FloatType where
  | float32 | float64
deriving DecidableEq, Repr

inductive PointerLength where
  | one
  | fixed (length : Nat)
  | dynamic
deriving DecidableEq, Repr

/-- `bn_types::Type`. A vector dimension is a `u64`; `u64::MAX` stands for a dynamic one. -/
inductive Ty where
  | boolean
  | integer (kind : IntegerType)
  | integerLiteral (text : String)
  | float (kind : FloatType)
  | floatLiteral
  | string
  | null
  | notAvailable
  | endOfFile
  | hostClock
  | hostRandom
  | hostConsole
  | hostFileSystem
  | hostNet
  | hostExec
  | hostEnv
  | hostArgs
  | named (name : String)
  | typeName (name : String)
  | importedNamed (module : ModuleId) (name : String)
  | importedTypeName (module : ModuleId) (name : String)
  | module (id : ModuleId)
  | function (parameters : List Ty) (returnType : Ty)
  | vector (element : Ty) (dimensions : List Nat)
  | pointer (element : Ty) (length : PointerLength)
  | alternative (members : List Ty)
  | unknown

namespace Ty

mutual

def beq : Ty → Ty → Bool
  | boolean, boolean => true
  | integer a, integer b => a == b
  | integerLiteral a, integerLiteral b => a == b
  | float a, float b => a == b
  | floatLiteral, floatLiteral => true
  | string, string => true
  | null, null => true
  | notAvailable, notAvailable => true
  | endOfFile, endOfFile => true
  | hostClock, hostClock => true
  | hostRandom, hostRandom => true
  | hostConsole, hostConsole => true
  | hostFileSystem, hostFileSystem => true
  | hostNet, hostNet => true
  | hostExec, hostExec => true
  | hostEnv, hostEnv => true
  | hostArgs, hostArgs => true
  | named a, named b => a == b
  | typeName a, typeName b => a == b
  | importedNamed m a, importedNamed n b => m == n && a == b
  | importedTypeName m a, importedTypeName n b => m == n && a == b
  | module m, module n => m == n
  | function ps r, function qs t => beqList ps qs && beq r t
  | vector e d, vector e' d' => beq e e' && d == d'
  | pointer e l, pointer e' l' => beq e e' && l == l'
  | alternative as, alternative bs => beqList as bs
  | unknown, unknown => true
  | _, _ => false

def beqList : List Ty → List Ty → Bool
  | [], [] => true
  | a :: as, b :: bs => beq a b && beqList as bs
  | _, _ => false

end

mutual

theorem beq_iff : ∀ a b : Ty, beq a b = true ↔ a = b
  | function ps r, b => by cases b <;> simp [beq, beq_iff r, beqList_iff ps]
  | vector e d, b => by cases b <;> simp [beq, beq_iff e]
  | pointer e l, b => by cases b <;> simp [beq, beq_iff e]
  | alternative as, b => by cases b <;> simp [beq, beqList_iff as]
  | boolean, b | integer _, b | integerLiteral _, b | float _, b | floatLiteral, b | string, b
  | null, b | notAvailable, b | endOfFile, b | hostClock, b | hostRandom, b | hostConsole, b
  | hostFileSystem, b | hostNet, b | hostExec, b | hostEnv, b | hostArgs, b | named _, b
  | typeName _, b | importedNamed _ _, b | importedTypeName _ _, b | module _, b | unknown, b => by
    cases b <;> simp [beq]

theorem beqList_iff : ∀ as bs : List Ty, beqList as bs = true ↔ as = bs
  | [], bs => by cases bs <;> simp [beqList]
  | a :: as, bs => by cases bs <;> simp [beqList, beq_iff a, beqList_iff as]

end

instance : DecidableEq Ty := fun a b => decidable_of_iff _ (beq_iff a b)

end Ty

/-- `u64::MAX`, the dimension of a dynamic vector. -/
def dynamicDimension : Nat := 2 ^ 64 - 1

end BasicNext
