import BasicNext.Semantic.Compatible
import BasicNext.Interp.Executor

/-!
# Types of integer operations

The type that the analyzer gives to an operation on two integers (`bn_frontend::semantic::type_ops`), and
which integers it compares. Two constants that reach no destination take `INT32`. The type of an operation
holds the integers of both operands.
-/

namespace BasicNext.Semantic

def isUnsigned : IntegerType → Bool
  | .byte | .uint16 | .uint32 | .uint64 => true
  | _ => false

def integerWidth : Ty → Nat
  | .integer kind => kind.width
  | .integerLiteral _ => 32
  | _ => 0

def widestSigned (left right : IntegerType) : IntegerType :=
  if integerWidth (.integer right) ≤ integerWidth (.integer left) then left else right

def promoteIntegers (left right : IntegerType) : Option IntegerType :=
  if left = right then some left
  else if left = .byte then
    some (if isUnsigned right then right else widestSigned .int16 right)
  else if right = .byte then
    some (if isUnsigned left then left else widestSigned left .int16)
  else
    match isUnsigned left, isUnsigned right with
    | true, true =>
      some (if integerWidth (.integer right) ≤ integerWidth (.integer left) then left else right)
    | false, false => some (widestSigned left right)
    | _, _ => none

def integerKindForRange (minimum maximum : Int) : Option IntegerType :=
  [IntegerType.int32, .int64, .uint64].find? fun kind =>
    (integerRange kind).1 ≤ minimum && maximum ≤ (integerRange kind).2

def integerResult : Ty → Ty → Option Ty
  | .integerLiteral left, .integerLiteral right => do
    let left ← parseInteger left
    let right ← parseInteger right
    (integerKindForRange (min left right) (max left right)).map .integer
  | .integer kind, .integerLiteral value | .integerLiteral value, .integer kind =>
    if integerLiteralFits value kind then some (.integer kind) else none
  | .integer left, .integer right => (promoteIntegers left right).map .integer
  | _, _ => none

/-- `comparable`, without the floating-point types. -/
def comparable (left right : Ty) : Bool :=
  compatible left right || compatible right left || (integerResult left right).isSome

/-- `settle_undestined_operands`: two constants that no destination checks are `INT32`. -/
def settled : Ty → Ty → Bool
  | .integerLiteral left, .integerLiteral right =>
    integerLiteralFits left .int32 && integerLiteralFits right .int32
  | _, _ => true

/-- The comparisons of integers that the analyzer accepts. -/
def comparesIntegers (operator : Interp.Operator) (left right : Ty) : Bool :=
  settled left right &&
    match operator with
    | .assign | .notEqual => comparable left right
    | .less | .lessEqual | .greater | .greaterEqual => (integerResult left right).isSome
    | _ => false

def defaultLiteralType : Ty → Ty
  | .integerLiteral _ => .integer .int32
  | .floatLiteral => .float .float64
  | ty => ty

def constantIntegerFromType : Ty → Option Int
  | .integerLiteral text => parseInteger text
  | _ => none

/-- A shift by a constant count moves the bits by less than the width. -/
def countFits (result : Ty) (count : Int) : Bool := 0 ≤ count && count < integerWidth result

/-- `binary_type` of an operation that answers an integer. The left operand of a shift is settled for
itself, and a constant count is one of its width; a negative constant exponent makes a power no integer. -/
def integerOperation (operator : Interp.Operator) (left right : Ty) : Option Ty :=
  match operator with
  | .plus | .minus | .star | .div | .percent | .and | .or | .xor =>
    if settled left right then integerResult left right else none
  | .power =>
    if settled left right && (constantIntegerFromType right).all (0 ≤ ·) then integerResult left right else none
  | .shl | .shr =>
    let result := defaultLiteralType left
    if settled left left && (constantIntegerFromType right).all (countFits result) then some result else none
  | _ => none

theorem promoteIntegers_comm (left right : IntegerType) : promoteIntegers left right = promoteIntegers right left := by
  cases left <;> cases right <;> rfl

theorem integerResult_comm (left right : Ty) : integerResult left right = integerResult right left := by
  cases left with
  | integer left =>
    cases right with
    | integer right => rw [integerResult, integerResult, promoteIntegers_comm]
    | _ => rfl
  | integerLiteral text =>
    cases right with
    | integerLiteral text' =>
      rw [integerResult, integerResult]
      cases parseInteger text with
      | none => cases parseInteger text' <;> rfl
      | some n =>
        cases parseInteger text' with
        | none => rfl
        | some m =>
          simp only [Option.bind_eq_bind, Option.bind_some]
          rw [Int.min_comm, Int.max_comm]
    | _ => rfl
  | _ => cases right <;> rfl

/-! ### Ranges -/

/-- The integers that an operand of a type stands for; a literal stands for one. -/
def HoldsInteger : Ty → Int → Prop
  | .integer kind, n => kind.word.InRange n
  | .integerLiteral text, n => parseInteger text = some n
  | _, _ => False

theorem integerRange_iff {kind : IntegerType} {n : Int} :
    ((integerRange kind).1 ≤ n ∧ n ≤ (integerRange kind).2) ↔ kind.word.InRange n := by
  cases kind <;> exact Iff.rfl

theorem checkedInteger_eq (kind : IntegerType) (n : Int) :
    Interp.checkedInteger (some n) (.integer kind) = if kind.word.InRange n then .ok (.integer n kind)
      else .error (.numericOverflow ("converting " ++ toString n ++ " to " ++ kind.name)) :=
  if_congr integerRange_iff rfl rfl

theorem integerLiteralFits_iff {text : String} {kind : IntegerType} {n : Int}
    (value : parseInteger text = some n) : integerLiteralFits text kind = true ↔ kind.word.InRange n := by
  rw [integerLiteralFits, value, ← integerRange_iff]
  simp only [Bool.and_eq_true, decide_eq_true_eq]

theorem inRange_of_bounds {small large : IntegerType} (low : large.word.minimum ≤ small.word.minimum)
    (high : small.word.maximum ≤ large.word.maximum) {n : Int} (inRange : small.word.InRange n) :
    large.word.InRange n :=
  ⟨Int.le_trans low inRange.1, Int.le_trans inRange.2 high⟩

theorem promoteIntegers_holds {left right kind : IntegerType} (promoted : promoteIntegers left right = some kind)
    {n : Int} : (left.word.InRange n → kind.word.InRange n) ∧ (right.word.InRange n → kind.word.InRange n) := by
  have bounds : (kind.word.minimum ≤ left.word.minimum ∧ left.word.maximum ≤ kind.word.maximum) ∧
      kind.word.minimum ≤ right.word.minimum ∧ right.word.maximum ≤ kind.word.maximum := by
    revert promoted
    cases left <;> cases right <;> cases kind <;> decide
  exact ⟨inRange_of_bounds bounds.1.1 bounds.1.2, inRange_of_bounds bounds.2.1 bounds.2.2⟩

theorem integerResult_holds {left right ty : Ty} (result : integerResult left right = some ty) {n m : Int}
    (first : HoldsInteger left n) (second : HoldsInteger right m) :
    ∃ kind, ty = .integer kind ∧ kind.word.InRange n ∧ kind.word.InRange m := by
  cases left with
  | integer left =>
    cases right with
    | integer right =>
      obtain ⟨kind, promoted, rfl⟩ := Option.map_eq_some_iff.1 result
      have holds := promoteIntegers_holds promoted (n := n)
      exact ⟨kind, rfl, holds.1 first, (promoteIntegers_holds promoted).2 second⟩
    | integerLiteral text =>
      obtain ⟨fits, same⟩ := Option.ite_none_right_eq_some.1 result
      exact ⟨left, (Option.some.inj same).symm, first, (integerLiteralFits_iff second).1 fits⟩
    | _ => exact second.elim
  | integerLiteral text =>
    cases right with
    | integer right =>
      obtain ⟨fits, same⟩ := Option.ite_none_right_eq_some.1 result
      exact ⟨right, (Option.some.inj same).symm, (integerLiteralFits_iff first).1 fits, second⟩
    | integerLiteral text' =>
      have first : parseInteger text = some n := first
      have second : parseInteger text' = some m := second
      simp only [integerResult, first, second, Option.bind_eq_bind, Option.bind_some] at result
      obtain ⟨kind, found, rfl⟩ := Option.map_eq_some_iff.1 result
      have inside := List.find?_some found
      simp only [Bool.and_eq_true, decide_eq_true_eq] at inside
      refine ⟨kind, rfl, integerRange_iff.1 ?_, integerRange_iff.1 ?_⟩
      · omega
      · omega
    | _ => exact second.elim
  | _ => exact first.elim

theorem promoteIntegers_self (kind : IntegerType) : promoteIntegers kind kind = some kind := if_pos rfl

theorem integerResult_settled {text text' : String} {n m : Int} (fits : integerLiteralFits text .int32 = true)
    (fits' : integerLiteralFits text' .int32 = true) (first : parseInteger text = some n)
    (second : parseInteger text' = some m) :
    integerResult (.integerLiteral text) (.integerLiteral text') = some (.integer .int32) := by
  have low := integerRange_iff.2 ((integerLiteralFits_iff first).1 fits)
  have high := integerRange_iff.2 ((integerLiteralFits_iff second).1 fits')
  have inside : integerKindForRange (min n m) (max n m) = some .int32 := by
    apply List.find?_cons_of_pos
    simp only [Bool.and_eq_true, decide_eq_true_eq]
    omega
  simp only [integerResult, first, second, Option.bind_eq_bind, Option.bind_some]
  rw [inside]
  rfl

theorem comparesIntegers_result {operator : Interp.Operator} {left right : Ty} {n m : Int}
    (accepted : comparesIntegers operator left right = true) (first : HoldsInteger left n) (second : HoldsInteger right m) :
    ∃ kind, integerResult left right = some (.integer kind) := by
  obtain ⟨settles, accepts⟩ := Bool.and_eq_true_iff.1 accepted
  have compares : comparable left right = true := by
    cases operator with
    | assign | notEqual => exact accepts
    | less | lessEqual | greater | greaterEqual =>
      have accepts : (integerResult left right).isSome = true := accepts
      rw [comparable, accepts, Bool.or_true]
    | _ => cases accepts
  suffices some_ : (integerResult left right).isSome = true by
    obtain ⟨ty, result⟩ := Option.isSome_iff_exists.1 some_
    obtain ⟨kind, rfl, _⟩ := integerResult_holds result first second
    exact ⟨kind, result⟩
  rw [comparable, Bool.or_eq_true, Bool.or_eq_true] at compares
  cases left with
  | integer left =>
    cases right with
    | integer right =>
      rcases compares with (same | same) | result
      · have equal : right = left := by simpa [compatible, allMembers] using same
        rw [equal, integerResult, promoteIntegers_self]
        rfl
      · have equal : left = right := by simpa [compatible, allMembers] using same
        rw [equal, integerResult, promoteIntegers_self]
        rfl
      · exact result
    | integerLiteral text =>
      rcases compares with (fits | never) | result
      · have fits : integerLiteralFits text left = true := fits
        rw [integerResult, if_pos fits]
        rfl
      · cases never
      · exact result
    | _ => exact second.elim
  | integerLiteral text =>
    cases right with
    | integer right =>
      rcases compares with (never | fits) | result
      · cases never
      · have fits : integerLiteralFits text right = true := fits
        rw [integerResult, if_pos fits]
        rfl
      · exact result
    | integerLiteral text' =>
      obtain ⟨fits, fits'⟩ := Bool.and_eq_true_iff.1 settles
      rw [integerResult_settled fits fits' first second]
      rfl
    | _ => exact second.elim
  | _ => exact first.elim

end BasicNext.Semantic
