import BasicNext.Native.AlternativeWidening
import BasicNext.Semantic.NarrowingTests

/-!
# Values of alternative types

The values of the interpreter in the operands of native code, for static types whose names are spelled as the
values carry them. What an alternative type holds says which member the value is of: by the tag, by the flag of a
result of the runtime, or by a pointer that is `NULL` or `EOF`.
-/

namespace BasicNext.Native

open Semantic (World Inhabits InhabitsNominal)
open Interp (Value)
open Lib.Llvm (zext trunc)

/-! ### Special floating-point numbers -/

inductive Special where
  | nan | inf | minusInf
deriving DecidableEq, Repr

namespace Special

def ofTest (test : String) : Option Special :=
  if test = "NAN" then some nan else if test = "INF" then some inf else if test = "-INF" then some minusInf else none

/-- `fcmp` of 64 bits: unordered with itself, or equal to an infinity. -/
def holdsDouble : Special → BitVec 64 → Bool
  | nan, bits => bits.extractLsb' 52 11 == 0x7FF && bits.extractLsb' 0 52 != 0
  | inf, bits => bits == 0x7FF0000000000000
  | minusInf, bits => bits == 0xFFF0000000000000

/-- `fcmp` of 32 bits. -/
def holdsFloat : Special → BitVec 32 → Bool
  | nan, bits => bits.extractLsb' 23 8 == 0xFF && bits.extractLsb' 0 23 != 0
  | inf, bits => bits == 0x7F800000
  | minusInf, bits => bits == 0xFF800000

/-- A number of the interpreter. -/
def holds : Special → Float → Bool
  | nan, number => number.isNaN
  | inf, number => number == 1 / 0
  | minusInf, number => number == -1 / 0

end Special

/-- A machine whose `fpext` keeps what is special. -/
structure FloatMachine extends Machine where
  special_fpext : ∀ (special : Special) bits, special.holdsDouble (fpext bits) = special.holdsFloat bits

/-! ### Names -/

/-- `import_test_matches` -/
def importTestMatches (module : ModuleId) (name test : String) : Bool :=
  test == name || test == "#" ++ toString module ++ "." ++ name

/-- A name that programs declare or that the language gives to `Error`, `DATE`, `TIME` and `TIMEZONE`. -/
structure DeclaredName (name : String) : Prop where
  noScalar : scalarTestType name = none
  noSpecial : Special.ofTest name = none
  noUnit : name ≠ "NULL" ∧ name ≠ "NA" ∧ name ≠ "EOF"
  noBracket : '[' ∉ name.toList
  noPointer : "POINTER TO ".toList.isPrefixOf name.toList = false

/-- A type with a name that programs declare or that the language declares for them. -/
def isDeclaredType : Ty → Bool
  | .named _ | .importedNamed _ _ => true
  | _ => false

/-! ### Values in operands -/

/-- A value of the interpreter in an operand. A text, an object and a vector are what lies at the address. -/
def SameValue (ty : Ty) (value : Value) (operand : Operand) : Prop :=
  match value, operand with
  | .boolean truth, .i1 bit => bit = truth
  | .integer number _, .i8 bits => bits = BitVec.ofInt 8 number
  | .integer number _, .i16 bits => bits = BitVec.ofInt 16 number
  | .integer number _, .i32 bits => bits = BitVec.ofInt 32 number
  | .integer number _, .i64 bits => bits = BitVec.ofInt 64 number
  | .float number _, .float bits => ∀ special : Special, special.holdsFloat bits = special.holds number
  | .float number _, .double bits => ∀ special : Special, special.holdsDouble bits = special.holds number
  | .date days, .i32 bits => bits = BitVec.ofInt 32 days
  | .time milliseconds, .i32 bits => bits = BitVec.ofNat 32 milliseconds
  | .string _, .ptr _ | .null, .ptr _ | .endOfFile, .ptr _ | .function _, .ptr _ | .timeZone _, .ptr _ => True
  | .object _ _, .ptr _ | .record _ _, .ptr _ | .resource _ _, .ptr _ => True
  | .notAvailable, .optionalFloat _ => True
  | .error _ _ _ _, .handleResult error _ _ => error = true
  | .record _ _, .handleResult error pointer payload | .resource _ _, .handleResult error pointer payload =>
    error = false ∧ (if isIntegerHandleType ty then payload else pointer) ≠ 0
  | .record _ _, .statusPointer _ _ | .resource _ _, .statusPointer _ _ => True
  | .record _ _, .vector _ _ | .vector _, .vector _ _ => True
  | .pointer _ _, .vector pointer _ | .pointer _ _, .region pointer _ _ => pointer ≠ 0
  | _, _ => False

/-- The operand of a value of a type. -/
structure Represents (world : World) (machine : FloatMachine) (ty : Ty) (value : Value) (operand : Operand) : Prop where
  inhabits : Inhabits world value ty
  holds : Holds machine.toMachine ty operand
  same : SameValue ty value operand

/-- The types that values have in the intermediate code: declared names are spelled as the values carry them. -/
structure IsCanonical (world : World) (ty : Ty) : Prop where
  single : ∀ options, ty ≠ .alternative options
  named : ∀ name, ty = .named name → world.nominal name = ⟨none, name⟩ ∧ DeclaredName name
  imported : ∀ module name text, ty = .importedNamed module name ∨ ty = .importedTypeName module name →
    importTestMatches module name text = true → DeclaredName text

/-- The kinds of values with a word of their own, besides numbers and units. -/
def kindName : Value → Option String
  | .error _ _ _ _ => some "Error"
  | .date _ => some "DATE"
  | .time _ => some "TIME"
  | .timeZone _ => some "TIMEZONE"
  | _ => none

section

variable {world : World} {machine : FloatMachine} {members : List Ty} {member : Ty} {value : Value} {operand held : Operand}

theorem isCanonical_plain {ty : Ty} (single : ∀ options, ty ≠ .alternative options) (noName : isDeclaredType ty = false)
    (noType : ∀ module name, ty ≠ .importedTypeName module name) : IsCanonical world ty where
  single := single
  named name same := by
    rw [same] at noName
    cases noName
  imported module name text same := by
    rcases same with same | same
    · rw [same] at noName
      cases noName
    · exact absurd same (noType module name)

theorem inhabits_error {code : Int} {message operation cause : String} (canonical : IsCanonical world member)
    (inhabits : Inhabits world (.error code message operation cause) member) : member = .named "Error" := by
  cases member with
  | named name =>
    have nominal : world.nominal name = ⟨none, "Error"⟩ := inhabits
    rw [(canonical.named name rfl).1] at nominal
    cases nominal
    rfl
  | importedNamed module name =>
    have nominal : (⟨some module, name⟩ : Semantic.Nominal) = ⟨none, "Error"⟩ := inhabits
    cases nominal
  | alternative options => exact absurd rfl (canonical.single options)
  | boolean | integer _ | float _ | string | function _ _ =>
    obtain ⟨_, same⟩ := inhabits
    cases same
  | vector element dimensions =>
    obtain ⟨_, same, _⟩ := inhabits
    cases same
  | pointer element length =>
    obtain ⟨_, _, same, _⟩ := inhabits
    cases same
  | null | notAvailable | endOfFile | hostConsole | hostArgs => cases inhabits
  | _ => exact inhabits.elim

theorem isError_iff (canonical : IsCanonical world member) (represents : Represents world machine member value operand) :
    isErrorType member = true ↔ kindName value = some "Error" := by
  constructor
  · intro isError
    obtain ⟨record, rfl⟩ := holds_error isError represents.holds
    have same := represents.same
    cases value with
    | error => rfl
    | record | resource => cases same.1
    | _ => exact same.elim
  · intro kind
    cases value with
    | error => rw [inhabits_error canonical represents.inhabits]; rfl
    | _ => first | cases kind | (exact absurd (Option.some.inj kind) (by decide))

/-! ### Values that alternatives hold -/

/-- A value of a member that an alternative type holds, in any form that means it. -/
structure HoldsValue (world : World) (machine : FloatMachine) (members : List Ty) (member : Ty) (value : Value)
    (operand held : Operand) : Prop where
  within : member ∈ members
  represents : Represents world machine member value operand
  stored : ∃ form, stored machine.toMachine member (.alternative members) operand = .ok form ∧ SameForm member form held

theorem layout_of_holds {members : List Ty} {member : Ty} {value : Value} {operand held : Operand}
    (holds : HoldsValue world machine members member value operand held) : AlternativeLayout.of members ≠ none := by
  intro none_
  obtain ⟨form, stored_, -⟩ := holds.stored
  rw [stored, coerceOperand, holds.represents.holds.1, llvmType_alternative, none_] at stored_
  cases stored_

theorem held_form {layout : AlternativeLayout} (found : AlternativeLayout.of members = some layout) (other : layout ≠ .general)
    (alternative : IsAlternative members) (holds : HoldsValue world machine members member value operand held) :
    represent machine.toMachine layout member operand = .ok held := by
  obtain ⟨form, stored_, same⟩ := holds.stored
  rw [stored_eq found alternative holds.within holds.represents.holds] at stored_
  rcases same with rfl | ⟨-, code, first, second, third, fourth, rfl, -⟩
  · exact stored_
  · have typed := represent_type stored_
    cases layout <;> first | exact absurd rfl other | cases typed

theorem held_pointer (found : AlternativeLayout.of members = some .sentinel) (alternative : IsAlternative members)
    (holds : HoldsValue world machine members member value operand held) (canonical : IsCanonical world member) :
    ∃ address, held = .ptr address ∧ (.endOfFile ∈ members → (address = machine.eof ↔ member = .endOfFile)) ∧
      (.null ∈ members → (address = 0 ↔ member = .null)) := by
  have formed := held_form found (by decide) alternative holds
  have represents := holds.represents
  rw [represent.eq_def] at formed
  cases operand with
  | ptr address =>
    cases formed
    have known := represents.holds.2
    refine ⟨address, rfl, fun _ => ?_, fun _ => ?_⟩
    · cases member with
      | null => exact iff_of_false (fun same => machine.eof_ne_zero (same.symm.trans known)) (by rintro ⟨⟩)
      | endOfFile => exact iff_of_true known rfl
      | _ => exact iff_of_false known.2.2 (by rintro ⟨⟩)
    · cases member with
      | null => exact iff_of_true known rfl
      | endOfFile => exact iff_of_false (fun same => machine.eof_ne_zero (known.symm.trans same)) (by rintro ⟨⟩)
      | _ => exact iff_of_false known.1 (by rintro ⟨⟩)
  | handleResult error pointer payload =>
    cases formed
    rcases sentinel_form found with ⟨-, -, cover⟩ | ⟨nominal, -, isNominal_, noError, null_mem, cover⟩
    · have typed := represents.holds.1
      rcases cover member holds.within with rfl | rfl <;> cases typed
    · have typed := represents.holds.1
      rcases cover member holds.within with rfl | rfl
      · cases typed
      have noUnit := isUnit_of_nominal isNominal_
      refine ⟨_, rfl, fun within => ?_, fun _ => iff_of_false ?_ ?_⟩
      · rcases cover _ within with same | same
        · cases same
        · rw [← same] at isNominal_
          cases isNominal_
      · have same := represents.same
        cases value with
        | error =>
          have isError := (isError_iff canonical represents).2 rfl
          rw [noError] at isError
          cases isError
        | record | resource => exact same.2
        | _ => exact same.elim
      · rintro rfl
        cases noUnit
  | _ => cases formed

theorem held_region (found : AlternativeLayout.of members = some .region) (alternative : IsAlternative members)
    (holds : HoldsValue world machine members member value operand held) :
    ∃ address length, held = .vector address length ∧ (address = 0 ↔ member = .null) := by
  have formed := held_form found (by decide) alternative holds
  have represents := holds.represents
  rw [represent.eq_def] at formed
  by_cases isNull : member = .null
  · simp only [if_pos isNull] at formed
    cases formed
    exact ⟨0, 0, rfl, iff_of_true rfl isNull⟩
  · simp only [if_neg isNull] at formed
    cases operand with
    | vector pointer length =>
      cases formed
      refine ⟨pointer, length, rfl, iff_of_false ?_ isNull⟩
      have isPointer_ := (region_form found member holds.within).resolve_left isNull
      have same := represents.same
      have inhabits := represents.inhabits
      cases member with
      | pointer element declared =>
        obtain ⟨handle, code, rfl, -⟩ := inhabits
        exact same
      | _ => cases isPointer_
    | _ => cases formed

end

/-! ### A machine -/

/-- `fpext` of what is special; the other numbers keep their bits. -/
def plainExtension (bits : BitVec 32) : BitVec 64 :=
  if bits = 0x7F800000 then 0x7FF0000000000000
  else if bits = 0xFF800000 then 0xFFF0000000000000
  else if Special.nan.holdsFloat bits then 0x7FF8000000000000 + zext 64 bits
  else zext 64 bits

def plainTruncation (bits : BitVec 64) : BitVec 32 :=
  if bits = 0x7FF0000000000000 then 0x7F800000
  else if bits = 0xFFF0000000000000 then 0xFF800000
  else trunc 32 bits

theorem toNat_zext (bits : BitVec 32) : (zext 64 bits).toNat = bits.toNat := by
  rw [zext, BitVec.toNat_setWidth]
  exact Nat.mod_eq_of_lt (bits.isLt.trans (by decide))

theorem toNat_quiet (bits : BitVec 32) :
    (0x7FF8000000000000 + zext 64 bits : BitVec 64).toNat = 0x7FF8000000000000 + bits.toNat := by
  have small := bits.isLt
  rw [BitVec.toNat_add, toNat_zext]
  exact Nat.mod_eq_of_lt (by simp; omega)

theorem holdsDouble_zext (special : Special) (bits : BitVec 32) : special.holdsDouble (zext 64 bits) = false := by
  have exponent : (zext 64 bits).extractLsb' 52 11 = 0 := by
    have small := bits.isLt
    apply BitVec.eq_of_toNat_eq
    rw [BitVec.extractLsb'_toNat, toNat_zext, Nat.shiftRight_eq_div_pow]
    show bits.toNat / 2 ^ 52 % 2 ^ 11 = 0
    omega
  have other (number : BitVec 64) (high : number.extractLsb' 52 11 ≠ 0) : (zext 64 bits == number) = false := by
    rw [beq_eq_false_iff_ne]
    rintro rfl
    exact high exponent
  cases special with
  | nan =>
    rw [Special.holdsDouble, exponent]
    rfl
  | inf => exact other _ (by decide)
  | minusInf => exact other _ (by decide)

theorem holdsDouble_quiet (bits : BitVec 32) :
    Special.nan.holdsDouble (0x7FF8000000000000 + zext 64 bits) = true := by
  have small := bits.isLt
  have exponent : (0x7FF8000000000000 + zext 64 bits : BitVec 64).extractLsb' 52 11 = 0x7FF := by
    apply BitVec.eq_of_toNat_eq
    rw [BitVec.extractLsb'_toNat, toNat_quiet, Nat.shiftRight_eq_div_pow]
    show (0x7FF8000000000000 + bits.toNat) / 2 ^ 52 % 2 ^ 11 = 0x7FF
    omega
  have mantissa : (0x7FF8000000000000 + zext 64 bits : BitVec 64).extractLsb' 0 52 ≠ 0 := by
    intro same
    have known := congrArg BitVec.toNat same
    rw [BitVec.extractLsb'_toNat, toNat_quiet, Nat.shiftRight_eq_div_pow] at known
    change (0x7FF8000000000000 + bits.toNat) / 2 ^ 0 % 2 ^ 52 = 0 at known
    omega
  rw [Special.holdsDouble, exponent, bne_iff_ne.2 mantissa]
  rfl

theorem quiet_ne (bits : BitVec 32) : (0x7FF8000000000000 + zext 64 bits : BitVec 64) ≠ 0x7FF0000000000000 ∧
    (0x7FF8000000000000 + zext 64 bits : BitVec 64) ≠ 0xFFF0000000000000 := by
  have small := bits.isLt
  constructor <;> intro same <;> have known := congrArg BitVec.toNat same
  · rw [toNat_quiet] at known
    change 0x7FF8000000000000 + bits.toNat = 0x7FF0000000000000 at known
    omega
  · rw [toNat_quiet] at known
    change 0x7FF8000000000000 + bits.toNat = 0xFFF0000000000000 at known
    omega

theorem special_extension (special : Special) (bits : BitVec 32) :
    special.holdsDouble (plainExtension bits) = special.holdsFloat bits := by
  rw [plainExtension]
  split_ifs with inf minusInf nan
  · subst inf
    cases special <;> decide
  · subst minusInf
    cases special <;> decide
  · cases special with
    | nan => rw [holdsDouble_quiet, nan]
    | inf => rw [Special.holdsDouble, Special.holdsFloat, beq_eq_false_iff_ne.2 (quiet_ne bits).1, beq_eq_false_iff_ne.2 inf]
    | minusInf =>
      rw [Special.holdsDouble, Special.holdsFloat, beq_eq_false_iff_ne.2 (quiet_ne bits).2, beq_eq_false_iff_ne.2 minusInf]
  · rw [holdsDouble_zext]
    cases special with
    | nan => exact (Bool.eq_false_iff.2 nan).symm
    | inf => exact (beq_eq_false_iff_ne.2 inf).symm
    | minusInf => exact (beq_eq_false_iff_ne.2 minusInf).symm

theorem truncation_extension (bits : BitVec 32) : plainTruncation (plainExtension bits) = bits := by
  have small := bits.isLt
  rw [plainExtension]
  split_ifs with inf minusInf nan
  · rw [inf]
    decide
  · rw [minusInf]
    decide
  · rw [plainTruncation, if_neg (quiet_ne bits).1, if_neg (quiet_ne bits).2]
    apply BitVec.eq_of_toNat_eq
    rw [trunc, BitVec.toNat_setWidth, toNat_quiet]
    omega
  · have other (number : BitVec 64) (high : 2 ^ 32 ≤ number.toNat) : zext 64 bits ≠ number := by
      rintro rfl
      rw [toNat_zext] at high
      omega
    rw [plainTruncation, if_neg (other _ (by decide)), if_neg (other _ (by decide))]
    exact trunc_zext (by decide) bits

def floatMachine : FloatMachine where
  toMachine := { plainMachine with fpext := plainExtension, fptrunc := plainTruncation, fptrunc_fpext := truncation_extension }
  special_fpext := special_extension

end BasicNext.Native
