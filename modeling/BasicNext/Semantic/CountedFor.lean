import BasicNext.Semantic.NumericTypes
import BasicNext.Ir.Validate.Types
import BasicNext.Lib.CountedLoop

/-!
# Headers of the counted FOR

The analyzer's rule for the types of a header (`semantic::analyzer4::for_header`), the validator's rule for
the store of the start, and the values that the variable takes.
-/

namespace BasicNext.Semantic

/-- The types of a header; the variable has the type `kind`. -/
structure CountedFor where
  kind : IntegerType
  start : Ty
  stop : Ty
  step : Ty

namespace CountedFor

/-- A bound is an integer, and one that the program text gives belongs to the type of the variable. -/
def boundFits (kind : IntegerType) (bound : Ty) : Bool :=
  Ir.isIntegerType bound &&
    (constantIntegerFromType bound).all fun value =>
      (Interp.integerRange kind).1 ≤ value && value ≤ (Interp.integerRange kind).2

/-- The headers that the analyzer accepts. A literal step of zero, which it refuses, has no model here. -/
def accepted (header : CountedFor) : Bool :=
  boundFits header.kind header.start && boundFits header.kind header.stop && Ir.isIntegerType header.step

def validated (module : Ir.Module) (header : CountedFor) : Bool :=
  Ir.storeCompatible module header.start (.integer header.kind)

/-- The end of the values that the variable can hold. -/
def boundedStop (header : CountedFor) (step stop : Int) : Int :=
  Lib.boundedStop header.kind.word.minimum header.kind.word.maximum step stop

/-- How many values the variable takes. -/
def count (header : CountedFor) (start step stop : Int) : Nat :=
  Lib.progressionCount start step (header.boundedStop step stop)

/-- The values of the variable: those within the end that are in its type. -/
def values (header : CountedFor) (start step stop : Int) : List Int :=
  Lib.progression start step (header.count start step stop)

variable {header : CountedFor} {n : Int}

theorem boundFits_inRange {kind : IntegerType} {text : String} (fits : boundFits kind (.integerLiteral text) = true)
    (holds : HoldsInteger (.integerLiteral text) n) : kind.word.InRange n := by
  have parsed : constantIntegerFromType (.integerLiteral text) = some n := holds
  rw [boundFits, Bool.and_eq_true, parsed, Option.all_some, Bool.and_eq_true, decide_eq_true_iff,
    decide_eq_true_iff] at fits
  exact integerRange_iff.1 fits.2

theorem storeCompatible_integer (module : Ir.Module) (actual expected : IntegerType) :
    Ir.storeCompatible module (.integer actual) (.integer expected) = decide (actual = expected) := by
  cases actual <;> cases expected <;> rfl

theorem storeCompatible_literal (module : Ir.Module) (text : String) (expected : IntegerType) :
    Ir.storeCompatible module (.integerLiteral text) (.integer expected) = true := rfl

theorem validated_iff {module : Ir.Module} (integer : Ir.isIntegerType header.start = true) :
    header.validated module = true ↔ header.start = .integer header.kind ∨ ∃ text, header.start = .integerLiteral text := by
  rw [validated]
  cases start : header.start with
  | integer kind => simp [storeCompatible_integer]
  | integerLiteral text => simp [storeCompatible_literal]
  | _ =>
    rw [start] at integer
    cases integer

theorem start_inRange {module : Ir.Module} (accepted : header.accepted = true)
    (validated : header.validated module = true) (holds : HoldsInteger header.start n) :
    header.kind.word.InRange n := by
  rw [CountedFor.accepted, Bool.and_eq_true, Bool.and_eq_true] at accepted
  have integer := (Bool.and_eq_true_iff.1 accepted.1.1).1
  rcases (validated_iff integer).1 validated with same | ⟨text, same⟩
  · rw [same] at holds
    exact holds
  · rw [same] at holds accepted
    exact boundFits_inRange accepted.1.1 holds

variable {start step stop : Int}

theorem lt_count (nonzero : step ≠ 0) (first : header.kind.word.InRange start) (i : Nat) :
    i < header.count start step stop ↔
      Lib.Within step stop (start + i * step) ∧ header.kind.word.InRange (start + i * step) :=
  (Lib.lt_progressionCount nonzero).trans (Lib.within_boundedStop first i)

theorem values_inRange (nonzero : step ≠ 0) (first : header.kind.word.InRange start)
    (member : n ∈ header.values start step stop) : header.kind.word.InRange n := by
  obtain ⟨i, less, rfl⟩ := Lib.mem_progression.1 member
  exact ((lt_count nonzero first i).1 less).2

end CountedFor

end BasicNext.Semantic
