import BasicNext.Interp.IntegerSemantics
import BasicNext.Semantic.CountedFor

/-!
# The counted FOR of the interpreter

The loop that a counted `FOR` is lowered to, on the values of the interpreter (`bn_interp::executor`). It
visits the integers from the start by the step that are within the end and within the type of the variable.
-/

namespace BasicNext.Interp

open Lib
open Semantic (CountedFor HoldsInteger integerRange_iff)

/-- `$for_condition(current, end, step)` -/
def forCondition (current stop step : Value) : Result := do
  let (current, _) ← integer current
  let (stop, _) ← integer stop
  let (step, _) ← integer step
  if step = 0 then .error (.invalidForStep "FOR STEP cannot be zero")
  else .ok (.boolean (if 0 < step then current ≤ stop else stop ≤ current))

/-- `$for_fits(current, step)`: `current + step` stays inside the type of `current`. -/
def forFits (current step : Value) : Result := do
  let (current, kind) ← integer current
  let (step, _) ← integer step
  .ok (.boolean ((checkedAdd current step).any fun sum => (integerRange kind).1 ≤ sum && sum ≤ (integerRange kind).2))

/-- `boolean`: the condition of a branch. -/
def boolean : Value → Except RuntimeError Bool
  | .boolean value => .ok value
  | _ => .error (.typeMismatch "BOOLEAN" "non-BOOLEAN value" "boolean operation")

/-- The store of a value into a variable of an integer type (`coerce`). -/
def storeInteger (kind : IntegerType) : Value → Result
  | .integer value _ => checkedInteger (some value) (.integer kind)
  | _ => .error (.typeMismatch "IR destination type" "runtime value" "IR coercion")

def forLoop (kind : IntegerType) (stop step : Value) : CountedLoop Value RuntimeError where
  test current := do boolean (← forCondition current stop step)
  fits current := do boolean (← forFits current step)
  advance current := do storeInteger kind (← binary .plus current step (.integer kind) {} none)

/-- The interpreter runs the bodies for these values: the IR is valid, the start is stored, the loop ends. -/
def ForRuns (module : Ir.Module) (header : CountedFor) (start stop step : Value) (visited : List Value) : Prop :=
  header.validated module = true ∧
    ∃ initial, storeInteger header.kind start = .ok initial ∧ (forLoop header.kind stop step).Runs initial visited

section

variable {kind : IntegerType} {start stop step n : Int}

theorem checkedInteger_inRange (inRange : kind.word.InRange n) :
    checkedInteger (some n) (.integer kind) = .ok (.integer n kind) := by
  rw [Semantic.checkedInteger_eq, if_pos inRange]

theorem storeInteger_inRange (source : IntegerType) (inRange : kind.word.InRange n) :
    storeInteger kind (.integer n source) = .ok (.integer n kind) := checkedInteger_inRange inRange

variable {stopKind stepKind : IntegerType}

theorem forLoop_test (nonzero : step ≠ 0) (n : Int) :
    (forLoop kind (.integer stop stopKind) (.integer step stepKind)).test (.integer n kind) =
      .ok (decide (Within step stop n)) := by
  have condition : forCondition (.integer n kind) (.integer stop stopKind) (.integer step stepKind) =
      .ok (.boolean (decide (Within step stop n))) := by
    show (if step = 0 then _ else Except.ok (Value.boolean (if 0 < step then n ≤ stop else stop ≤ n))) = _
    rw [if_neg nonzero]
    congr 2
    by_cases positive : 0 < step
    · rw [if_pos positive, decide_eq_decide, Within, if_pos positive]
    · rw [if_neg positive, decide_eq_decide, Within, if_neg positive]
  exact congrArg (Except.bind · boolean) condition

theorem forLoop_fits (n step : Int) :
    (forLoop kind (.integer stop stopKind) (.integer step stepKind)).fits (.integer n kind) =
      .ok (decide (kind.word.InRange (n + step))) := by
  have condition : forFits (.integer n kind) (.integer step stepKind) =
      .ok (.boolean (decide (kind.word.InRange (n + step)))) := by
    show Except.ok (Value.boolean ((i128 (n + step)).any _)) = _
    cases sum : i128 (n + step) with
    | none => rw [Option.any_none, decide_eq_false (i128_eq_none sum)]
    | some value =>
      obtain rfl := (i128_eq_some.1 sum).2
      rw [Option.any_some, ← Bool.decide_and]
      exact congrArg (fun inside => Except.ok (Value.boolean inside)) (decide_eq_decide.2 integerRange_iff)
  exact congrArg (Except.bind · boolean) condition

theorem forLoop_advance (inRange : kind.word.InRange (n + step)) :
    (forLoop kind (.integer stop stopKind) (.integer step stepKind)).advance (.integer n kind) =
      .ok (.integer (n + step) kind) := by
  have range := bounds inRange
  have sum : binary .plus (.integer n kind) (.integer step stepKind) (.integer kind) {} none =
      .ok (.integer (n + step) kind) := by
    show checkedInteger (i128 (n + step)) (.integer kind) = _
    rw [i128_eq (by omega) (by omega)]
    exact checkedInteger_inRange inRange
  exact (congrArg (Except.bind · (storeInteger kind)) sum).trans (storeInteger_inRange kind inRange)

theorem forLoop_visits (header : CountedFor) (nonzero : step ≠ 0) (first : header.kind.word.InRange start) :
    (forLoop header.kind (.integer stop stopKind) (.integer step stepKind)).Visits (.integer start header.kind)
      ((header.values start step stop).map (Value.integer · header.kind)) := by
  apply CountedLoop.visits_progression (Value.integer · header.kind) header.kind.word.InRange
  · exact fun n _ => forLoop_test nonzero n
  · exact fun n _ => forLoop_fits n step
  · exact first
  · exact fun _ _ n _ => forLoop_advance
  · exact CountedFor.lt_count nonzero first

theorem forRuns {module : Ir.Module} {header : CountedFor} {startKind : IntegerType} (accepted : header.accepted = true)
    (validated : header.validated module = true) (holds : HoldsInteger header.start start) (nonzero : step ≠ 0) :
    ForRuns module header (.integer start startKind) (.integer stop stopKind) (.integer step stepKind)
      ((header.values start step stop).map (Value.integer · header.kind)) := by
  have first := CountedFor.start_inRange accepted validated holds
  exact ⟨validated, _, storeInteger_inRange startKind first, (forLoop_visits header nonzero first).runs⟩

end

end BasicNext.Interp
