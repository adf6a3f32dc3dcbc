import BasicNext.Lib.Except
import BasicNext.Ir.Model

/-!
# Checks and their diagnostics

A check of the validator either passes or ends in `INVALID_IR` with a message and a source range.
Its `loop`s and `while`s have no bound of their own, so each takes a number of steps and ends in
`Halt.outOfFuel` when they do not suffice: an accepted module is one some number of steps accepts.
Indexing past the end of a vector is `Halt.panicked`.
-/

namespace BasicNext.Ir

/-- An `INVALID_IR` diagnostic: the `detail` text and the primary label. -/
structure Diagnostic where
  detail : String
  span : Span
deriving DecidableEq, Repr

inductive Halt where
  | invalid (diagnostic : Diagnostic)
  | outOfFuel
  | panicked
deriving DecidableEq, Repr

abbrev Check := Except Halt

def invalidIr {α : Type} (message : String) (span : Span) : Check α := .error (.invalid ⟨message, span⟩)

/-- `if bad { return Err(invalid_ir(message, span)); }` -/
def rejectIf (bad : Bool) (message : String) (span : Span) : Check Unit :=
  if bad then invalidIr message span else .ok ()

/-- `value.ok_or_else(|| invalid_ir(message, span))?` -/
def orInvalid {α : Type} (value : Option α) (message : String) (span : Span) : Check α :=
  match value with
  | some a => .ok a
  | none => invalidIr message span

/-- `vector[index]`, or a map entry the source takes for present. -/
def inBounds {α : Type} (value : Option α) : Check α :=
  match value with
  | some a => .ok a
  | none => .error .panicked

@[simp] theorem invalidIr_ne_ok {α : Type} (message : String) (span : Span) (a : α) :
    invalidIr message span ≠ .ok a :=
  fun h => nomatch h

@[simp] theorem rejectIf_eq_ok {bad : Bool} {message : String} {span : Span} {u : Unit} :
    rejectIf bad message span = .ok u ↔ bad = false := by
  cases bad <;> simp [rejectIf]

@[simp] theorem orInvalid_eq_ok {α : Type} {value : Option α} {message : String} {span : Span}
    {a : α} : orInvalid value message span = .ok a ↔ value = some a := by
  cases value <;> simp [orInvalid]

@[simp] theorem inBounds_eq_ok {α : Type} {value : Option α} {a : α} :
    inBounds value = .ok a ↔ value = some a := by
  cases value <;> simp [inBounds]

/-- The span a module-wide diagnostic falls back to. -/
def defaultModuleSpan : Span :=
  let position : Position := { sourceId := 0, revision := 0, offset := 0, line := 1, column := 1 }
  ⟨position, position⟩

def Module.span (module : Module) : Span :=
  match module.functions.head? with
  | some function => function.span
  | none => defaultModuleSpan

end BasicNext.Ir
