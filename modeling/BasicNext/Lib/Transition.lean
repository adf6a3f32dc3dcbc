import Mathlib.Logic.Basic

/-!
# Transition systems

States, initial states, and labelled steps. A property of all reachable states is proved from the
initial states and from one step; `restrict` keeps the steps a condition allows, so that a property of
the runs that meet the condition at every step is a property of the reachable states of the restricted
system.
-/

namespace BasicNext.Lib

variable {σ α : Type*}

structure System (σ α : Type*) where
  initial : σ → Prop
  step : σ → α → σ → Prop

namespace System

variable {system : System σ α}

inductive Reachable (system : System σ α) : σ → Prop
  | initial {state : σ} : system.initial state → Reachable system state
  | step {state : σ} {label : α} {next : σ} :
      Reachable system state → system.step state label next → Reachable system next

def restrict (system : System σ α) (allows : σ → α → Prop) : System σ α where
  initial := system.initial
  step state label next := allows state label ∧ system.step state label next

theorem Reachable.invariant {state : σ} (reached : system.Reachable state) {P : σ → Prop}
    (base : ∀ state, system.initial state → P state)
    (keeps : ∀ state label next, P state → system.step state label next → P next) : P state := by
  induction reached with
  | initial start => exact base _ start
  | step _ move ih => exact keeps _ _ _ ih move

theorem Reachable.of_restrict {allows : σ → α → Prop} {state : σ}
    (reached : (system.restrict allows).Reachable state) : system.Reachable state := by
  induction reached with
  | initial start => exact .initial start
  | step _ move ih => exact ih.step move.2

def ofPartial (start : σ) (next : σ → α → Option σ) : System σ α where
  initial state := state = start
  step state label state' := next state label = some state'

def ofFunction (start : σ) (next : σ → α → σ) : System σ α where
  initial state := state = start
  step state label state' := state' = next state label

theorem Reachable.foldl {start : σ} {next : σ → α → σ} {state : σ}
    (reached : (ofFunction start next).Reachable state) (labels : List α) :
    (ofFunction start next).Reachable (labels.foldl next state) := by
  induction labels generalizing state with
  | nil => exact reached
  | cons label labels ih => exact ih (reached.step rfl)

def AllowsRun (allows : σ → α → Prop) (next : σ → α → σ) : σ → List α → Prop
  | _, [] => True
  | state, label :: labels => allows state label ∧ AllowsRun allows next (next state label) labels

theorem Reachable.foldl_restrict {start : σ} {next : σ → α → σ} {allows : σ → α → Prop} {state : σ}
    (reached : ((ofFunction start next).restrict allows).Reachable state) {labels : List α}
    (allowed : AllowsRun allows next state labels) :
    ((ofFunction start next).restrict allows).Reachable (labels.foldl next state) := by
  induction labels generalizing state with
  | nil => exact reached
  | cons label labels ih => exact ih (reached.step ⟨allowed.1, rfl⟩) allowed.2

theorem foldlM_keeps {next : σ → α → Option σ} {P : σ → Prop}
    (keeps : ∀ state label state', P state → next state label = some state' → P state')
    {labels : List α} {state state' : σ} (before : P state)
    (run : labels.foldlM next state = some state') : P state' := by
  induction labels generalizing state with
  | nil =>
    obtain rfl : state = state' := by simpa using run
    exact before
  | cons label labels ih =>
    rw [List.foldlM_cons] at run
    obtain ⟨middle, first, rest⟩ := Option.bind_eq_some_iff.1 run
    exact ih (keeps _ _ _ before first) rest

theorem Reachable.foldlM {start : σ} {next : σ → α → Option σ} {labels : List α} {state state' : σ}
    (reached : (ofPartial start next).Reachable state) (run : labels.foldlM next state = some state') :
    (ofPartial start next).Reachable state' :=
  foldlM_keeps (fun _ _ _ before move => before.step move) reached run

theorem Reachable.foldlM_restrict {start : σ} {next : σ → α → Option σ} {allows : σ → α → Prop}
    {check : σ → α → Bool} (sound : ∀ state label, check state label = true → allows state label)
    {labels : List α} {state state' : σ}
    (reached : ((ofPartial start next).restrict allows).Reachable state)
    (run : labels.foldlM (fun state label => if check state label then next state label else none) state
      = some state') :
    ((ofPartial start next).restrict allows).Reachable state' := by
  refine foldlM_keeps (fun state label state' before move => ?_) reached run
  split at move
  · next checked => exact before.step ⟨sound state label checked, move⟩
  · cases move

/-! ### Runs of a partial step -/

/-- The run of `labels` from `start` is in `state` at its start, on its way or at its end. -/
def Visits (next : σ → α → Option σ) (start : σ) (labels : List α) (state : σ) : Prop :=
  ∃ taken, taken <+: labels ∧ taken.foldlM next start = some state

/-- The run of `labels` from `start` takes `label` in `state`. -/
def Takes (next : σ → α → Option σ) (start : σ) (labels : List α) (state : σ) (label : α) : Prop :=
  ∃ taken, taken ++ [label] <+: labels ∧ taken.foldlM next start = some state

section Runs

variable {next : σ → α → Option σ} {start middle state : σ} {label taken : α} {labels : List α}

theorem visits_nil : Visits next start [] state ↔ state = start := by
  constructor
  · rintro ⟨taken, isPrefix, run⟩
    rw [List.prefix_nil.1 isPrefix] at run
    simpa using run.symm
  · rintro rfl
    exact ⟨[], List.prefix_refl [], rfl⟩

theorem visits_cons (first : next start label = some middle) :
    Visits next start (label :: labels) state ↔ state = start ∨ Visits next middle labels state := by
  constructor
  · rintro ⟨taken, isPrefix, run⟩
    cases taken with
    | nil => exact .inl (by simpa using run.symm)
    | cons head rest =>
      obtain ⟨rfl, shorter⟩ := List.cons_prefix_cons.1 isPrefix
      rw [List.foldlM_cons, first] at run
      exact .inr ⟨rest, shorter, run⟩
  · rintro (rfl | ⟨rest, isPrefix, run⟩)
    · exact ⟨[], List.nil_prefix, rfl⟩
    · refine ⟨label :: rest, List.cons_prefix_cons.2 ⟨rfl, isPrefix⟩, ?_⟩
      rw [List.foldlM_cons, first]
      exact run

theorem takes_nil : ¬ Takes next start [] state label := by
  rintro ⟨before, isPrefix, -⟩
  simp at isPrefix

theorem takes_cons (first : next start label = some middle) :
    Takes next start (label :: labels) state taken
      ↔ state = start ∧ taken = label ∨ Takes next middle labels state taken := by
  constructor
  · rintro ⟨before, isPrefix, run⟩
    cases before with
    | nil =>
      obtain ⟨rfl, -⟩ := List.cons_prefix_cons.1 isPrefix
      exact .inl ⟨by simpa using run.symm, rfl⟩
    | cons head rest =>
      obtain ⟨rfl, shorter⟩ := List.cons_prefix_cons.1 isPrefix
      rw [List.foldlM_cons, first] at run
      exact .inr ⟨rest, shorter, run⟩
  · rintro (⟨rfl, rfl⟩ | ⟨rest, isPrefix, run⟩)
    · exact ⟨[], List.cons_prefix_cons.2 ⟨rfl, List.nil_prefix⟩, rfl⟩
    · refine ⟨label :: rest, List.cons_prefix_cons.2 ⟨rfl, isPrefix⟩, ?_⟩
      rw [List.foldlM_cons, first]
      exact run

theorem visits_iff_takes {Inv P : σ → Prop} {allows : σ → α → Prop}
    (keeps : ∀ state label state', Inv state → P state → next state label = some state' →
      (P state' ↔ allows state label) ∧ (allows state label → Inv state'))
    (sound : Inv start) (here : P start) (run : (labels.foldlM next start).isSome) :
    (∀ state, Visits next start labels state → P state)
      ↔ ∀ state label, Takes next start labels state label → allows state label := by
  induction labels generalizing start with
  | nil =>
    refine ⟨fun _ _ _ taken => absurd taken takes_nil, fun _ state visited => ?_⟩
    rw [visits_nil.1 visited]
    exact here
  | cons label labels ih =>
    obtain ⟨last, ends⟩ := Option.isSome_iff_exists.1 run
    rw [List.foldlM_cons] at ends
    obtain ⟨middle, first, rest⟩ := Option.bind_eq_some_iff.1 ends
    obtain ⟨exactly, kept⟩ := keeps _ _ _ sound here first
    have rest' : (labels.foldlM next middle).isSome := Option.isSome_of_mem rest
    constructor
    · intro visits state taken takes
      have there : P middle := visits _ ((visits_cons first).2 (.inr ⟨[], List.nil_prefix, rfl⟩))
      have allowed := exactly.1 there
      rcases (takes_cons first).1 takes with ⟨rfl, rfl⟩ | later
      · exact allowed
      · exact (ih (kept allowed) there rest').1
          (fun state later => visits _ ((visits_cons first).2 (.inr later))) _ _ later
    · intro takes state visited
      have allowed := takes _ _ ((takes_cons first).2 (.inl ⟨rfl, rfl⟩))
      have there := exactly.2 allowed
      rcases (visits_cons first).1 visited with rfl | later
      · exact here
      · exact (ih (kept allowed) there rest').2
          (fun state taken later => takes _ _ ((takes_cons first).2 (.inr later))) _ later

end Runs

end System

end BasicNext.Lib
