import BasicNext.Lib.Transition
import Mathlib.Logic.Function.Basic

/-!
# Threads over a shared state

A program gives, for a thread with a local state, the effect of one atomic step on the shared state and
on the local state; some steps signal, which changes the local states of the other threads by `wake`. A
property that consists of a part about the shared state and a part about each thread is proved
by two obligations: the thread that steps establishes its own part, and no step breaks the part of
another thread.
-/

namespace BasicNext.Lib

variable {ι σ τ α : Type*}

structure Program (ι σ τ α : Type*) where
  act : ι → σ → τ → α → Option (σ × τ)
  /-- Whether the step of a thread wakes the other threads. -/
  signals : τ → α → Bool
  wake : τ → τ

structure Config (ι σ τ : Type*) where
  shared : σ
  locals : ι → τ

variable [DecidableEq ι]

namespace Program

variable (program : Program ι σ τ α)

/-- Thread `label.1` performs `label.2`. -/
def next (config : Config ι σ τ) (label : ι × α) : Option (Config ι σ τ) :=
  (program.act label.1 config.shared (config.locals label.1) label.2).map fun (shared, state) =>
    { shared
      locals := Function.update
        (if program.signals (config.locals label.1) label.2 then program.wake ∘ config.locals
          else config.locals) label.1 state }

def system (start : Config ι σ τ) : System (Config ι σ τ) (ι × α) := .ofPartial start program.next

variable {program} {config config' : Config ι σ τ} {thread : ι} {action : α}

theorem next_eq_some : program.next config (thread, action) = some config' ↔
    ∃ shared state, program.act thread config.shared (config.locals thread) action
        = some (shared, state)
      ∧ config' = ⟨shared, Function.update
          (if program.signals (config.locals thread) action then program.wake ∘ config.locals
            else config.locals) thread state⟩ := by
  simp only [next, Option.map_eq_some_iff, Prod.exists]
  exact exists₂_congr fun _ _ => and_congr_right fun _ => eq_comm

theorem next_locals (h : program.next config (thread, action) = some config') :
    ∃ state, program.act thread config.shared (config.locals thread) action
        = some (config'.shared, state)
      ∧ config'.locals thread = state
      ∧ ∀ other, other ≠ thread → config'.locals other
          = if program.signals (config.locals thread) action then program.wake (config.locals other)
            else config.locals other := by
  obtain ⟨shared, state, act, rfl⟩ := next_eq_some.1 h
  refine ⟨state, act, Function.update_self _ _ _, fun other differs => ?_⟩
  simp only [Function.update_of_ne differs]
  split <;> rfl

theorem locals_of_run {P : τ → Prop} (woken : ∀ state, P state → P (program.wake state))
    {labels : List (ι × α)} {config config' : Config ι σ τ} {thread : ι}
    (absent : thread ∉ labels.map Prod.fst) (before : P (config.locals thread))
    (run : labels.foldlM program.next config = some config') : P (config'.locals thread) := by
  induction labels generalizing config with
  | nil =>
    obtain rfl : config = config' := by simpa using run
    exact before
  | cons label labels ih =>
    rw [List.map_cons, List.mem_cons, not_or] at absent
    rw [List.foldlM_cons] at run
    obtain ⟨middle, first, rest⟩ := Option.bind_eq_some_iff.1 run
    refine ih absent.2 ?_ rest
    obtain ⟨state, -, -, others⟩ := next_locals first
    rw [others thread absent.1]
    split
    · exact woken _ before
    · exact before

/-- A property of the shared state and one of every thread. -/
structure Holds (G : σ → Prop) (L : ι → σ → τ → Prop) (config : Config ι σ τ) : Prop where
  shared : G config.shared
  thread : ∀ thread, L thread config.shared (config.locals thread)

theorem holds_of_reachable {start : Config ι σ τ} {allows : Config ι σ τ → ι × α → Prop}
    {G : σ → Prop} {L : ι → σ → τ → Prop}
    (base : Holds G L start)
    (own : ∀ config thread action shared state, Holds G L config → allows config (thread, action) →
      program.act thread config.shared (config.locals thread) action = some (shared, state) →
      G shared ∧ L thread shared state)
    (others : ∀ config thread action shared state, Holds G L config → allows config (thread, action) →
      program.act thread config.shared (config.locals thread) action = some (shared, state) →
      ∀ other, other ≠ thread → L other shared (config.locals other))
    (woken : ∀ thread shared state, L thread shared state → L thread shared (program.wake state))
    (reached : ((program.system start).restrict allows).Reachable config) : Holds G L config := by
  refine reached.invariant (fun state initial => ?_) ?_
  · rw [show state = start from initial]
    exact base
  · rintro config ⟨thread, action⟩ config' holds ⟨allowed, move⟩
    obtain ⟨state, act, self, rest⟩ := next_locals move
    obtain ⟨shared, here⟩ := own config thread action _ _ holds allowed act
    refine ⟨shared, fun other => ?_⟩
    by_cases same : other = thread
    · rw [same, self]
      exact here
    · have kept := others config thread action _ _ holds allowed act other same
      rw [rest other same]
      split
      · exact woken _ _ _ kept
      · exact kept

end Program

end BasicNext.Lib
