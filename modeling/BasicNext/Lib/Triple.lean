import Mathlib.Logic.Basic

/-!
# Triples for programs with a state and errors

A program that changes a state and may fail. `Triple P x Q E`: from a state with `P`, the program ends
with a value and a state related by `Q`, or with an error and a state related by `E`.
-/

namespace BasicNext.Lib

variable {σ ε α β : Type}

abbrev StateExcept (σ ε α : Type) := ExceptT ε (StateM σ) α

namespace StateExcept

variable {s : σ}

theorem run_bind (x : StateExcept σ ε α) (f : α → StateExcept σ ε β) : (x >>= f).run.run s = match x.run.run s with
    | (.ok a, s') => (f a).run.run s'
    | (.error e, s') => (.error e, s') := by
  rw [ExceptT.run_bind]
  change (do match ← x.run with | .ok a => (f a).run | .error e => Pure.pure (.error e) : StateM σ (Except ε β)).run s = _
  rw [StateT.run_bind]
  change (match (x.run.run s).1 with | .ok a => (f a).run | .error e => Pure.pure (.error e) : StateM σ (Except ε β)).run
    (x.run.run s).2 = _
  generalize x.run.run s = result
  obtain ⟨e | a, s'⟩ := result <;> rfl

theorem run_get : (get : StateExcept σ ε σ).run.run s = (.ok s, s) := rfl

end StateExcept

def Triple (P : σ → Prop) (x : StateExcept σ ε α) (Q : α → σ → Prop) (E : ε → σ → Prop) : Prop :=
  ∀ s, P s → match x.run.run s with
    | (.ok a, s') => Q a s'
    | (.error e, s') => E e s'

namespace Triple

variable {P : σ → Prop} {Q : α → σ → Prop} {E : ε → σ → Prop}

theorem pure {a : α} (h : ∀ s, P s → Q a s) : Triple P (Pure.pure a : StateExcept σ ε α) Q E := h

theorem throw {e : ε} (h : ∀ s, P s → E e s) : Triple P (throw e : StateExcept σ ε α) Q E := h

theorem bind {R : β → σ → Prop} {x : StateExcept σ ε α} {f : α → StateExcept σ ε β}
    (first : Triple P x Q E) (rest : ∀ a, Triple (Q a) (f a) R E) : Triple P (x >>= f) R E := by
  intro s before
  have here := first s before
  rw [StateExcept.run_bind]
  generalize x.run.run s = result at here
  obtain ⟨a | a, s'⟩ := result
  · exact here
  · exact rest a s' here

theorem mono {P' : σ → Prop} {Q' : α → σ → Prop} {E' : ε → σ → Prop} {x : StateExcept σ ε α}
    (h : Triple P x Q E) (pre : ∀ s, P' s → P s) (post : ∀ a s, Q a s → Q' a s)
    (error : ∀ e s, E e s → E' e s) : Triple P' x Q' E' := by
  intro s before
  have here := h s (pre s before)
  generalize x.run.run s = result at here
  obtain ⟨a | a, s'⟩ := result
  · exact error a s' here
  · exact post a s' here

theorem ite {c : Prop} [Decidable c] {x y : StateExcept σ ε α} (yes : c → Triple P x Q E)
    (no : ¬c → Triple P y Q E) : Triple P (if c then x else y) Q E := by
  split
  · next h => exact yes h
  · next h => exact no h

theorem get_bind {f : σ → StateExcept σ ε α} (rest : ∀ s, Triple (fun s' => s' = s ∧ P s') (f s) Q E) :
    Triple P (get >>= f) Q E :=
  fun s before => rest s s ⟨rfl, before⟩

theorem modify {f : σ → σ} {Q : σ → Prop} (h : ∀ s, P s → Q (f s)) :
    Triple P (modify f : StateExcept σ ε PUnit) (fun _ => Q) E := h

theorem set {s : σ} {Q : σ → Prop} (h : ∀ s', P s' → Q s) :
    Triple P (MonadStateOf.set s : StateExcept σ ε PUnit) (fun _ => Q) E := h

theorem result {x : StateExcept σ ε α} (h : Triple P x Q E) {s : σ} (before : P s) :
    (∀ a s', x.run.run s = (.ok a, s') → Q a s') ∧ ∀ e s', x.run.run s = (.error e, s') → E e s' := by
  have here := h s before
  constructor
  · intro a s' ended
    rw [ended] at here
    exact here
  · intro e s' ended
    rw [ended] at here
    exact here

end Triple

end BasicNext.Lib
