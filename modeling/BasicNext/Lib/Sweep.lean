import Mathlib.Order.Nat

/-!
# Sweeps over a numbered graph

A sweep visits the vertices of a graph in the order of their numbers and passes a mark along the edges: a
vertex is marked when a vertex with an edge to it is, after the visit for the vertices that come before it
and before the sweep for the others. After some sweeps the marked vertices are those that a walk reaches
with as many edges that do not go up.
-/

namespace BasicNext.Lib

variable {edge : Nat → Nat → Prop} {passes origin origin' : Nat → Prop} {old new old' new' : Nat → Prop}

/-- One sweep: the vertices of `origin` are marked anew, and only those in `passes` take the mark. -/
def Sweep (edge : Nat → Nat → Prop) (passes origin old new : Nat → Prop) : Prop :=
  ∀ v, new v ↔ passes v ∧ (origin v ∨ ∃ u, edge u v ∧ (u < v ∧ new u ∨ v ≤ u ∧ old u))

namespace Sweep

theorem mono (sweep : Sweep edge passes origin old new) (sweep' : Sweep edge passes origin' old' new')
    (starts : ∀ v, origin v → origin' v) (more : ∀ v, old v → old' v) (v : Nat) (mark : new v) : new' v := by
  induction v using Nat.strong_induction_on with
  | _ v ih =>
    obtain ⟨pass, start | ⟨u, along, ⟨before, mark⟩ | ⟨after, mark⟩⟩⟩ := (sweep v).1 mark
    · exact (sweep' v).2 ⟨pass, .inl (starts v start)⟩
    · exact (sweep' v).2 ⟨pass, .inr ⟨u, along, .inl ⟨before, ih u before mark⟩⟩⟩
    · exact (sweep' v).2 ⟨pass, .inr ⟨u, along, .inr ⟨after, more u mark⟩⟩⟩

theorem unique (sweep : Sweep edge passes origin old new) (sweep' : Sweep edge passes origin' old' new')
    (starts : ∀ v, origin v ↔ origin' v) (same : ∀ v, old v ↔ old' v) (v : Nat) : new v ↔ new' v :=
  ⟨sweep.mono sweep' (fun u => (starts u).1) (fun u => (same u).1) v,
    sweep'.mono sweep (fun u => (starts u).2) (fun u => (same u).2) v⟩

theorem induct {P : Nat → Prop} (sweep : Sweep edge passes origin old new) (known : ∀ v, old v → P v)
    (start : ∀ v, passes v → origin v → P v) (step : ∀ u v, P u → edge u v → passes v → P v) (v : Nat)
    (mark : new v) : P v := by
  induction v using Nat.strong_induction_on with
  | _ v ih =>
    obtain ⟨pass, origin | ⟨u, along, ⟨before, mark⟩ | ⟨after, mark⟩⟩⟩ := (sweep v).1 mark
    · exact start v pass origin
    · exact step u v (ih u before mark) along pass
    · exact step u v (known u mark) along pass

end Sweep

/-! ### Walks by the number of their turns -/

/-- A walk from a vertex of `starts` to a vertex, with the number of its edges that do not go up. -/
inductive Turns (edge : Nat → Nat → Prop) (starts : Nat → Prop) : Nat → Nat → Prop
  | start {v : Nat} : starts v → Turns edge starts 0 v
  | up {count u v : Nat} : Turns edge starts count u → edge u v → u < v → Turns edge starts count v
  | turn {count u v : Nat} : Turns edge starts count u → edge u v → v ≤ u → Turns edge starts (count + 1) v

namespace Turns

variable {starts : Nat → Prop} {count : Nat}

theorem first : Sweep edge (fun _ => True) starts (fun _ => False) (Turns edge starts 0) := by
  intro v
  constructor
  · intro walk
    cases walk with
    | start starts => exact ⟨trivial, .inl starts⟩
    | up walk along before => exact ⟨trivial, .inr ⟨_, along, .inl ⟨before, walk⟩⟩⟩
  · rintro ⟨-, starts | ⟨u, along, ⟨before, walk⟩ | ⟨-, none⟩⟩⟩
    · exact .start starts
    · exact .up walk along before
    · exact none.elim

theorem more : Sweep edge (fun _ => True) (fun _ => False) (Turns edge starts count) (Turns edge starts (count + 1)) := by
  intro v
  constructor
  · intro walk
    cases walk with
    | up walk along before => exact ⟨trivial, .inr ⟨_, along, .inl ⟨before, walk⟩⟩⟩
    | turn walk along after => exact ⟨trivial, .inr ⟨_, along, .inr ⟨after, walk⟩⟩⟩
  · rintro ⟨-, none | ⟨u, along, ⟨before, walk⟩ | ⟨after, walk⟩⟩⟩
    · exact none.elim
    · exact .up walk along before
    · exact .turn walk along after

theorem fewer {v : Nat} (walk : Turns edge starts (count + 1) v) : ∃ u, Turns edge starts count u := by
  generalize more : count + 1 = turns at walk
  induction walk with
  | start => omega
  | up _ _ _ ih => exact ih more
  | turn walk =>
    obtain rfl := Nat.succ.inj more
    exact ⟨_, walk⟩

theorem none (free : ∀ v, ¬ Turns edge starts count v) {later : Nat} (le : count ≤ later) (v : Nat) :
    ¬ Turns edge starts later v := by
  induction later, le using Nat.le_induction generalizing v with
  | base => exact free v
  | succ later _ ih =>
    intro walk
    obtain ⟨u, before⟩ := walk.fewer
    exact ih u before

theorem settled (same : ∀ v, Turns edge starts count v ↔ Turns edge starts (count + 1) v) {later : Nat}
    (le : count ≤ later) (v : Nat) : Turns edge starts count v ↔ Turns edge starts later v := by
  induction later, le using Nat.le_induction generalizing v with
  | base => exact Iff.rfl
  | succ later _ ih =>
    rw [same v]
    exact Turns.more.unique Turns.more (fun _ => Iff.rfl) ih v

end Turns

end BasicNext.Lib
