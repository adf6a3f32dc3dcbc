import Mathlib.Order.Basic

/-!
# Rounds to a fixed point

A state grows by visits, round after round, until a round leaves what is counted of it as it was. If the count tells
states apart where one has grown from the other, the last state is fixed under every visit.
-/

namespace BasicNext.Lib

variable {α β γ : Type*}

/-- Rounds until one leaves the count as it was. -/
def saturate [DecidableEq γ] (round : α → α) (count : α → γ) : Nat → α → Option α
  | 0, _ => none
  | fuel + 1, state =>
    if count (round state) = count state then some (round state) else saturate round count fuel (round state)

section visits

variable [PartialOrder α] {visit : α → β → α}

theorem le_foldl (grows : ∀ state x, state ≤ visit state x) (inputs : List β) (state : α) :
    state ≤ inputs.foldl visit state := by
  induction inputs generalizing state with
  | nil => exact le_rfl
  | cons x inputs ih => exact (grows state x).trans (ih _)

theorem visit_of_foldl_eq (grows : ∀ state x, state ≤ visit state x) {inputs : List β} {state : α}
    (same : inputs.foldl visit state = state) : ∀ x ∈ inputs, visit state x = state := by
  induction inputs with
  | nil => exact fun _ member => nomatch member
  | cons x inputs ih =>
    have first : visit state x = state := by
      apply le_antisymm _ (grows state x)
      have rest := le_foldl grows inputs (visit state x)
      rw [List.foldl_cons] at same
      rwa [same] at rest
    rw [List.foldl_cons, first] at same
    intro y member
    rcases List.mem_cons.1 member with rfl | later
    · exact first
    · exact ih same y later

end visits

section rounds

variable [DecidableEq γ] {round : α → α} {count : α → γ} {fuel : Nat} {state last : α}

theorem saturate_fixed [PartialOrder α] (grows : ∀ state, state ≤ round state)
    (counts : ∀ state, count (round state) = count state → round state = state)
    (stopped : saturate round count fuel state = some last) : state ≤ last ∧ round last = last := by
  induction fuel generalizing state with
  | zero => cases stopped
  | succ fuel ih =>
    rw [saturate] at stopped
    split at stopped
    next same =>
      have fixed := counts state same
      cases stopped
      rw [fixed]
      exact ⟨le_rfl, fixed⟩
    next =>
      obtain ⟨grown, fixed⟩ := ih stopped
      exact ⟨(grows state).trans grown, fixed⟩

theorem saturate_mono {more : Nat} (stopped : saturate round count fuel state = some last) (le : fuel ≤ more) :
    saturate round count more state = some last := by
  induction fuel generalizing state more with
  | zero => cases stopped
  | succ fuel ih =>
    obtain ⟨more, rfl⟩ := Nat.exists_eq_add_of_le' (Nat.lt_of_lt_of_le (Nat.succ_pos fuel) le)
    rw [saturate] at stopped ⊢
    split
    next same => rwa [if_pos same] at stopped
    next changed =>
      rw [if_neg changed] at stopped
      exact ih stopped (by omega)

theorem exists_saturate (rank : α → Nat) {within : α → Prop} {bound : Nat}
    (keeps : ∀ state, within state → within (round state))
    (raises : ∀ state, count (round state) ≠ count state → rank state < rank (round state))
    (bounded : ∀ state, within state → rank state ≤ bound) (inside : within state) (enough : bound - rank state < fuel) :
    ∃ last, saturate round count fuel state = some last ∧ within last := by
  induction fuel generalizing state with
  | zero => omega
  | succ fuel ih =>
    rw [saturate]
    split
    next => exact ⟨round state, rfl, keeps state inside⟩
    next changed =>
      have higher := raises state changed
      have limit := bounded (round state) (keeps state inside)
      exact ih (keeps state inside) (by omega)

end rounds

end BasicNext.Lib
