import Mathlib.Data.List.Induction
import Mathlib.Data.List.Pairwise

/-!
# Parallel moves

A list of moves, each of a destination and a source, carried out one after the other, in groups, or all at once. They
agree when no move reads what an earlier one has changed.
-/

namespace BasicNext.Lib

variable {α β : Type*} [DecidableEq α]

/-- One move after the other. -/
def sequential (moves : List (α × α)) (state : α → β) : α → β :=
  moves.foldl (fun state move => Function.update state move.1 (state move.2)) state

/-- All moves read the state before them. -/
def simultaneous (moves : List (α × α)) (state : α → β) (a : α) : β :=
  match moves.find? fun move => move.1 = a with
  | some move => state move.2
  | none => state a

/-- No move reads a destination of an earlier one that changes it. -/
def Independent (moves : List (α × α)) (state : α → β) : Prop :=
  moves.Pairwise fun first later => later.2 = first.1 → state first.2 = state first.1

/-- One group after the other, the moves of a group all at once. -/
def grouped (groups : List (List (α × α))) (state : α → β) : α → β :=
  groups.foldl (fun state group => simultaneous group state) state

/-- No move reads a destination of an earlier group that changes it. -/
def GroupsIndependent (groups : List (List (α × α))) (state : α → β) : Prop :=
  groups.Pairwise fun first later => ∀ move ∈ first, ∀ next ∈ later, next.2 = move.1 → state move.2 = state move.1

variable {groups : List (List (α × α))} {group : List (α × α)} {moves : List (α × α)} {move : α × α} {state : α → β} {a : α}

theorem simultaneous_of_mem (distinct : (moves.map Prod.fst).Nodup) (member : move ∈ moves) (state : α → β) :
    simultaneous moves state move.1 = state move.2 := by
  obtain ⟨before, after, rfl⟩ := List.append_of_mem member
  have fresh : ∀ other ∈ before, other.1 ≠ move.1 := by
    intro other earlier same
    rw [List.map_append, List.nodup_append] at distinct
    exact distinct.2.2 other.1 (List.mem_map_of_mem earlier) move.1 (by simp) same
  have found : (before ++ move :: after).find? (fun other => other.1 = move.1) = some move := by
    rw [List.find?_append, List.find?_eq_none.2 (by simpa using fresh), Option.none_or, List.find?_cons_of_pos (by simp)]
  rw [simultaneous, found]

theorem simultaneous_of_not_mem (other : a ∉ moves.map Prod.fst) : simultaneous moves state a = state a := by
  have none_ : moves.find? (fun move => move.1 = a) = none := by
    rw [List.find?_eq_none]
    intro move member same
    exact other (List.mem_map.2 ⟨move, member, by simpa using same⟩)
  rw [simultaneous, none_]

theorem grouped_append (groups others : List (List (α × α))) (state : α → β) :
    grouped (groups ++ others) state = grouped others (grouped groups state) := List.foldl_append

theorem grouped_singleton (group : List (α × α)) (state : α → β) : grouped [group] state = simultaneous group state := rfl

theorem grouped_of_not_mem (other : a ∉ groups.flatten.map Prod.fst) : grouped groups state a = state a := by
  induction groups using List.reverseRecOn with
  | nil => rfl
  | append_singleton groups group ih =>
    rw [List.flatten_concat, List.map_append, List.mem_append, not_or] at other
    rw [grouped_append, grouped_singleton, simultaneous_of_not_mem other.2, ih other.1]

omit [DecidableEq α] in
theorem groupsIndependent_congr {other : α → β}
    (same : ∀ move ∈ groups.flatten, state move.1 = other move.1 ∧ state move.2 = other move.2) :
    GroupsIndependent groups state ↔ GroupsIndependent groups other := by
  apply List.Pairwise.iff_of_mem
  intro first later among _
  apply forall₂_congr
  intro move member
  obtain ⟨here, there⟩ := same move (List.mem_flatten.2 ⟨first, among, member⟩)
  rw [here, there]

theorem grouped_eq_simultaneous_iff (distinct : (groups.flatten.map Prod.fst).Nodup) :
    grouped groups state = simultaneous groups.flatten state ↔ GroupsIndependent groups state := by
  induction groups using List.reverseRecOn with
  | nil => exact iff_of_true rfl .nil
  | append_singleton groups group ih =>
    have distinct' := distinct
    rw [List.flatten_concat, List.map_append, List.nodup_append] at distinct'
    obtain ⟨first, second, apart⟩ := distinct'
    have fresh {a : α} (within : a ∈ group.map Prod.fst) : a ∉ groups.flatten.map Prod.fst := fun earlier =>
      apart a earlier a within rfl
    have whole {move : α × α} (member : move ∈ group ∨ move ∈ groups.flatten) :
        simultaneous (groups ++ [group]).flatten state move.1 = state move.2 := by
      apply simultaneous_of_mem distinct
      rw [List.flatten_concat, List.mem_append]
      exact member.symm
    have last : GroupsIndependent (groups ++ [group]) state ↔ GroupsIndependent groups state ∧
        ∀ move ∈ group, simultaneous groups.flatten state move.2 = state move.2 := by
      rw [GroupsIndependent, List.pairwise_append]
      refine and_congr_right fun _ => ?_
      constructor
      · rintro ⟨-, reads⟩ next member
        by_cases within : next.2 ∈ groups.flatten.map Prod.fst
        · obtain ⟨earlier, inside, same⟩ := List.mem_map.1 within
          obtain ⟨block, among, here⟩ := List.mem_flatten.1 inside
          rw [← same, simultaneous_of_mem first inside]
          exact reads block among group (by simp) earlier here next member same.symm
        · exact simultaneous_of_not_mem within
      · intro reads
        refine ⟨List.pairwise_singleton _ _, fun block among later here earlier inside next member same => ?_⟩
        obtain rfl := List.mem_singleton.1 here
        rw [← simultaneous_of_mem first (List.mem_flatten.2 ⟨block, among, inside⟩) state, ← same]
        exact reads next member
    rw [last, grouped_append, grouped_singleton, ← ih first]
    constructor
    · intro agree
      have before : grouped groups state = simultaneous groups.flatten state := by
        funext a
        by_cases here : a ∈ group.map Prod.fst
        · rw [grouped_of_not_mem (fresh here), simultaneous_of_not_mem (fresh here)]
        · have same := congrFun agree a
          rw [simultaneous_of_not_mem here] at same
          rw [same]
          by_cases within : a ∈ groups.flatten.map Prod.fst
          · obtain ⟨move, inside, rfl⟩ := List.mem_map.1 within
            rw [whole (.inr inside), simultaneous_of_mem first inside]
          · rw [simultaneous_of_not_mem within, simultaneous_of_not_mem]
            rw [List.flatten_concat, List.map_append, List.mem_append]
            exact not_or.2 ⟨within, here⟩
      refine ⟨before, fun move member => ?_⟩
      have same := congrFun agree move.1
      rw [simultaneous_of_mem second member, whole (.inl member), before] at same
      exact same
    · rintro ⟨before, reads⟩
      funext a
      by_cases here : a ∈ group.map Prod.fst
      · obtain ⟨move, member, rfl⟩ := List.mem_map.1 here
        rw [simultaneous_of_mem second member, whole (.inl member), before, reads move member]
      · rw [simultaneous_of_not_mem here, before]
        by_cases within : a ∈ groups.flatten.map Prod.fst
        · obtain ⟨move, inside, rfl⟩ := List.mem_map.1 within
          rw [whole (.inr inside), simultaneous_of_mem first inside]
        · rw [simultaneous_of_not_mem within, simultaneous_of_not_mem]
          rw [List.flatten_concat, List.map_append, List.mem_append]
          exact not_or.2 ⟨within, here⟩

theorem sequential_eq_simultaneous_iff (distinct : (moves.map Prod.fst).Nodup) :
    sequential moves state = simultaneous moves state ↔ Independent moves state := by
  have flat : (moves.map fun move => [move]).flatten = moves := by simp [← List.flatMap_def]
  have single (move : α × α) (state : α → β) : simultaneous [move] state = Function.update state move.1 (state move.2) := by
    funext a
    by_cases here : a = move.1
    · simp [simultaneous, here]
    · simp [simultaneous, here, Ne.symm here]
  have steps : sequential moves state = grouped (moves.map fun move => [move]) state := by
    rw [sequential, grouped, List.foldl_map]
    simp only [single]
  have distinct' : (((moves.map fun move => [move]).flatten).map Prod.fst).Nodup := by rwa [flat]
  have same : grouped (moves.map fun move => [move]) state = simultaneous (moves.map fun move => [move]).flatten state ↔
      GroupsIndependent (moves.map fun move => [move]) state := grouped_eq_simultaneous_iff distinct'
  rw [flat, ← steps] at same
  rw [same, GroupsIndependent, List.pairwise_map, Independent]
  simp

/-! ### Stores in a loop -/

variable {target : ℕ → α} {content : ℕ → β} {count i : ℕ}

theorem foldl_update_of_ne (other : ∀ i < count, target i ≠ a) :
    (List.range count).foldl (fun state i => Function.update state (target i) (content i)) state a = state a := by
  induction count with
  | zero => rfl
  | succ count ih =>
    rw [List.range_succ, List.foldl_append, List.foldl_cons, List.foldl_nil,
      Function.update_of_ne (other count (Nat.lt_succ_self count)).symm]
    exact ih fun i below => other i (Nat.lt_succ_of_lt below)

theorem foldl_update_of_lt (below : i < count) (apart : ∀ i < count, ∀ j < count, target i = target j → i = j) :
    (List.range count).foldl (fun state i => Function.update state (target i) (content i)) state (target i) = content i := by
  induction count with
  | zero => omega
  | succ count ih =>
    rw [List.range_succ, List.foldl_append, List.foldl_cons, List.foldl_nil]
    by_cases last : i = count
    · rw [last, Function.update_self]
    · rw [Function.update_of_ne fun same => last (apart i below count (by omega) same)]
      exact ih (by omega) fun i below j below' => apart i (by omega) j (by omega)

end BasicNext.Lib
