import Mathlib.Data.Finset.Basic

/-!
# Walks in a directed graph

A walk is recorded as the vertices it has passed and the vertex it stands at. Facts about a program
along its control-flow paths are proved by induction on the last edge of a walk.
-/

namespace BasicNext.Lib

variable {α : Type*} {edge : α → α → Prop} {start u v : α} {path : List α}

/-- `Walk edge start path u`: a walk that starts at `start`, passed `path`, and stands at `u`. -/
inductive Walk (edge : α → α → Prop) (start : α) : List α → α → Prop
  | refl : Walk edge start [] start
  | step {path : List α} {u v : α} :
      Walk edge start path u → edge u v → Walk edge start (path ++ [u]) v

namespace Walk

theorem induct {P : α → Prop} (base : P start) (step : ∀ u v, P u → edge u v → P v) (h : Walk edge start path u) : P u := by
  induction h with
  | refl => exact base
  | step _ edge ih => exact step _ _ ih edge

theorem last_step (h : Walk edge start (path ++ [u]) v) : Walk edge start path u ∧ edge u v := by
  generalize passed_eq : path ++ [u] = passed at h
  cases h with
  | refl => exact absurd passed_eq (by simp)
  | step walk edge =>
    obtain ⟨rfl, rfl⟩ := (by simpa using passed_eq : path = _ ∧ u = _)
    exact ⟨walk, edge⟩

theorem split {before after : List α} (h : Walk edge start (before ++ u :: after) v) :
    Walk edge start before u := by
  induction after using List.reverseRecOn generalizing v with
  | nil => exact h.last_step.1
  | append_singleton after w ih =>
    rw [← List.cons_append, ← List.append_assoc] at h
    exact ih h.last_step.1

theorem trans {path' : List α} (h : Walk edge start path u) (h' : Walk edge u path' v) :
    Walk edge start (path ++ path') v := by
  induction h' with
  | refl => simpa using h
  | step _ edge ih => simpa using ih.step edge

theorem first_visit (h : Walk edge start path u) : ∃ path', Walk edge start path' u ∧ u ∉ path' := by
  by_cases passed : u ∈ path
  · obtain ⟨before, after, rfl, fresh⟩ := List.eq_append_cons_of_mem passed
    exact ⟨before, h.split, fresh⟩
  · exact ⟨path, h, passed⟩

theorem since {before after : List α} {w : α} (h : Walk edge start (before ++ w :: after) v) :
    Walk edge w (w :: after) v := by
  induction after using List.reverseRecOn generalizing v with
  | nil => exact (Walk.refl : Walk edge w [] w).step h.last_step.2
  | append_singleton after x ih =>
    rw [← List.cons_append, ← List.append_assoc] at h
    exact (ih h.last_step.1).step h.last_step.2

theorem start_mem (h : Walk edge start path u) (moved : path ≠ []) : start ∈ path := by
  induction h with
  | refl => exact absurd rfl moved
  | step walk _ ih =>
    rename_i path' u v _
    by_cases still : path' = []
    · subst still
      generalize passed_eq : ([] : List α) = passed at walk
      cases walk with
      | refl => simp
      | step => simp at passed_eq
    · exact List.mem_append_left _ (ih still)

theorem start_mem_of_ne (h : Walk edge start path u) (away : u ≠ start) : start ∈ path := by
  cases h with
  | refl => exact absurd rfl away
  | step walk edge => exact (walk.step edge).start_mem (by simp)

theorem first_return (h : Walk edge u path u) (moved : path ≠ []) :
    ∃ back, Walk edge u (u :: back) u ∧ u ∉ back := by
  obtain ⟨after, before, reverse_eq, fresh⟩ := List.eq_append_cons_of_mem (List.mem_reverse.2 (h.start_mem moved))
  have path_eq : path = before.reverse ++ u :: after.reverse := by
    rw [← List.reverse_reverse path, reverse_eq]
    simp
  rw [path_eq] at h
  exact ⟨after.reverse, h.since, by simpa using fresh⟩

end Walk

end BasicNext.Lib
