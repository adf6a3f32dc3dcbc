import Mathlib.Data.Prod.Lex

/-!
# The last greatest element of a list

`maxBy` keeps the later of two elements with equal keys.
-/

namespace BasicNext.Lib

variable {α κ : Type*} [LinearOrder κ]

def maxByFrom (key : α → κ) : α → List α → α
  | best, [] => best
  | best, a :: rest => maxByFrom key (if key best ≤ key a then a else best) rest

def maxBy (key : α → κ) : List α → Option α
  | [] => none
  | a :: rest => some (maxByFrom key a rest)

theorem maxByFrom_mem (key : α → κ) (best : α) (l : List α) : maxByFrom key best l ∈ best :: l := by
  induction l generalizing best with
  | nil => exact List.mem_singleton_self best
  | cons a rest ih =>
    rw [maxByFrom]
    split
    · exact List.mem_cons_of_mem _ (ih a)
    · rcases List.mem_cons.1 (ih best) with here | later
      · rw [here]
        exact List.mem_cons_self
      · exact List.mem_cons_of_mem _ (List.mem_cons_of_mem _ later)

theorem le_maxByFrom (key : α → κ) (best : α) (l : List α) :
    ∀ a ∈ best :: l, key a ≤ key (maxByFrom key best l) := by
  induction l generalizing best with
  | nil =>
    intro a member
    obtain rfl := List.mem_singleton.1 member
    exact le_rfl
  | cons first rest ih =>
    intro a member
    rw [maxByFrom]
    split
    · next le =>
      rcases List.mem_cons.1 member with rfl | later
      · exact le.trans (ih first first List.mem_cons_self)
      · exact ih first a later
    · next lt =>
      rcases List.mem_cons.1 member with rfl | later
      · exact ih a a List.mem_cons_self
      · rcases List.mem_cons.1 later with rfl | later
        · exact (not_le.1 lt).le.trans (ih best best List.mem_cons_self)
        · exact ih best a (List.mem_cons_of_mem _ later)

variable {key : α → κ} {l : List α}

theorem maxByFrom_append_singleton {best a : α} (greatest : ∀ b ∈ best :: l, key b ≤ key a) :
    maxByFrom key best (l ++ [a]) = a := by
  induction l generalizing best with
  | nil =>
    simp only [List.nil_append, maxByFrom]
    exact if_pos (greatest best List.mem_cons_self)
  | cons first rest ih =>
    rw [List.cons_append, maxByFrom]
    apply ih
    intro b member
    rcases List.mem_cons.1 member with rfl | later
    · split
      · exact greatest first (by simp)
      · exact greatest best List.mem_cons_self
    · exact greatest b (by simp [later])

variable {a : α}

theorem maxBy_append_singleton (greatest : ∀ b ∈ l, key b ≤ key a) :
    maxBy key (l ++ [a]) = some a := by
  cases l with
  | nil => rfl
  | cons first rest => exact congrArg some (maxByFrom_append_singleton greatest)

theorem maxBy_eq_none : maxBy key l = none ↔ l = [] := by
  cases l <;> simp [maxBy]

theorem mem_of_maxBy (found : maxBy key l = some a) : a ∈ l := by
  cases l with
  | nil => cases found
  | cons first rest =>
    cases found
    exact maxByFrom_mem key first rest

theorem le_of_maxBy (found : maxBy key l = some a) :
    ∀ b ∈ l, key b ≤ key a := by
  cases l with
  | nil => cases found
  | cons first rest =>
    cases found
    exact le_maxByFrom key first rest

end BasicNext.Lib
