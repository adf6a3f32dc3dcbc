import Mathlib.Data.Multiset.Bind

/-!
# Matching two multisets

The pairs of a product whose halves match, and the elements of either side that match none of the other. A loop over
one side that runs over the other side inside collects the same pairs, in its own order.
-/

namespace BasicNext.Lib

variable {α β γ : Type*} (holds : α → β → Bool)

/-- The pairs of the product whose halves match. -/
def matched (left : Multiset α) (right : Multiset β) : Multiset (α × β) :=
  (left ×ˢ right).filter fun pair => holds pair.1 pair.2

/-- The elements of the left side without a match. -/
def leftAlone (left : Multiset α) (right : Multiset β) : Multiset α := left.filter fun a => ∀ b ∈ right, holds a b = false

/-- The elements of the right side without a match. -/
def rightAlone (left : Multiset α) (right : Multiset β) : Multiset β := right.filter fun b => ∀ a ∈ left, holds a b = false

variable {holds}

theorem matched_cons {a : α} {left : Multiset α} {right : Multiset β} :
    matched holds (a ::ₘ left) right = (right.filter fun b => holds a b).map (Prod.mk a) + matched holds left right := by
  unfold matched
  rw [Multiset.cons_product, Multiset.filter_add, Multiset.filter_map]
  rfl

theorem matched_cons_right {b : β} {left : Multiset α} {right : Multiset β} :
    matched holds left (b ::ₘ right) =
      (left.filter fun a => holds a b).map (fun a => (a, b)) + matched holds left right := by
  unfold matched
  rw [Multiset.product_cons, Multiset.filter_add, Multiset.filter_map]
  rfl

theorem coe_flatMap_left (left : List α) (right : List β) (pair : α × β → γ) :
    (↑(left.flatMap fun a => (right.filter (holds a)).map fun b => pair (a, b)) : Multiset γ) =
      (matched holds left right).map pair := by
  induction left with
  | nil => simp [matched]
  | cons a left ih =>
    rw [List.flatMap_cons, ← Multiset.coe_add, ih, ← Multiset.cons_coe, matched_cons, Multiset.map_add,
      Multiset.map_map, Multiset.filter_coe, Multiset.map_coe]
    simp [Function.comp_def]

theorem coe_flatMap_right (left : List α) (right : List β) (pair : α × β → γ) :
    (↑(right.flatMap fun b => (left.filter fun a => holds a b).map fun a => pair (a, b)) : Multiset γ) =
      (matched holds left right).map pair := by
  induction right with
  | nil => simp [matched]
  | cons b right ih =>
    rw [List.flatMap_cons, ← Multiset.coe_add, ih, ← Multiset.cons_coe, matched_cons_right, Multiset.map_add,
      Multiset.map_map, Multiset.filter_coe, Multiset.map_coe]
    simp [Function.comp_def]

theorem flatMap_ite {test : α → Bool} {single : α → γ} (l : List α) :
    (l.flatMap fun a => if test a then [] else [single a]) = (l.filter fun a => !test a).map single := by
  induction l with
  | nil => rfl
  | cons a l ih =>
    rw [List.flatMap_cons, ih]
    cases here : test a with
    | true => simp [here]
    | false => simp [here]

theorem coe_leftAlone (left : List α) (right : List β) :
    leftAlone holds left right = ↑(left.filter fun a => !right.any (holds a)) := by
  unfold leftAlone
  rw [Multiset.filter_coe]
  refine congrArg _ (List.filter_congr fun a _ => ?_)
  rw [Bool.eq_iff_iff]
  simp

theorem coe_rightAlone (left : List α) (right : List β) :
    rightAlone holds left right = ↑(right.filter fun b => !left.any fun a => holds a b) := by
  unfold rightAlone
  rw [Multiset.filter_coe]
  refine congrArg _ (List.filter_congr fun b _ => ?_)
  rw [Bool.eq_iff_iff]
  simp

end BasicNext.Lib
