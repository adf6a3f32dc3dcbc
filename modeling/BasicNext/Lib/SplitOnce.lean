import Mathlib.Data.List.Basic

/-!
# Splitting a text once

A text is cut at the first place of a pattern, or at the last place of a character.
-/

namespace BasicNext.Lib

variable {α : Type*} [DecidableEq α]

/-- `str::split_once`: what precedes and what follows the first place of the pattern. -/
def splitOnce (pattern : List α) : List α → Option (List α × List α)
  | [] => if pattern = [] then some ([], []) else none
  | head :: rest =>
    if pattern <+: head :: rest then some ([], (head :: rest).drop pattern.length)
    else (splitOnce pattern rest).map fun parts => (head :: parts.1, parts.2)

/-- `str::rsplit_once` at a character. -/
def rsplitOnce (at' : α) : List α → Option (List α × List α)
  | [] => none
  | head :: rest =>
    match rsplitOnce at' rest with
    | some parts => some (head :: parts.1, parts.2)
    | none => if head = at' then some ([], rest) else none

theorem splitOnce_some {pattern text before after : List α} (split : splitOnce pattern text = some (before, after)) :
    text = before ++ (pattern ++ after) := by
  induction text generalizing before with
  | nil =>
    rw [splitOnce] at split
    split at split
    · next empty =>
      cases split
      simp [empty]
    · cases split
  | cons head rest ih =>
    rw [splitOnce] at split
    split at split
    · next found =>
      cases split
      obtain ⟨after, same⟩ := found
      rw [← same]
      simp
    · obtain ⟨parts, found, same⟩ := Option.map_eq_some_iff.1 split
      cases same
      rw [ih found]
      rfl

theorem splitOnce_append {at' : α} {before after : List α} (first : at' ∉ before) :
    splitOnce [at'] (before ++ at' :: after) = some (before, after) := by
  induction before with
  | nil => simp [splitOnce]
  | cons head rest ih =>
    rw [List.mem_cons, not_or] at first
    rw [List.cons_append, splitOnce, if_neg, ih first.2]
    · rfl
    · rw [List.cons_prefix_cons]
      exact fun same => first.1 same.1

theorem rsplitOnce_none {at' : α} {text : List α} (split : rsplitOnce at' text = none) : at' ∉ text := by
  induction text with
  | nil => simp
  | cons head rest ih =>
    rw [rsplitOnce] at split
    split at split
    · cases split
    · next none =>
      split at split
      · cases split
      · next other => simp [ih none, Ne.symm other]

theorem rsplitOnce_some {at' : α} {text before after : List α} (split : rsplitOnce at' text = some (before, after)) :
    text = before ++ at' :: after ∧ at' ∉ after := by
  induction text generalizing before with
  | nil => cases split
  | cons head rest ih =>
    rw [rsplitOnce] at split
    split at split
    · next parts found =>
      cases split
      obtain ⟨same, last⟩ := ih found
      rw [same]
      exact ⟨rfl, last⟩
    · next none =>
      split at split
      · next here =>
        cases split
        exact ⟨by rw [here]; rfl, rsplitOnce_none none⟩
      · cases split

theorem rsplitOnce_of_not_mem {at' : α} {text : List α} (absent : at' ∉ text) : rsplitOnce at' text = none := by
  induction text with
  | nil => rfl
  | cons head rest ih =>
    rw [List.mem_cons, not_or] at absent
    rw [rsplitOnce, ih absent.2]
    exact if_neg (Ne.symm absent.1)

theorem rsplitOnce_append {at' : α} {before after : List α} (last : at' ∉ after) :
    rsplitOnce at' (before ++ at' :: after) = some (before, after) := by
  induction before with
  | nil =>
    rw [List.nil_append, rsplitOnce, rsplitOnce_of_not_mem last]
    exact if_pos rfl
  | cons head before ih =>
    rw [List.cons_append, rsplitOnce, ih]

end BasicNext.Lib
