import Mathlib.Data.Finset.Card

/-!
# Chains of a partial function

A partial function from a type to itself draws one chain from every element: the element, the next one
and so on up to one that has no next. A chain may end or run into a cycle; the walk that stops at the
first element it has seen lists the elements of the chain in both cases, in their order.
-/

namespace BasicNext.Lib.Chain

variable {α : Type _} {next : α → Option α} {a b c : α}

variable (next) in
/-- `b` follows `a`. -/
def Step (a b : α) : Prop := next a = some b

variable (next) in
/-- `b` is on the chain of `a`. -/
def Above : α → α → Prop := Relation.ReflTransGen (Step next)

variable (next) in
/-- `b` is on the chain of `a`, after `a`. -/
def StrictlyAbove : α → α → Prop := Relation.TransGen (Step next)

variable (next) in
def Acyclic : Prop := ∀ a, ¬StrictlyAbove next a a

variable (next) in
/-- The chain of `a` ends. -/
inductive Ends : α → Prop
  | top {a : α} : next a = none → Ends a
  | up {a b : α} : next a = some b → Ends b → Ends a

theorem Above.refl (a : α) : Above next a a := Relation.ReflTransGen.refl

theorem Above.trans (first : Above next a b) (second : Above next b c) : Above next a c :=
  Relation.ReflTransGen.trans first second

theorem StrictlyAbove.above (after : StrictlyAbove next a b) : Above next a b := Relation.TransGen.to_reflTransGen after

theorem above_iff : Above next a c ↔ c = a ∨ ∃ b, next a = some b ∧ Above next b c := by
  constructor
  · intro above
    rcases Relation.ReflTransGen.cases_head above with rfl | ⟨b, step, rest⟩
    · exact .inl rfl
    · exact .inr ⟨b, step, rest⟩
  · rintro (rfl | ⟨b, step, rest⟩)
    · exact Above.refl c
    · exact Relation.ReflTransGen.head step rest

theorem strictlyAbove_iff : StrictlyAbove next a c ↔ ∃ b, next a = some b ∧ Above next b c := Relation.TransGen.head'_iff

theorem strictlyAbove_of_next (step : next a = some b) : StrictlyAbove next a c ↔ Above next b c := by
  rw [strictlyAbove_iff, step]
  constructor
  · rintro ⟨_, same, above⟩
    cases same
    exact above
  · exact fun above => ⟨b, rfl, above⟩

theorem not_strictlyAbove_of_none (top : next a = none) : ¬StrictlyAbove next a c := by
  rw [strictlyAbove_iff, top]
  rintro ⟨_, step, -⟩
  cases step

theorem Above.eq_or (above : Above next a b) : a = b ∨ StrictlyAbove next a b :=
  (Relation.reflTransGen_iff_eq_or_transGen.1 above).imp Eq.symm id

/-! ### Ends and cycles -/

theorem Ends.not_cycle (ends : Ends next a) : ¬StrictlyAbove next a a := by
  induction ends with
  | top top => exact not_strictlyAbove_of_none top
  | up step _ ih =>
    intro cycle
    rw [strictlyAbove_of_next step] at cycle
    exact ih (Relation.TransGen.tail' cycle step)

theorem acyclic_of_ends (ends : ∀ a, Ends next a) : Acyclic next := fun a => (ends a).not_cycle

theorem Acyclic.antisymm (acyclic : Acyclic next) (first : Above next a b) (second : Above next b a) :
    a = b := by
  rcases first.eq_or with same | after
  · exact same
  · exact absurd (Relation.TransGen.trans_left after second) (acyclic a)

/-! ### The nearest element with a property -/

variable (next) in
/-- The first element of a chain with a property: all others with it are on its chain. -/
structure Nearest (p : α → Prop) (a b : α) : Prop where
  above : Above next a b
  holds : p b
  first : ∀ c, Above next a c → p c → Above next b c

variable {p : α → Prop}

theorem Nearest.here (holds : p a) : Nearest next p a a := ⟨Above.refl a, holds, fun _ above _ => above⟩

theorem Nearest.up (step : next a = some b) (lacks : ¬p a) (nearest : Nearest next p b c) :
    Nearest next p a c where
  above := above_iff.2 (.inr ⟨b, step, nearest.above⟩)
  holds := nearest.holds
  first := by
    intro d above holds
    rcases above_iff.1 above with rfl | ⟨b', step', rest⟩
    · exact absurd holds lacks
    · obtain rfl := Option.some.inj (step.symm.trans step')
      exact nearest.first d rest holds

theorem exists_nearest (above : Above next a b) (holds : p b) :
    ∃ c, Nearest next p a c := by
  classical
  induction above using Relation.ReflTransGen.head_induction_on with
  | refl => exact ⟨b, .here holds⟩
  | @head a a' step _ ih =>
    by_cases has : p a
    · exact ⟨a, .here has⟩
    · obtain ⟨c, nearest⟩ := ih
      exact ⟨c, nearest.up step has⟩

theorem Acyclic.nearest_unique (acyclic : Acyclic next) (one : Nearest next p a b) (other : Nearest next p a c) : b = c :=
  acyclic.antisymm (one.first c other.above other.holds) (other.first b one.above one.holds)

/-! ### The walk over a chain -/

variable (next) [DecidableEq α]

/-- The elements of a chain up to the first that was seen before. -/
def walk : Nat → Finset α → Option α → List α
  | _, _, none => []
  | 0, _, some _ => []
  | steps + 1, seen, some a => if a ∈ seen then [] else a :: walk steps (insert a seen) (next a)

variable {next}

variable {steps : Nat}

theorem above_of_mem_walk {seen : Finset α} (member : b ∈ walk next steps seen (some a)) :
    Above next a b := by
  induction steps generalizing seen a with
  | zero => cases member
  | succ steps ih =>
    rw [walk] at member
    split at member
    · cases member
    · rcases List.mem_cons.1 member with rfl | later
      · exact Above.refl b
      · cases step : next a with
        | none =>
          rw [step] at later
          cases steps <;> cases later
        | some a' =>
          rw [step] at later
          exact above_iff.2 (.inr ⟨a', step, ih later⟩)

variable {keys : Finset α}

theorem walk_closed (known : ∀ a b, next a = some b → a ∈ keys)
    {seen : Finset α} {current : Option α} (enough : (keys \ seen).card < steps)
    (closed : ∀ a ∈ seen, ∀ b, next a = some b → b ∈ seen ∨ current = some b)
    (a b : α) (member : a ∈ seen ∨ a ∈ walk next steps seen current) (step : next a = some b) :
    b ∈ seen ∨ b ∈ walk next steps seen current := by
  induction steps generalizing seen current with
  | zero => omega
  | succ steps ih =>
    cases current with
    | none =>
      rcases member with old | new
      · exact .inl ((closed a old b step).resolve_right nofun)
      · cases new
    | some first =>
      rw [walk] at member ⊢
      split at member
      next again =>
        rw [if_pos again]
        rcases member with old | new
        · rcases closed a old b step with before | same
          · exact .inl before
          · cases same
            exact .inl again
        · cases new
      next fresh =>
        rw [if_neg fresh]
        have shifted : ∀ c, c ∈ seen ∨ c ∈ first :: walk next steps (insert first seen) (next first) ↔
            c ∈ insert first seen ∨ c ∈ walk next steps (insert first seen) (next first) := by
          intro c
          rw [List.mem_cons, Finset.mem_insert]
          tauto
        rw [shifted] at member ⊢
        have closed' : ∀ a ∈ insert first seen, ∀ b, next a = some b → b ∈ insert first seen ∨ next first = some b := by
          intro a member b step
          rcases Finset.mem_insert.1 member with rfl | old
          · exact .inr step
          · rcases closed a old b step with before | same
            · exact .inl (Finset.mem_insert_of_mem before)
            · cases same
              exact .inl (Finset.mem_insert_self _ _)
        by_cases known' : first ∈ keys
        · have fewer : (keys \ insert first seen).card < (keys \ seen).card := by
            apply Finset.card_lt_card
            rw [Finset.ssubset_iff_of_subset (Finset.sdiff_subset_sdiff le_rfl (Finset.subset_insert _ _))]
            refine ⟨first, Finset.mem_sdiff.2 ⟨known', fresh⟩, ?_⟩
            simp
          exact ih (by omega) closed' member
        · have top : next first = none := by
            rw [Option.eq_none_iff_forall_ne_some]
            exact fun b step => known' (known first b step)
          rw [top] at member closed' ⊢
          have nothing : ∀ c, c ∉ walk next steps (insert first seen) none := by
            intro c inside
            cases steps <;> cases inside
          rcases member with old | new
          · exact .inl ((closed' a old b step).resolve_right nofun)
          · exact absurd new (nothing a)

theorem mem_walk_iff (known : ∀ a b, next a = some b → a ∈ keys)
    (enough : keys.card < steps) : b ∈ walk next steps ∅ (some a) ↔ Above next a b := by
  constructor
  · exact above_of_mem_walk
  · intro above
    have all : (keys \ ∅).card < steps := by rwa [Finset.sdiff_empty]
    have closed : ∀ c ∈ (∅ : Finset α), ∀ d, next c = some d → d ∈ (∅ : Finset α) ∨ some a = some d :=
      fun _ member => nomatch member
    have start : a ∈ walk next steps ∅ (some a) := by
      obtain ⟨fewer, rfl⟩ := Nat.exists_eq_add_of_lt (show 0 < steps by omega)
      rw [Nat.zero_add, walk, if_neg nofun]
      exact List.mem_cons_self
    induction above with
    | refl => exact start
    | tail _ step ih => exact (walk_closed known all closed _ _ (.inr ih) step).resolve_left nofun

theorem walk_pairwise (steps : Nat) (seen : Finset α) (current : Option α) :
    (walk next steps seen current).Pairwise (Above next) := by
  induction steps generalizing seen current with
  | zero => cases current <;> exact .nil
  | succ steps ih =>
    cases current with
    | none => exact .nil
    | some a =>
      rw [walk]
      split
      · exact .nil
      · refine List.pairwise_cons.2 ⟨fun b later => ?_, ih _ _⟩
        cases step : next a with
        | none =>
          rw [step] at later
          cases steps <;> cases later
        | some a' =>
          rw [step] at later
          exact above_iff.2 (.inr ⟨a', step, above_of_mem_walk later⟩)

theorem nearest_of_split (known : ∀ a b, next a = some b → a ∈ keys) (enough : keys.card < steps) {before after : List α}
    (split : walk next steps ∅ (some a) = before ++ b :: after) (lack : ∀ c ∈ before, ¬p c)
    (holds : p b) : Nearest next p a b where
  above := by
    rw [← mem_walk_iff known enough, split]
    exact List.mem_append_right _ List.mem_cons_self
  holds := holds
  first := by
    intro c above has
    have member := (mem_walk_iff known enough).2 above
    have sorted : (walk next steps ∅ (some a)).Pairwise (Above next) := walk_pairwise steps ∅ (some a)
    rw [split] at member sorted
    rcases List.mem_append.1 member with early | late
    · exact absurd has (lack c early)
    · rcases List.mem_cons.1 late with rfl | later
      · exact Above.refl c
      · exact (List.pairwise_cons.1 (List.pairwise_append.1 sorted).2.1).1 c later

end BasicNext.Lib.Chain
