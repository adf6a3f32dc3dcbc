import BasicNext.Lib.Except
import Mathlib.Data.Finset.Card
import Mathlib.Data.List.Chain

/-!
# Depth-first search

A search from a vertex lists the vertices behind their successors, and stops where it comes to a vertex of the path that
it is on. It stops so exactly where a cycle is reachable; otherwise it lists what is reachable, each vertex once.
-/

namespace BasicNext.Lib.DepthFirst

open Relation

variable {α : Type*}

/-- Why a search stops. -/
inductive Stop (α : Type*) where
  | cycle (vertex : α)
  | outOfFuel

/-- Each vertex is listed once, and behind its successors. -/
inductive Topological (next : α → List α) : List α → Prop
  | nil : Topological next []
  | snoc {done : List α} {a : α} : Topological next done → a ∉ done → (∀ b ∈ next a, b ∈ done) →
      Topological next (done ++ [a])

def Edge (next : α → List α) (a b : α) : Prop := b ∈ next a

namespace Topological

variable {next : α → List α} {done : List α} {a b : α}

theorem nodup (listed : Topological next done) : done.Nodup := by
  induction listed with
  | nil => exact List.nodup_nil
  | snoc _ fresh _ ih => exact List.nodup_append.2 ⟨ih, List.nodup_singleton _, fun x member y same => by
      rw [List.mem_singleton.1 same]
      rintro rfl
      exact fresh member⟩

theorem closed (listed : Topological next done) (member : a ∈ done) (edge : b ∈ next a) : b ∈ done := by
  induction listed with
  | nil => cases member
  | snoc _ _ behind ih =>
    rcases List.mem_append.1 member with earlier | last
    · exact List.mem_append_left _ (ih earlier)
    · obtain rfl := List.mem_singleton.1 last
      exact List.mem_append_left _ (behind b edge)

theorem closed_reflTransGen (listed : Topological next done) (member : a ∈ done)
    (reaches : ReflTransGen (Edge next) a b) : b ∈ done := by
  induction reaches with
  | refl => exact member
  | tail _ edge ih => exact listed.closed ih edge

theorem acyclic (listed : Topological next done) (member : a ∈ done) : ¬TransGen (Edge next) a a := by
  induction listed with
  | nil => cases member
  | snoc listed fresh behind ih =>
    rcases List.mem_append.1 member with earlier | last
    · exact ih earlier
    · obtain rfl := List.mem_singleton.1 last
      intro cycle
      obtain ⟨b, edge, back⟩ := TransGen.head'_iff.1 cycle
      exact fresh (listed.closed_reflTransGen (behind b edge) back)

end Topological

/-- Each vertex of a path has an edge to the one in front of it. -/
abbrev Descends (next : α → List α) (path : List α) : Prop := path.IsChain fun child parent => child ∈ next parent

theorem descends_reaches {next : α → List α} {path : List α} {a b : α} (chain : Descends next (a :: path))
    (member : b ∈ path) : TransGen (Edge next) b a := by
  induction path generalizing a with
  | nil => cases member
  | cons parent path ih =>
    obtain ⟨edge, rest⟩ := List.isChain_cons_cons.1 chain
    rcases List.mem_cons.1 member with rfl | later
    · exact .single edge
    · exact (ih rest later).tail edge

variable [DecidableEq α] (next : α → List α)

/-- A search from a vertex, on a path and with the vertices that are listed already. -/
def explore : Nat → List α → List α → α → Except (Stop α) (List α)
  | 0, _, _, _ => .error .outOfFuel
  | fuel + 1, path, done, a =>
    if a ∈ done then .ok done
    else if a ∈ path then .error (.cycle a)
    else do
      let done ← (next a).foldlM (explore fuel (a :: path)) done
      return done ++ [a]

variable {next} {fuel : Nat} {path done done' : List α} {a : α}

theorem explore_of_mem_done (listed : a ∈ done) : explore next (fuel + 1) path done a = .ok done := by
  rw [explore, if_pos listed]

theorem explore_of_mem_path (fresh : a ∉ done) (onPath : a ∈ path) :
    explore next (fuel + 1) path done a = .error (.cycle a) := by
  rw [explore, if_neg fresh, if_pos onPath]

theorem explore_of_fresh (fresh : a ∉ done) (offPath : a ∉ path) :
    explore next (fuel + 1) path done a =
      (next a).foldlM (explore next fuel (a :: path)) done >>= fun done => pure (done ++ [a]) := by
  rw [explore, if_neg fresh, if_neg offPath]

/-! ### What a search lists -/

/-- What a search from some vertices adds to a list. -/
structure Adds (next : α → List α) (path done : List α) (starts : List α) (done' : List α) : Prop where
  listed : Topological next done'
  extends_ : done <+: done'
  apart : ∀ b ∈ path, b ∉ done'
  taken : ∀ a ∈ starts, a ∈ done'
  reached : ∀ b ∈ done', b ∈ done ∨ ∃ a ∈ starts, ReflTransGen (Edge next) a b

omit [DecidableEq α] in
theorem adds_foldlM {search : List α → α → Except (Stop α) (List α)}
    (adds : ∀ done done' a, Topological next done → (∀ b ∈ path, b ∉ done) → search done a = .ok done' →
      Adds next path done [a] done') (starts : List α) (listed : Topological next done) (apart : ∀ b ∈ path, b ∉ done)
    (found : starts.foldlM search done = .ok done') : Adds next path done starts done' := by
  induction starts generalizing done with
  | nil =>
    cases found
    exact ⟨listed, List.prefix_rfl, apart, fun b listed => absurd listed List.not_mem_nil, fun b member => .inl member⟩
  | cons a starts ih =>
    obtain ⟨middle, first, rest⟩ := bind_eq_ok.1 (List.foldlM_cons.symm.trans found)
    have one := adds done middle a listed apart first
    have others := ih one.listed one.apart rest
    refine ⟨others.listed, one.extends_.trans others.extends_, others.apart, ?_, ?_⟩
    · intro b member
      rcases List.mem_cons.1 member with rfl | later
      · exact others.extends_.subset (one.taken b List.mem_cons_self)
      · exact others.taken b later
    · intro b member
      rcases others.reached b member with earlier | ⟨c, start, reaches⟩
      · rcases one.reached b earlier with before | ⟨c, start, reaches⟩
        · exact .inl before
        · obtain rfl := List.mem_singleton.1 start
          exact .inr ⟨c, List.mem_cons_self, reaches⟩
      · exact .inr ⟨c, List.mem_cons_of_mem _ start, reaches⟩

theorem explore_adds (listed : Topological next done) (apart : ∀ b ∈ path, b ∉ done)
    (found : explore next fuel path done a = .ok done') : Adds next path done [a] done' := by
  induction fuel generalizing path done done' a with
  | zero => cases found
  | succ fuel ih =>
    by_cases known : a ∈ done
    · rw [explore_of_mem_done known] at found
      cases found
      refine ⟨listed, List.prefix_rfl, apart, ?_, fun b member => .inl member⟩
      intro b member
      rwa [List.mem_singleton.1 member]
    by_cases onPath : a ∈ path
    · rw [explore_of_mem_path known onPath] at found
      cases found
    rw [explore_of_fresh known onPath] at found
    obtain ⟨middle, inner, result⟩ := bind_eq_ok.1 found
    cases result
    have apart' : ∀ b ∈ a :: path, b ∉ done := by
      intro b member
      rcases List.mem_cons.1 member with rfl | later
      · exact known
      · exact apart b later
    have adds := adds_foldlM (fun _ _ _ listed apart found => ih listed apart found) (next a) listed apart' inner
    have fresh := adds.apart a List.mem_cons_self
    refine ⟨adds.listed.snoc fresh adds.taken, adds.extends_.trans (List.prefix_append _ _), ?_, ?_, ?_⟩
    · intro b member inside
      rcases List.mem_append.1 inside with earlier | last
      · exact adds.apart b (List.mem_cons_of_mem _ member) earlier
      · rw [List.mem_singleton.1 last] at member
        exact onPath member
    · intro b member
      rw [List.mem_singleton.1 member]
      exact List.mem_append_right _ List.mem_cons_self
    · intro b member
      rcases List.mem_append.1 member with earlier | last
      · rcases adds.reached b earlier with before | ⟨c, edge, reaches⟩
        · exact .inl before
        · exact .inr ⟨a, List.mem_cons_self, reaches.head edge⟩
      · rw [List.mem_singleton.1 last]
        exact .inr ⟨a, List.mem_cons_self, .refl⟩

/-! ### Cycles -/

theorem explore_cycle {c : α} (chain : Descends next (a :: path)) (found : explore next fuel path done a = .error (.cycle c)) :
    ReflTransGen (Edge next) a c ∧ TransGen (Edge next) c c := by
  induction fuel generalizing path done a with
  | zero => cases found
  | succ fuel ih =>
    by_cases known : a ∈ done
    · rw [explore_of_mem_done known] at found
      cases found
    by_cases onPath : a ∈ path
    · rw [explore_of_mem_path known onPath] at found
      cases found
      exact ⟨.refl, descends_reaches chain onPath⟩
    rw [explore_of_fresh known onPath] at found
    have scan (starts : List α) (edges : ∀ b ∈ starts, b ∈ next a) (done : List α)
        (found : starts.foldlM (explore next fuel (a :: path)) done = .error (.cycle c)) :
        ReflTransGen (Edge next) a c ∧ TransGen (Edge next) c c := by
      induction starts generalizing done with
      | nil => cases found
      | cons b starts ihStarts =>
        rw [List.foldlM_cons] at found
        cases first : explore next fuel (a :: path) done b with
        | ok middle =>
          rw [first] at found
          exact ihStarts (fun b member => edges b (List.mem_cons_of_mem _ member)) middle found
        | error stop =>
          rw [first] at found
          cases found
          have edge := edges b List.mem_cons_self
          obtain ⟨reaches, cycle⟩ := ih (List.isChain_cons_cons.2 ⟨edge, chain⟩) first
          exact ⟨reaches.head edge, cycle⟩
    cases inner : (next a).foldlM (explore next fuel (a :: path)) done with
    | ok middle =>
      rw [inner] at found
      cases found
    | error stop =>
      rw [inner] at found
      cases found
      exact scan (next a) (fun _ member => member) done inner

/-! ### Fuel -/

theorem explore_fuel {vertices : Finset α} (closed : ∀ a ∈ vertices, ∀ b ∈ next a, b ∈ vertices) (nodup : path.Nodup)
    (within : ∀ b ∈ path, b ∈ vertices) (member : a ∈ vertices) (enough : vertices.card - path.length < fuel) :
    explore next fuel path done a ≠ .error .outOfFuel := by
  induction fuel generalizing path done a with
  | zero => omega
  | succ fuel ih =>
    by_cases known : a ∈ done
    · rw [explore_of_mem_done known]
      intro failed
      cases failed
    by_cases onPath : a ∈ path
    · rw [explore_of_mem_path known onPath]
      intro failed
      cases failed
    rw [explore_of_fresh known onPath]
    have within' : ∀ b ∈ a :: path, b ∈ vertices := by
      intro b listed
      rcases List.mem_cons.1 listed with rfl | later
      · exact member
      · exact within b later
    have nodup' : (a :: path).Nodup := List.nodup_cons.2 ⟨onPath, nodup⟩
    have room : (a :: path).length ≤ vertices.card := by
      rw [← List.toFinset_card_of_nodup nodup']
      exact Finset.card_le_card fun b listed => within' b (List.mem_toFinset.1 listed)
    rw [List.length_cons] at room
    have scan (starts : List α) (edges : ∀ b ∈ starts, b ∈ next a) (done : List α) :
        starts.foldlM (explore next fuel (a :: path)) done ≠ .error .outOfFuel := by
      induction starts generalizing done with
      | nil =>
        intro failed
        cases failed
      | cons b starts ihStarts =>
        rw [List.foldlM_cons]
        have first : explore next fuel (a :: path) done b ≠ .error .outOfFuel :=
          ih nodup' within' (closed a member b (edges b List.mem_cons_self)) (by rw [List.length_cons]; omega)
        cases result : explore next fuel (a :: path) done b with
        | ok middle => exact ihStarts (fun b member => edges b (List.mem_cons_of_mem _ member)) middle
        | error stop =>
          rw [result] at first
          cases stop with
          | cycle =>
            intro failed
            cases failed
          | outOfFuel => exact absurd rfl first
    have inner := scan (next a) (fun _ member => member) done
    cases result : (next a).foldlM (explore next fuel (a :: path)) done with
    | ok middle =>
      intro failed
      cases failed
    | error stop =>
      rw [result] at inner
      cases stop with
      | cycle =>
        intro failed
        cases failed
      | outOfFuel => exact absurd rfl inner

/-! ### A search from nothing -/

theorem explore_start {vertices : Finset α} (closed : ∀ a ∈ vertices, ∀ b ∈ next a, b ∈ vertices) (member : a ∈ vertices)
    (enough : vertices.card < fuel) :
    (∃ c, explore next fuel [] [] a = .error (.cycle c) ∧ ReflTransGen (Edge next) a c ∧ TransGen (Edge next) c c) ∨
    (∃ done, explore next fuel [] [] a = .ok done ∧ Topological next done ∧ (∀ b, b ∈ done ↔ ReflTransGen (Edge next) a b) ∧
      ∀ b, ReflTransGen (Edge next) a b → ¬TransGen (Edge next) b b) := by
  have nowhere : ∀ b ∈ ([] : List α), b ∈ vertices := fun b listed => absurd listed List.not_mem_nil
  have fueled : explore next fuel [] [] a ≠ .error .outOfFuel :=
    explore_fuel closed List.nodup_nil nowhere member (Nat.lt_of_le_of_lt (Nat.sub_le _ _) enough)
  cases result : explore next fuel [] [] a with
  | error stop =>
    rw [result] at fueled
    cases stop with
    | cycle c => exact .inl ⟨c, rfl, explore_cycle (List.isChain_singleton a) result⟩
    | outOfFuel => exact absurd rfl fueled
  | ok done =>
    have adds := explore_adds .nil (fun b listed => absurd listed List.not_mem_nil) result
    have start := adds.taken a List.mem_cons_self
    refine .inr ⟨done, rfl, adds.listed, fun b => ⟨fun listed => ?_, adds.listed.closed_reflTransGen start⟩, ?_⟩
    · rcases adds.reached b listed with nothing | ⟨c, same, reaches⟩
      · cases nothing
      · rwa [List.mem_singleton.1 same] at reaches
    · intro b reaches
      exact adds.listed.acyclic (adds.listed.closed_reflTransGen start reaches)

end BasicNext.Lib.DepthFirst
