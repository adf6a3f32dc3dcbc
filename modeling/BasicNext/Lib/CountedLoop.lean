import Mathlib.Data.Int.Init
import Mathlib.Order.Lattice

/-!
# Counted loops

A loop tests its variable, runs its body, asks whether another step fits and takes it. The body works on a
state of its own and may leave the loop. A loop visits a list of values when it runs every body for exactly
these and then ends. A loop whose operations are those of the integers visits an arithmetic progression.
-/

namespace BasicNext.Lib

/-! ### Progressions -/

/-- The first integers of a progression. -/
def progression (start step : Int) : Nat → List Int
  | 0 => []
  | count + 1 => start :: progression (start + step) step count

/-- An integer that a progression towards `stop` has not passed. -/
def Within (step stop n : Int) : Prop := if 0 < step then n ≤ stop else stop ≤ n

instance (step stop n : Int) : Decidable (Within step stop n) := inferInstanceAs (Decidable (ite ..))

/-- How many integers of a progression are within `stop`. -/
def progressionCount (start step stop : Int) : Nat := (Int.fdiv (stop - start) step + 1).toNat

/-- `start`, `start + step` and so on, up to the last that is within `stop`. -/
def progressionTo (start step stop : Int) : List Int := progression start step (progressionCount start step stop)

section

variable {start step stop n m : Int} {count other : Nat}

theorem length_progression (start step : Int) (count : Nat) : (progression start step count).length = count := by
  induction count generalizing start with
  | zero => rfl
  | succ count ih => rw [progression, List.length_cons, ih]

theorem mem_progression : n ∈ progression start step count ↔ ∃ i < count, n = start + i * step := by
  induction count generalizing start with
  | zero => simp [progression]
  | succ count ih =>
    rw [progression, List.mem_cons, ih]
    constructor
    · rintro (rfl | ⟨i, less, rfl⟩)
      · exact ⟨0, Nat.succ_pos _, by simp⟩
      · refine ⟨i + 1, Nat.succ_lt_succ less, ?_⟩
        rw [Int.natCast_add, Int.add_mul]
        omega
    · rintro ⟨i, less, rfl⟩
      cases i with
      | zero => exact .inl (by simp)
      | succ i =>
        refine .inr ⟨i, Nat.lt_of_succ_lt_succ less, ?_⟩
        rw [Int.natCast_add, Int.add_mul]
        omega

theorem lt_progressionCount (nonzero : step ≠ 0) :
    count < progressionCount start step stop ↔ Within step stop (start + count * step) := by
  rw [progressionCount, Within]
  by_cases positive : 0 < step
  · rw [if_pos positive, Int.fdiv_eq_ediv_of_nonneg _ positive.le]
    have multiple : (count : Int) ≤ (stop - start) / step ↔ count * step ≤ stop - start := Int.le_ediv_iff_mul_le positive
    omega
  · rw [if_neg positive]
    have opposite : 0 < -step := by omega
    have quotient : Int.fdiv (stop - start) step = (start - stop) / -step := by
      rw [← Int.neg_fdiv_neg, Int.neg_sub, Int.fdiv_eq_ediv_of_nonneg _ opposite.le]
    have multiple : (count : Int) ≤ (start - stop) / -step ↔ count * -step ≤ start - stop := Int.le_ediv_iff_mul_le opposite
    have sign : (count : Int) * -step = -(count * step) := Int.mul_neg _ _
    rw [quotient]
    omega

/-- The end of a progression that stays from `low` to `high`. -/
def boundedStop (low high step stop : Int) : Int := if 0 < step then min stop high else max stop low

theorem within_boundedStop {low high : Int} (inside : low ≤ start ∧ start ≤ high) (i : Nat) :
    Within step (boundedStop low high step stop) (start + i * step) ↔
      Within step stop (start + i * step) ∧ low ≤ start + i * step ∧ start + i * step ≤ high := by
  rw [Within, Within, boundedStop]
  by_cases positive : 0 < step
  · have moved : 0 ≤ (i : Int) * step := Int.mul_nonneg (Int.natCast_nonneg i) positive.le
    rw [if_pos positive, if_pos positive, if_pos positive]
    omega
  · have moved : (i : Int) * step ≤ 0 := Int.mul_nonpos_of_nonneg_of_nonpos (Int.natCast_nonneg i) (by omega)
    rw [if_neg positive, if_neg positive, if_neg positive]
    omega

theorem counts_next (inside : Int → Prop) (counts : ∀ i : Nat, i < count + 1 ↔ inside (start + i * step)) (i : Nat) :
    i < count ↔ inside (start + step + i * step) := by
  have next : start + ((i + 1 : Nat) : Int) * step = start + step + i * step := by
    rw [Int.natCast_add, Int.add_mul]
    omega
  rw [← next, ← counts]
  omega

theorem progression_injective (nonempty : 2 ≤ count)
    (same : progression start step count = progression start m other) : step = m := by
  obtain ⟨rest, rfl⟩ := Nat.exists_eq_add_of_le' nonempty
  have lengths := congrArg List.length same
  rw [length_progression, length_progression] at lengths
  rw [← lengths] at same
  have second := (List.cons.inj (List.cons.inj same).2).1
  omega

theorem progression_of_lt (short : count < 2) (start step other : Int) :
    progression start step count = progression start other count := by
  match count with
  | 0 => rfl
  | 1 => rfl

end

/-! ### Loops -/

/-- The operations of a loop on its variable. -/
structure CountedLoop (σ ε : Type) where
  test : σ → Except ε Bool
  fits : σ → Except ε Bool
  advance : σ → Except ε σ

namespace CountedLoop

variable {σ ε : Type} {loop : CountedLoop σ ε} {current next : σ} {visited others : List σ}

/-- A loop fails with an error of its own or its body, or its body leaves it; none when the fuel runs out. -/
def run {τ ω : Type} (loop : CountedLoop σ ε) (body : σ → τ → Except (ε ⊕ ω) τ) :
    Nat → σ → τ → Option (Except (ε ⊕ ω) τ)
  | 0, _, _ => none
  | fuel + 1, current, state =>
    match loop.test current with
    | .error stop => some (.error (.inl stop))
    | .ok false => some (.ok state)
    | .ok true =>
      match body current state with
      | .error exit => some (.error exit)
      | .ok state =>
        match loop.fits current with
        | .error stop => some (.error (.inl stop))
        | .ok false => some (.ok state)
        | .ok true =>
          match loop.advance current with
          | .error stop => some (.error (.inl stop))
          | .ok next => run loop body fuel next state

/-- What running the body for each of the values does. -/
def bodies {τ ω : Type} (body : σ → τ → Except (ε ⊕ ω) τ) : List σ → τ → Except (ε ⊕ ω) τ
  | [], state => .ok state
  | value :: values, state =>
    match body value state with
    | .error exit => .error exit
    | .ok state => bodies body values state

/-- The loop ends, and whatever its body is, it runs the body for these values, one after the other. -/
def Runs (loop : CountedLoop σ ε) (current : σ) (visited : List σ) : Prop :=
  ∃ fuel, ∀ (τ ω : Type) (body : σ → τ → Except (ε ⊕ ω) τ) (state : τ),
    run loop body fuel current state = some (bodies body visited state)

/-- The values that a loop visits when no body leaves it. -/
inductive Visits (loop : CountedLoop σ ε) : σ → List σ → Prop
  | ends {current : σ} : loop.test current = .ok false → Visits loop current []
  | last {current : σ} : loop.test current = .ok true → loop.fits current = .ok false → Visits loop current [current]
  | step {current next : σ} {visited : List σ} : loop.test current = .ok true → loop.fits current = .ok true →
      loop.advance current = .ok next → Visits loop next visited → Visits loop current (current :: visited)

theorem visits_iff :
    Visits loop current visited ↔ (loop.test current = .ok false ∧ visited = []) ∨ loop.test current = .ok true ∧
          (loop.fits current = .ok false ∧ visited = [current] ∨ loop.fits current = .ok true ∧
              ∃ next rest, loop.advance current = .ok next ∧ Visits loop next rest ∧ visited = current :: rest) := by
  constructor
  · intro visits
    cases visits with
    | ends stops => exact .inl ⟨stops, rfl⟩
    | last continues stops => exact .inr ⟨continues, .inl ⟨stops, rfl⟩⟩
    | step continues fits advances rest => exact .inr ⟨continues, .inr ⟨fits, _, _, advances, rest, rfl⟩⟩
  · rintro (⟨stops, rfl⟩ | ⟨continues, ⟨stops, rfl⟩ | ⟨fits, _, _, advances, rest, rfl⟩⟩)
    · exact .ends stops
    · exact .last continues stops
    · exact .step continues fits advances rest

theorem Visits.unique (visits : Visits loop current visited) (other : Visits loop current others) :
    visited = others := by
  induction visits generalizing others with
  | ends stops =>
    rcases visits_iff.1 other with ⟨-, rfl⟩ | ⟨continues, -⟩
    · rfl
    · cases stops.symm.trans continues
  | last continues stops =>
    rcases visits_iff.1 other with ⟨ends, -⟩ | ⟨-, ⟨-, rfl⟩ | ⟨fits, -⟩⟩
    · cases continues.symm.trans ends
    · rfl
    · cases stops.symm.trans fits
  | step continues fits advances rest ih =>
    rcases visits_iff.1 other with ⟨ends, -⟩ | ⟨-, ⟨stops, -⟩ | ⟨-, _, _, advances', rest', rfl⟩⟩
    · cases continues.symm.trans ends
    · cases fits.symm.trans stops
    · cases advances.symm.trans advances'
      rw [ih rest']

theorem Visits.runs (visits : Visits loop current visited) : Runs loop current visited := by
  induction visits with
  | ends stops =>
    refine ⟨1, fun τ ω body state => ?_⟩
    rw [run, stops]
    rfl
  | last continues stops =>
    refine ⟨1, fun τ ω body state => ?_⟩
    rw [run, continues, bodies]
    simp only
    cases body _ state with
    | error exit => rfl
    | ok state =>
      simp only
      rw [stops]
      rfl
  | step continues fits advances _ ih =>
    obtain ⟨fuel, runs⟩ := ih
    refine ⟨fuel + 1, fun τ ω body state => ?_⟩
    rw [run, continues, bodies]
    simp only
    cases body _ state with
    | error exit => rfl
    | ok state =>
      simp only
      rw [fits, advances]
      exact runs τ ω body state

/-- The body that records the values it is run for. -/
def record (value : σ) (seen : List σ) : Except (ε ⊕ Empty) (List σ) := .ok (seen ++ [value])

theorem bodies_record (visited seen : List σ) :
    bodies (@record σ ε) visited seen = .ok (seen ++ visited) := by
  induction visited generalizing seen with
  | nil => rw [bodies, List.append_nil]
  | cons value values ih =>
    rw [bodies]
    exact (ih _).trans (congrArg Except.ok (List.append_assoc seen [value] values))

theorem visits_of_record {fuel : Nat} {seen seen' : List σ}
    (runs : run loop (@record σ ε) fuel current seen = some (.ok seen')) :
    ∃ visited, seen' = seen ++ visited ∧ Visits loop current visited := by
  induction fuel generalizing current seen with
  | zero => cases runs
  | succ fuel ih =>
    rw [run, record] at runs
    split at runs
    next => cases runs
    next stops =>
      cases runs
      exact ⟨[], (List.append_nil _).symm, .ends stops⟩
    next continues =>
      simp only at runs
      split at runs
      next => cases runs
      next stops =>
        cases runs
        exact ⟨[current], rfl, .last continues stops⟩
      next fits =>
        split at runs
        next => cases runs
        next next advances =>
          obtain ⟨rest, rfl, visits⟩ := ih runs
          exact ⟨current :: rest, List.append_assoc seen [current] rest, .step continues fits advances visits⟩

theorem runs_iff_visits : Runs loop current visited ↔ Visits loop current visited := by
  refine ⟨fun ⟨fuel, runs⟩ => ?_, Visits.runs⟩
  have recorded := runs _ _ record []
  rw [bodies_record] at recorded
  obtain ⟨values, same, visits⟩ := visits_of_record recorded
  rw [List.nil_append, List.nil_append] at same
  rwa [same]

/-! ### Loops over integers -/

theorem visits_progression (repr : Int → σ) (inside : Int → Prop) [DecidablePred inside] {start step stop : Int}
    {count : Nat} (test : ∀ n, inside n → loop.test (repr n) = .ok (decide (Within step stop n)))
    (fits : ∀ n, inside n → loop.fits (repr n) = .ok (decide (inside (n + step))))
    (first : inside start)
    (advance : Within step stop start → inside (start + step) →
      ∀ n, inside n → inside (n + step) → loop.advance (repr n) = .ok (repr (n + step)))
    (counts : ∀ i : Nat, i < count ↔ Within step stop (start + i * step) ∧ inside (start + i * step)) :
    Visits loop (repr start) ((progression start step count).map repr) := by
  induction count generalizing start with
  | zero =>
    have passed : ¬Within step stop start := by
      intro within
      have begins := (counts 0).2
      rw [Int.natCast_zero, Int.zero_mul, Int.add_zero] at begins
      exact absurd (begins ⟨within, first⟩) (Nat.lt_irrefl _)
    apply Visits.ends
    rw [test start first, decide_eq_false passed]
  | succ count ih =>
    have within := ((counts 0).1 (Nat.succ_pos _)).1
    rw [Int.natCast_zero, Int.zero_mul, Int.add_zero] at within
    have continues : loop.test (repr start) = .ok true := by rw [test start first, decide_eq_true within]
    have rest := counts_next (fun n => Within step stop n ∧ inside n) counts
    by_cases further : inside (start + step)
    · have steps := advance within further
      have visits := ih further (fun _ _ => steps) rest
      refine .step continues ?_ (steps start first further) visits
      rw [fits start first, decide_eq_true further]
    · -- The variable is at the end of what it can hold.
      have none_ : count = 0 := by
        by_contra more
        have second := ((rest 0).1 (Nat.pos_of_ne_zero more)).2
        rw [Int.natCast_zero, Int.zero_mul, Int.add_zero] at second
        exact further second
      subst none_
      refine .last continues ?_
      rw [fits start first, decide_eq_false further]

end CountedLoop

end BasicNext.Lib
