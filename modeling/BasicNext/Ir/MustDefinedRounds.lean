import BasicNext.Ir.MustDefined

/-!
# When the must-defined loop stops

The loop stops in the first round that changes nothing. For a value that the entry does not define, the blocks
that have lost it grow from round to round, so they settle. For a value that it does, they are the blocks that a
walk from the early successors of the entry reaches around the entry, with one more backward edge each round:
where those walks go around a cycle out of step, the loop never stops.
-/

namespace BasicNext.Ir

open Lib

variable {function : Function} {reachable : Finset Nat} {allValues : Finset ValueId} {sets result : MustDefined}
  {value : ValueId} {index count : Nat}

/-! ### Rounds without a change -/

theorem round_of_solves (structured : function.Structured reachable allValues)
    (solves : sets.Solves function reachable) : round function reachable sets = (sets, false) := by
  unfold round
  refine List.foldl_fixed' (fun index => ?_) _
  by_cases member : index ∈ reachable
  · obtain ⟨incoming, outgoing⟩ := solves index (structured.lt member) member
    simp only [updateBlock, member, not_true_eq_false, if_false, ← incoming]
    simp only [← outgoing, Function.update_eq_self, bne_self_eq_false, Bool.or_self]
  · simp [updateBlock, member]

theorem round_solves (structured : function.Structured reachable allValues)
    (same : ∀ value index, sets.Lost reachable value index ↔ (round function reachable sets).1.Lost reachable value index) :
    (round function reachable sets).1.Solves function reachable := by
  have kept : ∀ value, ∀ index ∈ reachable,
      value ∈ sets.outgoing index ↔ value ∈ (round function reachable sets).1.outgoing index := by
    intro value index member
    have lost := same value index
    unfold MustDefined.Lost at lost
    simpa [member, not_iff_not] using lost
  intro index bound member
  obtain ⟨incoming, outgoing⟩ := round_at sets bound member
  refine ⟨?_, outgoing⟩
  rw [incoming]
  ext value
  rw [mem_nextIncoming structured member, mem_nextIncoming structured member]
  refine and_congr Iff.rfl (forall₂_congr fun source known => ?_)
  rw [round_reads reachable sets source bound.le]
  split
  · rfl
  · rw [kept value source known]

def setsAfter (function : Function) (reachable : Finset Nat) (sets : MustDefined) : Nat → MustDefined
  | 0 => sets
  | count + 1 => (round function reachable (setsAfter function reachable sets count)).1

theorem setsAfter_succ : setsAfter function reachable sets (count + 1) =
    setsAfter function reachable (round function reachable sets).1 count := by
  induction count with
  | zero => rfl
  | succ count ih => rw [setsAfter, ih, ← setsAfter]

theorem setsAfter_of_le (structured : function.Structured reachable allValues) {later : Nat} (le : count ≤ later)
    (solves : (setsAfter function reachable sets count).Solves function reachable) :
    setsAfter function reachable sets later = setsAfter function reachable sets count := by
  induction later, le using Nat.le_induction with
  | base => rfl
  | succ later _ ih => rw [setsAfter, ih, round_of_solves structured solves]

theorem mustDefinedLoop_eq_ok (structured : function.Structured reachable allValues) :
    (∃ fuel, mustDefinedLoop function reachable fuel sets = .ok result) ↔
      ∃ count, setsAfter function reachable sets count = result ∧ result.Solves function reachable := by
  constructor
  · rintro ⟨fuel, loop⟩
    have solves := mustDefinedLoop_solves loop
    suffices ∃ count, setsAfter function reachable sets count = result from this.imp fun _ after => ⟨after, solves⟩
    induction fuel generalizing sets with
    | zero => simp [mustDefinedLoop] at loop
    | succ fuel ih =>
      rw [mustDefinedLoop] at loop
      cases outcome : round function reachable sets with
      | mk next changed =>
        have first : (round function reachable sets).1 = next := by rw [outcome]
        rw [outcome] at loop
        cases changed with
        | true =>
          obtain ⟨count, after⟩ := ih loop
          exact ⟨count + 1, by rw [setsAfter_succ, first, after]⟩
        | false => exact ⟨1, by simpa [setsAfter, first] using loop⟩
  · rintro ⟨count, after, solves⟩
    induction count generalizing sets with
    | zero =>
      obtain rfl : sets = result := after
      exact ⟨1, by simp [mustDefinedLoop, round_of_solves structured solves]⟩
    | succ count ih =>
      rw [setsAfter_succ] at after
      obtain ⟨fuel, loop⟩ := ih after
      cases outcome : round function reachable sets with
      | mk next changed =>
        cases changed with
        | true => exact ⟨fuel + 1, by simpa [mustDefinedLoop, outcome] using loop⟩
        | false =>
          obtain ⟨rfl, here⟩ := round_unchanged outcome
          rw [outcome] at after
          rw [setsAfter_of_le structured (show 0 ≤ count from Nat.zero_le count) here] at after
          obtain rfl : next = result := after
          exact ⟨1, by simp [mustDefinedLoop, outcome]⟩

theorem solves_iff_lost (structured : function.Structured reachable allValues) :
    (∃ count, (setsAfter function reachable sets count).Solves function reachable) ↔
      ∃ count, ∀ value index, (setsAfter function reachable sets count).Lost reachable value index ↔
        (setsAfter function reachable sets (count + 1)).Lost reachable value index := by
  constructor
  · intro ⟨count, solves⟩
    refine ⟨count, fun value index => ?_⟩
    rw [setsAfter_of_le structured (Nat.le_succ count) solves]
  · intro ⟨count, same⟩
    exact ⟨count + 1, round_solves structured same⟩

/-! ### The blocks that have lost a value, round by round -/

/-- A block has lost the value after a number of rounds of the loop. -/
def LostAfter (function : Function) (reachable : Finset Nat) (allValues : Finset ValueId) (count : Nat) (value : ValueId) :
    Nat → Prop :=
  (setsAfter function reachable (initialSets function reachable allValues) count).Lost reachable value

theorem LostAfter.mem (lost : LostAfter function reachable allValues count value index) : index ∈ reachable := lost.1

theorem lostAfter_zero : LostAfter function reachable allValues 0 value index ↔
    index ∈ reachable ∧ (index = function.entry ∨ value ∉ allValues) := by
  unfold LostAfter setsAfter initialSets MustDefined.Lost
  by_cases member : index ∈ reachable
  · by_cases entry : index = function.entry
    · simp [entry]
    · simp [member, entry]
  · simp [member]

section
variable (structured : function.Structured reachable allValues)
include structured

theorem lostAfter_sweep (count : Nat) (value : ValueId) :
    Sweep function.Edge (fun index => index ∈ reachable ∧ ¬ function.DefinesAt index value) (· = function.entry)
      (LostAfter function reachable allValues count value) (LostAfter function reachable allValues (count + 1) value) :=
  round_sweep structured

theorem lostAfter_grows (free : ¬ function.DefinesAt function.entry value)
    (lost : LostAfter function reachable allValues count value index) :
    LostAfter function reachable allValues (count + 1) value index := by
  induction count generalizing index with
  | zero =>
    have entry := ((lostAfter_sweep structured 0 value) function.entry).2 ⟨⟨structured.closed.1, free⟩, .inl rfl⟩
    obtain ⟨member, rfl | unknown⟩ := lostAfter_zero.1 lost
    · exact entry
    -- a value without a definition is in no set from the start
    · have nowhere (u : Nat) : ¬ function.DefinesAt u value := fun defines => unknown (structured.definesAt_mem defines)
      by_cases start : index = function.entry
      · exact start ▸ entry
      obtain ⟨source, known, edge⟩ := structured.predecessor member start
      induction index using Nat.strong_induction_on generalizing source with
      | _ index ih =>
        refine ((lostAfter_sweep structured 0 value) index).2 ⟨⟨member, nowhere index⟩, .inr ⟨source, edge, ?_⟩⟩
        by_cases before : source < index
        · refine .inl ⟨before, ?_⟩
          by_cases first : source = function.entry
          · exact first ▸ entry
          obtain ⟨earlier, known', edge'⟩ := structured.predecessor known first
          exact ih source before (lostAfter_zero.2 ⟨known, .inr unknown⟩) known first earlier known' edge'
        · exact .inr ⟨by omega, lostAfter_zero.2 ⟨known, .inr unknown⟩⟩
  | succ count ih =>
    exact (lostAfter_sweep structured count value).mono (lostAfter_sweep structured (count + 1) value)
      (fun _ start => start) (fun _ => ih) index lost

theorem lostAfter_of_le (free : ¬ function.DefinesAt function.entry value) {later : Nat} (le : count ≤ later)
    (lost : LostAfter function reachable allValues count value index) :
    LostAfter function reachable allValues later value index := by
  induction later, le using Nat.le_induction with
  | base => exact lost
  | succ later _ ih => exact lostAfter_grows structured free ih

theorem eventually_lostAfter : ∀ᶠ count in Filter.atTop, ∀ value, ¬ function.DefinesAt function.entry value → ∀ index,
    (LostAfter function reachable allValues count value index ↔
      LostAfter function reachable allValues (count + 1) value index) := by
  have settles : ∀ᶠ count in Filter.atTop, ∀ value ∈ allValues, ∀ index ∈ reachable,
      ¬ function.DefinesAt function.entry value → (LostAfter function reachable allValues count value index ↔
        LostAfter function reachable allValues (count + 1) value index) := by
    refine (Filter.eventually_all_finset _).2 fun value _ => (Filter.eventually_all_finset _).2 fun index _ => ?_
    by_cases ever : ∃ count, LostAfter function reachable allValues count value index
    · obtain ⟨first, lost⟩ := ever
      filter_upwards [Filter.eventually_ge_atTop first] with count after free
      have here := lostAfter_of_le structured free after lost
      exact iff_of_true here (lostAfter_grows structured free here)
    · exact .of_forall fun count _ => iff_of_false (fun lost => ever ⟨_, lost⟩) fun lost => ever ⟨_, lost⟩
  filter_upwards [settles] with count settled value free index
  by_cases member : index ∈ reachable
  swap
  · exact iff_of_false (fun lost => member lost.mem) fun lost => member lost.mem
  by_cases known : value ∈ allValues
  · exact settled value known index member free
  · have lost : LostAfter function reachable allValues 0 value index := lostAfter_zero.2 ⟨member, .inr known⟩
    exact iff_of_true (lostAfter_of_le structured free (Nat.zero_le _) lost)
      (lostAfter_of_le structured free (Nat.zero_le _) lost)

end

/-! ### Values that the entry defines -/

def Function.Inner (function : Function) (source target : Nat) : Prop :=
  function.Edge source target ∧ source ≠ function.entry ∧ target ≠ function.entry

/-- A successor of the entry that a round visits before it. -/
def Function.Early (function : Function) (index : Nat) : Prop :=
  function.Edge function.entry index ∧ index < function.entry

section
variable (structured : function.Structured reachable allValues)
include structured

theorem inner_sweep (defines : function.DefinesAt function.entry value) {old new : Nat → Prop}
    (known : ∀ index, old index → index ∈ reachable)
    (sweep : Sweep function.Edge (fun index => index ∈ reachable ∧ ¬ function.DefinesAt index value)
      (· = function.entry) old new) :
    Sweep function.Inner (fun _ => True) (fun index => old function.entry ∧ function.Early index)
      (fun index => old index ∧ index ≠ function.entry) new := by
  have elsewhere (index : Nat) : ¬ function.DefinesAt index value ↔ index ≠ function.entry := by
    constructor
    · intro free entry
      exact free (entry ▸ defines)
    · intro ne again
      exact ne (structured.definesAt_unique again defines)
  have lost : ∀ index, new index → index ∈ reachable ∧ index ≠ function.entry := by
    intro index mark
    obtain ⟨⟨member, free⟩, -⟩ := (sweep index).1 mark
    exact ⟨member, (elsewhere index).1 free⟩
  intro index
  constructor
  · intro mark
    obtain ⟨member, ne⟩ := lost index mark
    refine ⟨trivial, ?_⟩
    obtain ⟨-, entry | ⟨source, edge, ⟨before, mark⟩ | ⟨after, mark⟩⟩⟩ := (sweep index).1 mark
    · exact absurd entry ne
    · exact .inr ⟨source, ⟨edge, (lost source mark).2, ne⟩, .inl ⟨before, mark⟩⟩
    · by_cases entry : source = function.entry
      · subst entry
        exact .inl ⟨mark, edge, by omega⟩
      · exact .inr ⟨source, ⟨edge, entry, ne⟩, .inr ⟨after, mark, entry⟩⟩
  · rintro ⟨-, ⟨mark, edge, early⟩ | ⟨source, ⟨edge, -, ne⟩, step⟩⟩
    · have member := structured.closed.2 _ structured.closed.1 index edge
      exact (sweep index).2 ⟨⟨member, (elsewhere index).2 (by omega)⟩, .inr ⟨_, edge, .inr ⟨early.le, mark⟩⟩⟩
    · have from_lost : source ∈ reachable := by
        obtain ⟨-, mark⟩ | ⟨-, mark, -⟩ := step
        · exact (lost source mark).1
        · exact known source mark
      have member := structured.closed.2 source from_lost index edge
      refine (sweep index).2 ⟨⟨member, (elsewhere index).2 ne⟩, .inr ⟨source, edge, ?_⟩⟩
      exact step.imp_right fun ⟨after, mark, _⟩ => ⟨after, mark⟩

theorem lostAfter_entry (defines : function.DefinesAt function.entry value) (count index : Nat) :
    LostAfter function reachable allValues (count + 1) value index ↔ Turns function.Inner function.Early count index := by
  have swept (count : Nat) := inner_sweep structured defines (fun _ => LostAfter.mem)
    (lostAfter_sweep structured count value)
  have start : LostAfter function reachable allValues 0 value function.entry :=
    lostAfter_zero.2 ⟨structured.closed.1, .inl rfl⟩
  induction count generalizing index with
  | zero =>
    refine (swept 0).unique Turns.first (fun u => ⟨fun ⟨_, early⟩ => early, fun early => ⟨start, early⟩⟩) (fun u => ?_) index
    refine iff_of_false (fun ⟨lost, ne⟩ => ?_) id
    obtain ⟨-, entry | unknown⟩ := lostAfter_zero.1 lost
    · exact ne entry
    · exact unknown (structured.definesAt_mem defines)
  | succ count ih =>
    have around (u : Nat) (lost : LostAfter function reachable allValues (count + 1) value u) : u ≠ function.entry := by
      obtain ⟨⟨-, free⟩, -⟩ := (lostAfter_sweep structured count value u).1 lost
      exact fun entry => free (entry ▸ defines)
    refine (swept (count + 1)).unique Turns.more (fun u => ?_) (fun u => ?_) index
    · exact iff_of_false (fun ⟨lost, _⟩ => around _ lost rfl) id
    · have same : LostAfter function reachable allValues (count + 1) value u ∧ u ≠ function.entry ↔
          LostAfter function reachable allValues (count + 1) value u := and_iff_left_of_imp (around u)
      exact same.trans (ih u)

/-! ### The loop -/

theorem mustDefinedLoop_stops :
    (∃ fuel result, mustDefinedLoop function reachable fuel (initialSets function reachable allValues) = .ok result) ↔
      ∃ count, ∀ value index, LostAfter function reachable allValues count value index ↔
        LostAfter function reachable allValues (count + 1) value index := by
  unfold LostAfter
  rw [← solves_iff_lost structured, exists_comm]
  constructor
  · intro ⟨result, loop⟩
    obtain ⟨count, rfl, solves⟩ := (mustDefinedLoop_eq_ok structured).1 loop
    exact ⟨count, solves⟩
  · intro ⟨count, solves⟩
    exact ⟨_, (mustDefinedLoop_eq_ok structured).2 ⟨count, rfl, solves⟩⟩

/-- The loop stops exactly when the entry defines no value, or some number of backward edges reaches around the entry
the blocks that one more reaches. -/
theorem mustDefinedLoop_stops_iff :
    (∃ fuel result, mustDefinedLoop function reachable fuel (initialSets function reachable allValues) = .ok result) ↔
      (∀ value, ¬ function.DefinesAt function.entry value) ∨
        ∃ turns, ∀ index, Turns function.Inner function.Early turns index ↔
          Turns function.Inner function.Early (turns + 1) index := by
  rw [mustDefinedLoop_stops structured]
  constructor
  · intro ⟨count, same⟩
    by_cases none : ∀ value, ¬ function.DefinesAt function.entry value
    · exact .inl none
    push Not at none
    obtain ⟨value, defines⟩ := none
    cases count with
    | zero =>
      have lost := (same value function.entry).1 (lostAfter_zero.2 ⟨structured.closed.1, .inl rfl⟩)
      obtain ⟨⟨-, free⟩, -⟩ := (lostAfter_sweep structured 0 value function.entry).1 lost
      exact absurd defines free
    | succ turns =>
      refine .inr ⟨turns, fun index => ?_⟩
      rw [← lostAfter_entry structured defines, ← lostAfter_entry structured defines]
      exact same value index
  · intro condition
    obtain ⟨settled, free⟩ := Filter.eventually_atTop.1 (eventually_lostAfter structured)
    obtain none | ⟨turns, same⟩ := condition
    · exact ⟨settled, fun value => free settled le_rfl value (none value)⟩
    · refine ⟨max settled turns + 1, fun value => ?_⟩
      by_cases defines : function.DefinesAt function.entry value
      · intro index
        rw [lostAfter_entry structured defines, lostAfter_entry structured defines]
        have before := Turns.settled same (le_max_right settled turns) index
        exact before.symm.trans (Turns.settled same (Nat.le_succ_of_le (le_max_right settled turns)) index)
      · exact free _ (Nat.le_succ_of_le (le_max_left settled turns)) value defines

end

/-! ### A loop that does not stop -/

/-- A ring of three blocks, listed against its direction, in front of the entry that jumps into it. -/
def backwardRing : Function :=
  { name := "Work", kind := .user, owner := none, parameters := [], weakSymbols := ∅,
    returnType := .named "VOID", entry := 3,
    blocks := [⟨0, [], .jump 2⟩, ⟨1, [], .jump 0⟩, ⟨2, [], .jump 1⟩,
      ⟨3, [.constant 0 (.boolean true) .boolean defaultModuleSpan], .jump 0⟩],
    span := defaultModuleSpan }

theorem backwardRing_structured : backwardRing.Structured {1, 2, 0, 3} {0} := ⟨by decide, ⟨8, rfl⟩, rfl⟩

theorem backwardRing_inner (source target : Nat) : backwardRing.Inner source target ↔
    source = 0 ∧ target = 2 ∨ source = 1 ∧ target = 0 ∨ source = 2 ∧ target = 1 := by
  unfold Function.Inner Function.Edge
  match source with
  | 0 => simp [backwardRing, Function.successors, blockSuccessors]; omega
  | 1 => simp [backwardRing, Function.successors, blockSuccessors]; omega
  | 2 => simp [backwardRing, Function.successors, blockSuccessors]; omega
  | 3 => simp [backwardRing, Function.successors, blockSuccessors]
  | source + 4 => simp [backwardRing, Function.successors]

theorem backwardRing_early (index : Nat) : backwardRing.Early index ↔ index = 0 := by
  unfold Function.Early Function.Edge
  simp [backwardRing, Function.successors, blockSuccessors]
  omega

theorem backwardRing_turns (turns : Nat) :
    Turns backwardRing.Inner backwardRing.Early turns 0 ↔ turns % 2 = 0 := by
  constructor
  · have parity : ∀ {turns index}, Turns backwardRing.Inner backwardRing.Early turns index →
        (index = 0 ∨ index = 2) ∧ turns % 2 = 0 ∨ index = 1 ∧ turns % 2 = 1 := by
      intro turns index walk
      induction walk with
      | start early =>
        rw [backwardRing_early] at early
        omega
      | up walk edge before ih =>
        rw [backwardRing_inner] at edge
        omega
      | turn walk edge after ih =>
        rw [backwardRing_inner] at edge
        omega
    intro walk
    have := parity walk
    omega
  · intro even
    obtain ⟨rounds, rfl⟩ : ∃ rounds, turns = 2 * rounds := ⟨turns / 2, by omega⟩
    induction rounds with
    | zero => exact .start ((backwardRing_early 0).2 rfl)
    | succ rounds ih =>
      have there : Turns backwardRing.Inner backwardRing.Early (2 * rounds) 2 :=
        .up (ih (by omega)) ((backwardRing_inner 0 2).2 (by omega)) (by omega)
      exact .turn (.turn there ((backwardRing_inner 2 1).2 (by omega)) (by omega))
        ((backwardRing_inner 1 0).2 (by omega)) (by omega)

/-- The function passes the structural checks, and no number of rounds is enough. -/
theorem mustDefinedLoop_forever : ¬ ∀ (function : Function) (reachable : Finset Nat) (allValues : Finset ValueId),
    function.Structured reachable allValues →
      ∃ fuel result, mustDefinedLoop function reachable fuel (initialSets function reachable allValues) = .ok result := by
  intro always
  have structured := backwardRing_structured
  obtain ⟨count, same⟩ := (mustDefinedLoop_stops structured).1 (always _ _ _ structured)
  have defines : backwardRing.DefinesAt 3 0 :=
    ⟨.constant 0 (.boolean true) .boolean defaultModuleSpan, by simp [backwardRing, Function.instructionsAt], rfl⟩
  cases count with
  | zero =>
    obtain ⟨⟨-, free⟩, -⟩ := (lostAfter_sweep structured 0 0 3).1 ((same 0 3).1 (lostAfter_zero.2 ⟨by simp, .inl rfl⟩))
    exact free defines
  | succ turns =>
    have parity := same 0 0
    rw [lostAfter_entry structured defines, lostAfter_entry structured defines, backwardRing_turns,
      backwardRing_turns] at parity
    omega

theorem mustDefinedLoop_stops_backwardRing :
    backwardRing.Structured {1, 2, 0, 3} {0} ∧
      ((∃ fuel result, mustDefinedLoop backwardRing {1, 2, 0, 3} fuel (initialSets backwardRing {1, 2, 0, 3} {0}) =
          .ok result) ↔
        (∀ value, ¬ backwardRing.DefinesAt backwardRing.entry value) ∨
          ∃ turns, ∀ index, Turns backwardRing.Inner backwardRing.Early turns index ↔
            Turns backwardRing.Inner backwardRing.Early (turns + 1) index) :=
  ⟨backwardRing_structured, mustDefinedLoop_stops_iff backwardRing_structured⟩

end BasicNext.Ir
