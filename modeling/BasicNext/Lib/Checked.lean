import BasicNext.Lib.Except
import BasicNext.Lib.Word

/-!
# Checked arithmetic

Computations that may find nothing, and that stop with a fault where the result of an operation does not fit its
word. A computation with faults of one kind is one with faults of another kind, and behind the same results two
computations that agree there agree.
-/

namespace BasicNext.Lib

variable {ε ε' : Type} {α β : Type} {n : Int}

namespace Word

def u8 : Word := ⟨false, 8, Nat.succ_pos _⟩

def u32 : Word := ⟨false, 32, Nat.succ_pos _⟩

theorem sixtyFour_pos : 0 < 64 := by decide

def u64 : Word := ⟨false, 64, sixtyFour_pos⟩

def i32 : Word := ⟨true, 32, Nat.succ_pos _⟩

def i64 : Word := ⟨true, 64, sixtyFour_pos⟩

def i128 : Word := ⟨true, 128, Nat.succ_pos _⟩

theorem inRange_u32 : u32.InRange n ↔ 0 ≤ n ∧ n ≤ 4294967295 := Iff.rfl

theorem inRange_u64 : u64.InRange n ↔ 0 ≤ n ∧ n ≤ 18446744073709551615 := Iff.rfl

theorem inRange_i32 : i32.InRange n ↔ -2147483648 ≤ n ∧ n ≤ 2147483647 := Iff.rfl

theorem inRange_i64 : i64.InRange n ↔ -9223372036854775808 ≤ n ∧ n ≤ 9223372036854775807 := Iff.rfl

/-- The result of an operation, or a fault where the word has no such integer. -/
def compute (word : Word) (fault : ε) (n : Int) : OptionT (Except ε) Int :=
  if word.InRange n then pure n else OptionT.mk (.error fault)

variable {word : Word} {fault : ε}

theorem compute_of_inRange (fits : word.InRange n) : word.compute fault n = pure n := if_pos fits

theorem compute_u8 (low : 0 ≤ n) (high : n ≤ 255) : u8.compute fault n = pure n := compute_of_inRange ⟨low, high⟩

theorem compute_u32 (low : 0 ≤ n) (high : n ≤ 4294967295) : u32.compute fault n = pure n := compute_of_inRange ⟨low, high⟩

theorem compute_u64 (low : 0 ≤ n) (high : n ≤ 18446744073709551615) : u64.compute fault n = pure n :=
  compute_of_inRange ⟨low, high⟩

theorem compute_i32 (low : -2147483648 ≤ n) (high : n ≤ 2147483647) : i32.compute fault n = pure n :=
  compute_of_inRange ⟨low, high⟩

theorem compute_i64 (low : -9223372036854775808 ≤ n) (high : n ≤ 9223372036854775807) :
    i64.compute fault n = pure n :=
  compute_of_inRange ⟨low, high⟩

theorem compute_i128 (low : -170141183460469231731687303715884105728 ≤ n)
    (high : n ≤ 170141183460469231731687303715884105727) : i128.compute fault n = pure n :=
  compute_of_inRange ⟨low, high⟩

end Word

/-! ### Computations without a fault -/

def Faultless (x : OptionT (Except ε) α) : Prop := ∀ fault, x.run ≠ .error fault

theorem faultless_pure (a : α) : Faultless (pure a : OptionT (Except ε) α) := fun _ failed => by cases failed

theorem faultless_failure : Faultless (failure : OptionT (Except ε) α) := fun _ failed => by cases failed

theorem faultless_of_bind {x : OptionT (Except ε) α} {g : α → OptionT (Except ε) β} (total : Faultless (x >>= g)) :
    Faultless x := fun fault failed => total fault (optionT_bind_eq_error.2 (.inl failed))

theorem Word.faultless_compute {word : Word} {fault : ε} : Faultless (word.compute fault n) ↔ word.InRange n := by
  unfold Word.compute
  by_cases fits : word.InRange n
  · rw [if_pos fits]
    exact iff_of_true (faultless_pure n) fits
  · rw [if_neg fits]
    exact iff_of_false (fun total => total fault rfl) fits

theorem Word.faultless_compute_bind {word : Word} {fault : ε} {g : Int → OptionT (Except ε) β} :
    Faultless (word.compute fault n >>= g) ↔ word.InRange n ∧ Faultless (g n) := by
  by_cases fits : word.InRange n
  · rw [Word.compute_of_inRange fits, pure_bind]
    exact (and_iff_right fits).symm
  · refine iff_of_false (fun total => total fault ?_) (fun both => fits both.1)
    rw [Word.compute, if_neg fits]
    rfl

/-- A computation with other faults. -/
def mapFault (f : ε → ε') (x : OptionT (Except ε) α) : OptionT (Except ε') α := OptionT.mk (x.run.mapError f)

variable {f : ε → ε'} {x : OptionT (Except ε) α}

theorem mapFault_eq_some {a : α} : (mapFault f x).run = .ok (some a) ↔ x.run = .ok (some a) := by
  rw [mapFault, OptionT.run_mk, mapError_eq_ok]

theorem mapFault_eq_error {fault : ε'} :
    (mapFault f x).run = .error fault ↔ ∃ cause, x.run = .error cause ∧ f cause = fault := by
  rw [mapFault, OptionT.run_mk]
  cases x.run <;> simp [Except.mapError]

theorem mapFault_guard {condition : Prop} [Decidable condition] :
    mapFault f (guard condition : OptionT (Except ε) Unit) = guard condition := by
  unfold guard
  split_ifs
  · rfl
  · rfl

theorem guard_of {condition : Prop} [Decidable condition] (holds : condition) :
    (guard condition : OptionT (Except ε) Unit) = pure () := if_pos holds

theorem mapFault_bind {g : α → OptionT (Except ε) β} {h : α → OptionT (Except ε') β}
    (same : ∀ a, x.run = .ok (some a) → mapFault f (g a) = h a) : mapFault f (x >>= g) = mapFault f x >>= h := by
  apply OptionT.ext
  rw [mapFault, OptionT.run_mk, OptionT.run_bind, OptionT.run_bind, mapFault, OptionT.run_mk]
  cases result : x.run with
  | error fault => rfl
  | ok found =>
    cases found with
    | none => rfl
    | some a => exact congrArg OptionT.run (same a result)

theorem mapFault_guard_bind {condition : Prop} [Decidable condition] {x : OptionT (Except ε) α}
    {y : OptionT (Except ε') α} (same : condition → mapFault f x = y) :
    mapFault f (guard condition >>= fun _ => x) = guard condition >>= fun _ => y := by
  rw [← mapFault_guard (f := f)]
  apply mapFault_bind
  intro value passed
  apply same
  by_contra fails
  rw [guard, if_neg fails] at passed
  cases passed

end BasicNext.Lib
