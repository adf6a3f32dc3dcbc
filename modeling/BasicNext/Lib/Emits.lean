import Mathlib.Data.List.Nodup

/-!
# What a program appends to a trace

A program with a state and errors emits a list of events when every successful run appends exactly these to a trace of
the state. Sequencing appends the lists.
-/

namespace BasicNext.Lib

variable {σ ε α β ω : Type}

/-- Every successful run of the program appends `events` to the trace. -/
def Emits (trace : σ → List ω) (events : List ω) (x : StateT σ (Except ε) α) : Prop :=
  ∀ s a s', x.run s = .ok (a, s') → trace s' = trace s ++ events

/-- Every value of a successful run satisfies `Q`. -/
def Yields (Q : α → Prop) (x : StateT σ (Except ε) α) : Prop := ∀ s a s', x.run s = .ok (a, s') → Q a

variable {f : α → StateT σ (Except ε) β} {x : StateT σ (Except ε) α}

theorem run_bind_eq_ok {s s' : σ} {b : β} (done : (x >>= f).run s = .ok (b, s')) :
    ∃ a between, x.run s = .ok (a, between) ∧ (f a).run between = .ok (b, s') := by
  rw [StateT.run_bind] at done
  cases here : x.run s with
  | error e =>
    rw [here] at done
    cases done
  | ok result =>
    rw [here] at done
    exact ⟨result.1, result.2, rfl, done⟩

theorem yields_mapM_length (f : α → StateT σ (Except ε) β) (l : List α) :
    Yields (fun bs => bs.length = l.length) (l.mapM f) := by
  induction l with
  | nil =>
    intro s bs s' done
    cases done
    rfl
  | cons a l ih =>
    intro s bs s' done
    rw [List.mapM_cons] at done
    obtain ⟨b, between, _, later⟩ := run_bind_eq_ok done
    obtain ⟨rest, _, mapped, ended⟩ := run_bind_eq_ok later
    cases ended
    rw [List.length_cons, List.length_cons, ih _ _ _ mapped]

namespace Emits

variable {trace : σ → List ω} {events later : List ω}

theorem pure (a : α) : Emits trace [] (Pure.pure a : StateT σ (Except ε) α) := by
  intro s a' s' done
  cases done
  rw [List.append_nil]

theorem throw (e : ε) : Emits trace events (throw e : StateT σ (Except ε) α) := by
  intro s a s' done
  cases done

theorem bind (first : Emits trace events x)
    (rest : ∀ a, Emits trace later (f a)) : Emits trace (events ++ later) (x >>= f) := by
  intro s b s' done
  obtain ⟨a, between, here, there⟩ := run_bind_eq_ok done
  rw [rest a between b s' there, first s a between here, List.append_assoc]

theorem bind_yields {Q : α → Prop}
    (first : Emits trace events x) (yields : Yields Q x) (rest : ∀ a, Q a → Emits trace later (f a)) :
    Emits trace (events ++ later) (x >>= f) := by
  intro s b s' done
  obtain ⟨a, between, here, there⟩ := run_bind_eq_ok done
  rw [rest a (yields s a between here) between b s' there, first s a between here, List.append_assoc]

theorem silent_bind (first : Emits trace [] x)
    (rest : ∀ a, Emits trace later (f a)) : Emits trace later (x >>= f) := first.bind rest

theorem bind_silent (first : Emits trace events x) (rest : ∀ a, Emits trace [] (f a)) : Emits trace events (x >>= f) := by
  have both := first.bind rest
  rwa [List.append_nil] at both

theorem lift_bind {x : Except ε α} (rest : ∀ a, x = .ok a → Emits trace events (f a)) :
    Emits trace events ((liftM x : StateT σ (Except ε) α) >>= f) := by
  intro s b s' done
  cases x with
  | error e => cases done
  | ok a => exact rest a rfl s b s' done

theorem modifyGet {f : σ → α × σ} (appends : ∀ s, trace (f s).2 = trace s ++ events) :
    Emits trace events (modifyGet f : StateT σ (Except ε) α) := by
  intro s a s' done
  have same : f s = (a, s') := Except.ok.inj done
  have here := appends s
  rwa [same] at here

theorem modify {f : σ → σ} (appends : ∀ s, trace (f s) = trace s ++ events) :
    Emits trace events (modify f : StateT σ (Except ε) PUnit) := modifyGet appends

theorem ite {c : Prop} [Decidable c] {x y : StateT σ (Except ε) α} (yes : c → Emits trace events x)
    (no : ¬ c → Emits trace events y) : Emits trace events (if c then x else y) := by
  split
  · next h => exact yes h
  · next h => exact no h

theorem mapM {events : α → List ω} (each : ∀ a, Emits trace (events a) (f a))
    (l : List α) : Emits trace (l.flatMap events) (l.mapM f) := by
  induction l with
  | nil => exact pure []
  | cons a l ih =>
    rw [List.mapM_cons, List.flatMap_cons]
    refine (each a).bind fun b => ?_
    exact ih.bind_silent fun bs => pure (b :: bs)

theorem foldlM {f : β → α → StateT σ (Except ε) β} (each : ∀ b a, Emits trace [] (f b a)) (l : List α) (b : β) :
    Emits trace [] (l.foldlM f b) := by
  induction l generalizing b with
  | nil => exact pure b
  | cons a l ih =>
    rw [List.foldlM_cons]
    exact (each b a).silent_bind ih

end Emits

theorem reverse_append_eq_iff {front indices : List ω} (distinct : (front ++ indices).Nodup) :
    indices.reverse ++ front = front ++ indices ↔ indices = [] ∨ (indices.length = 1 ∧ front = []) := by
  constructor
  · intro same
    cases indices with
    | nil => exact .inl rfl
    | cons i rest =>
      right
      have last : ((i :: rest).reverse ++ front).head? = (i :: rest).getLast? := by
        simp [List.getLast?_cons]
      cases front with
      | nil =>
        rw [List.nil_append, List.append_nil] at same
        rw [List.nil_append] at distinct
        have ends : (i :: rest).getLast? = some i := by
          rw [← List.head?_reverse, same]
          rfl
        cases rest with
        | nil => exact ⟨rfl, rfl⟩
        | cons j rest =>
          -- the last element would be the first one again
          have member : i ∈ j :: rest := by
            rw [List.getLast?_cons_cons] at ends
            exact List.mem_of_getLast? ends
          exact absurd member (List.nodup_cons.1 distinct).1
      | cons first front =>
        rw [same] at last
        have member : first ∈ i :: rest := List.mem_of_getLast? last.symm
        exact absurd member (fun here => (List.nodup_append.1 distinct).2.2 first List.mem_cons_self first here rfl)
  · intro short
    obtain rfl | ⟨one, rfl⟩ := short
    · simp
    · obtain ⟨i, rfl⟩ := List.length_eq_one_iff.1 one
      simp

end BasicNext.Lib
