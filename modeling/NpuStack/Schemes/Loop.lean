import Mathlib.Data.Nat.Notation

/-! A loop by its turns. From its state a turn throws, ends the loop with a result, or goes on.

        s ──turn──▶ inl s' ──turn──▶ inl s'' ──turn──▶ … ──▶ inr r | error e

    `run` takes at most so many turns, and `Ends` says that some number of them is enough; what a loop
    ends with is unique (`Ends.unique`). A loop whose turns shrink a variant ends (`ends_of_variant`). -/

namespace Loop

variable {ε σ ρ : Type}

/-- The result within that many turns. -/
def run (turn : σ → Except ε (σ ⊕ ρ)) : ℕ → σ → Option (Except ε ρ)
  | 0, _ => none
  | turns + 1, s =>
    match turn s with
    | .error e => some (.error e)
    | .ok (.inr r) => some (.ok r)
    | .ok (.inl s') => run turn turns s'

variable {turn : σ → Except ε (σ ⊕ ρ)} {s s' : σ}

/-- The loop ends, and with that result. -/
def Ends (turn : σ → Except ε (σ ⊕ ρ)) (s : σ) (r : Except ε ρ) : Prop := ∃ turns, run turn turns s = some r

theorem run_mono {turns : ℕ} {r : Except ε ρ} (h : run turn turns s = some r) (more : ℕ) :
    run turn (turns + more) s = some r := by
  induction turns generalizing s with
  | zero => cases h
  | succ turns ih =>
    rw [Nat.succ_add, run]
    rw [run] at h
    split at h
    · exact h
    · exact h
    · exact ih h

theorem Ends.unique {r r' : Except ε ρ} (h : Ends turn s r) (h' : Ends turn s r') : r = r' := by
  obtain ⟨n, hn⟩ := h
  obtain ⟨m, hm⟩ := h'
  have hsame := run_mono hn m
  rw [Nat.add_comm, run_mono hm n] at hsame
  exact (Option.some.inj hsame).symm

theorem Ends.iff {r r' : Except ε ρ} (h : Ends turn s r) : Ends turn s r' ↔ r' = r := by
  constructor
  · exact fun h' => h'.unique h
  · rintro rfl
    exact h

theorem ends_of_error {e : ε} (h : turn s = .error e) : Ends turn s (.error e) := ⟨1, by rw [run, h]⟩

theorem ends_of_stop {r : ρ} (h : turn s = .ok (.inr r)) : Ends turn s (.ok r) := ⟨1, by rw [run, h]⟩

theorem ends_of_next {r : Except ε ρ} (h : turn s = .ok (.inl s')) (hnext : Ends turn s' r) : Ends turn s r := by
  obtain ⟨turns, hrun⟩ := hnext
  exact ⟨turns + 1, by rw [run, h]; exact hrun⟩

/-- A loop that goes on to states of the same value `f` and of a smaller variant `μ` ends with the value. -/
theorem ends_of_variant {I : σ → Prop} (μ : σ → ℕ) (f : σ → ρ)
    (h : ∀ s, I s → turn s = .ok (.inr (f s)) ∨ ∃ s', turn s = .ok (.inl s') ∧ I s' ∧ μ s' < μ s ∧ f s' = f s)
    (hs : I s) : Ends turn s (.ok (f s)) := by
  induction hn : μ s using Nat.strongRecOn generalizing s with
  | ind n ih =>
    rcases h s hs with hstop | ⟨s', hnext, hs', hless, hsame⟩
    · exact ends_of_stop hstop
    · rw [← hsame]
      exact ends_of_next hnext (ih (μ s') (hn ▸ hless) hs' rfl)

end Loop
