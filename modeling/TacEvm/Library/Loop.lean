import Mathlib.Data.Nat.Notation
import Mathlib.Logic.Relation

/-!
# Loops that may not end

A loop is a step that either gives the next state or leaves with a result; `run` follows it for a
number of rounds. A decreasing variant gives an end, and an invariant under which every step has a
next one rules it out.
-/

namespace Loop

variable {σ β : Type} (step : σ → σ ⊕ β)

/-- The result after at most so many rounds. -/
def run : ℕ → σ → Option β
  | 0, _ => none
  | fuel + 1, s =>
    match step s with
    | .inl t => run fuel t
    | .inr b => some b

/-- One round leads from a state to the next. -/
def Next (s t : σ) : Prop := step s = .inl t

/-- The states that the loop comes to. -/
def Reaches : σ → σ → Prop := Relation.ReflTransGen (Next step)

variable {step} {s t : σ} {b : β}

theorem run_succ_of_next (h : Next step s t) (fuel : ℕ) :
    run step (fuel + 1) s = run step fuel t := by
  rw [run, h]

theorem run_succ_of_exit (h : step s = .inr b) (fuel : ℕ) : run step (fuel + 1) s = some b := by
  rw [run, h]

/-- A result is that of the last state. -/
theorem exit_of_run {fuel : ℕ} (h : run step fuel s = some b) :
    ∃ t, Reaches step s t ∧ step t = .inr b := by
  induction fuel generalizing s with
  | zero => cases h
  | succ fuel ih =>
    cases hstep : step s with
    | inl t =>
      rw [run_succ_of_next hstep] at h
      obtain ⟨u, hreach, hexit⟩ := ih h
      exact ⟨u, Relation.ReflTransGen.head hstep hreach, hexit⟩
    | inr result =>
      rw [run_succ_of_exit hstep] at h
      cases h
      exact ⟨s, Relation.ReflTransGen.refl, hstep⟩

/-- What is kept by every round holds of all it comes to. -/
theorem invariant {I : σ → Prop} (hnext : ∀ s t, I s → Next step s t → I t)
    (hreach : Reaches step s t) (hs : I s) : I t := by
  induction hreach with
  | refl => exact hs
  | tail _ hstep ih => exact hnext _ _ ih hstep

/-- A loop with a variant ends. -/
theorem run_of_variant {I : σ → Prop} {variant : σ → ℕ}
    (hnext : ∀ s t, I s → Next step s t → I t ∧ variant t < variant s) (hs : I s) {fuel : ℕ}
    (hfuel : variant s < fuel) : ∃ b, run step fuel s = some b := by
  induction fuel generalizing s with
  | zero => omega
  | succ fuel ih =>
    cases hstep : step s with
    | inl t =>
      obtain ⟨ht, hless⟩ := hnext s t hs hstep
      rw [run_succ_of_next hstep]
      exact ih ht (by omega)
    | inr result => exact ⟨result, run_succ_of_exit hstep fuel⟩

/-- A loop that always has a next round does not end. -/
theorem run_none {I : σ → Prop} (hnext : ∀ s, I s → ∃ t, Next step s t ∧ I t) (hs : I s)
    (fuel : ℕ) : run step fuel s = none := by
  induction fuel generalizing s with
  | zero => rfl
  | succ fuel ih =>
    obtain ⟨t, hstep, ht⟩ := hnext s hs
    rw [run_succ_of_next hstep]
    exact ih ht

end Loop
