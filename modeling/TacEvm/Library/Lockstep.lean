import Mathlib.Data.List.Forall2

/-!
# Partial computations in lock step

Two computations that may fail are in lock step under a relation `R` if both fail, or both
succeed with related results: `Option.Rel R`.  Sequencing keeps the step.
-/

namespace Lockstep

variable {α β γ δ : Type} {R : α → β → Prop} {S : γ → δ → Prop}

variable {x : Option α} {y : Option β}

theorem rel_results (h : Option.Rel R x y) :
    Option.Rel (fun a b => R a b ∧ x = some a ∧ y = some b) x y := by
  cases h with
  | none => exact .none
  | some hab => exact .some ⟨hab, rfl, rfl⟩

theorem rel_bind {f : α → Option γ} {g : β → Option δ} (h : Option.Rel R x y)
    (hfg : ∀ a b, R a b → Option.Rel S (f a) (g b)) : Option.Rel S (x.bind f) (y.bind g) := by
  cases h with
  | none => exact .none
  | some hab => exact hfg _ _ hab

theorem rel_imp {R' : α → β → Prop} (h : Option.Rel R x y) (hR : ∀ a b, R a b → R' a b) :
    Option.Rel R' x y := by
  cases h with
  | none => exact .none
  | some hab => exact .some (hR _ _ hab)

theorem rel_map {f : α → γ} {g : β → δ} (h : Option.Rel R x y) (hfg : ∀ a b, R a b → S (f a) (g b))
    : Option.Rel S (x.map f) (y.map g) := by
  cases h with
  | none => exact .none
  | some hab => exact .some (hfg _ _ hab)

theorem eq_of_rel {y : Option α} (h : Option.Rel Eq x y) : x = y := by
  cases h with
  | none => rfl
  | some hab => exact congrArg some hab

end Lockstep
