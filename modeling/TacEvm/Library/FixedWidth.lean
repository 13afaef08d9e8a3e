import Mathlib.Algebra.BigOperators.Group.List.Basic
import Mathlib.Data.Nat.Cast.Basic

/-!
# Records of one width

A list of records stored as their concatenation, and read back by cutting at a fixed width.
Nothing separates the records, so reading back gives what was stored exactly if every record
has the width of the cut.
-/

namespace FixedWidth

variable {α : Type}

/-- Cuts at most `n` records of width `w`; `none` beyond the end. -/
def cut (w : ℕ) : ℕ → List α → Option (List (List α))
  | _, [] => some []
  | 0, _ :: _ => none
  | n + 1, a :: bz =>
    if (a :: bz).length < w then none
    else (cut w n ((a :: bz).drop w)).map fun rs => (a :: bz).take w :: rs

/-- The records of a string, at most one for each element. -/
def records (w : ℕ) (bz : List α) : Option (List (List α)) := cut w bz.length bz

variable {w n : ℕ} {bz : List α}

/-- One round of the cut. -/
theorem cut_of_ne_nil (h : bz ≠ []) :
    cut w (n + 1) bz =
      if bz.length < w then none else (cut w n (bz.drop w)).map fun rs => bz.take w :: rs := by
  cases bz with
  | nil => exact absurd rfl h
  | cons a bz => rfl

variable {rs : List (List α)}

/-- Records have the width. -/
theorem length_of_mem_cut (h : cut w n bz = some rs) : ∀ r ∈ rs, r.length = w := by
  induction n generalizing bz rs with
  | zero =>
    cases bz with
    | nil =>
      cases h
      simp
    | cons a bz => cases h
  | succ n ih =>
    by_cases hnil : bz = []
    · subst hnil
      cases h
      simp
    rw [cut_of_ne_nil hnil] at h
    split at h
    · cases h
    obtain ⟨rest, hrest, rfl⟩ := Option.map_eq_some_iff.mp h
    intro r hr
    rcases List.mem_cons.mp hr with rfl | hr
    · rw [List.length_take]
      omega
    · exact ih hrest r hr

/-- Records of the width are cut where they were joined. -/
theorem cut_flatten (hw : 0 < w) (h : ∀ r ∈ rs, r.length = w) (hn : rs.length ≤ n) :
    cut w n rs.flatten = some rs := by
  induction rs generalizing n with
  | nil =>
    cases n <;> rfl
  | cons r rs ih =>
    have hr : r.length = w := h r List.mem_cons_self
    have hrest : ∀ r ∈ rs, r.length = w := fun r hr => h r (List.mem_cons_of_mem _ hr)
    obtain ⟨m, rfl⟩ : ∃ m, n = m + 1 := ⟨n - 1, by rw [List.length_cons] at hn; omega⟩
    have hm : rs.length ≤ m := by
      rw [List.length_cons] at hn
      omega
    have hlong : w ≤ (r ++ rs.flatten).length := by
      rw [List.length_append]
      omega
    have hne : r ++ rs.flatten ≠ [] := by
      intro hnil
      rw [hnil, List.length_nil] at hlong
      omega
    rw [List.flatten_cons, cut_of_ne_nil hne, if_neg (by omega), List.take_left' hr,
      List.drop_left' hr, ih hrest hm]
    rfl

/-- The length of what is stored. -/
theorem length_flatten (h : ∀ r ∈ rs, r.length = w) : rs.flatten.length = rs.length * w := by
  rw [List.length_flatten, List.map_congr_left h, List.map_const', List.sum_replicate,
    nsmul_eq_mul, Nat.cast_id]

/-- **Reading back** what was stored takes the width. -/
theorem records_flatten_iff (hw : 0 < w) (rs : List (List α)) :
    records w rs.flatten = some rs ↔ ∀ r ∈ rs, r.length = w := by
  constructor
  · intro h
    exact length_of_mem_cut h
  intro h
  apply cut_flatten hw h
  rw [length_flatten h]
  exact Nat.le_mul_of_pos_right _ hw

end FixedWidth
