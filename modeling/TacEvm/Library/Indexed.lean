import Mathlib.Data.List.Induction

/-!
# A table with an index

`Indexes` says that an index over one field of a table is exact: it has an entry for every value of
the table, and no other. `fill` makes a table from a list, in which a later element replaces an
earlier one.
-/

namespace Indexed

open Function

variable {K V A : Type} [DecidableEq K] [DecidableEq A]
variable {table : K → Option V} {field : V → A} {index : A → Option K} {k : K} {v : V}

/-- The index has `(a, k)` exactly if the value at `k` has `a`. -/
def Indexes (table : K → Option V) (field : V → A) (index : A → Option K) : Prop :=
  ∀ a k, index a = some k ↔ ∃ v, table k = some v ∧ field v = a

namespace Indexes

omit [DecidableEq K] [DecidableEq A] in
theorem lookup (h : Indexes table field index) (hv : table k = some v) : index (field v) = some k :=
  (h _ _).mpr ⟨v, hv, rfl⟩

theorem insert (h : Indexes table field index) (hkey : table k = none)
    (hfield : index (field v) = none) :
    Indexes (update table k (some v)) field (update index (field v) (some k)) := by
  intro a k'
  by_cases ha : a = field v
  · subst ha
    rw [update_self, Option.some_inj]
    constructor
    · rintro rfl
      exact ⟨v, update_self .., rfl⟩
    rintro ⟨v', hv', heq⟩
    by_contra hne
    rw [update_of_ne (Ne.symm hne)] at hv'
    have hindexed := h.lookup hv'
    rw [heq, hfield] at hindexed
    cases hindexed
  · rw [update_of_ne ha, h a k']
    by_cases hk : k' = k
    · subst hk
      rw [update_self, hkey]
      simp [Ne.symm ha]
    · rw [update_of_ne hk]

theorem erase (h : Indexes table field index) (hv : table k = some v) :
    Indexes (update table k none) field (update index (field v) none) := by
  intro a k'
  by_cases ha : a = field v
  · subst ha
    rw [update_self]
    refine iff_of_false (by simp) ?_
    rintro ⟨v', hv', heq⟩
    by_cases hk : k' = k
    · rw [hk, update_self] at hv'
      cases hv'
    -- two values with one field would share their entry
    rw [update_of_ne hk] at hv'
    have hindexed := h.lookup hv'
    rw [heq, h.lookup hv] at hindexed
    exact hk (Option.some_inj.mp hindexed).symm
  · rw [update_of_ne ha, h a k']
    by_cases hk : k' = k
    · subst hk
      rw [update_self, hv]
      simp [Ne.symm ha]
    · rw [update_of_ne hk]

omit [DecidableEq A] in
theorem replace (h : Indexes table field index) (hv : table k = some v) {v' : V}
    (hfield : field v' = field v) : Indexes (update table k (some v')) field index := by
  intro a k'
  rw [h a k']
  by_cases hk : k' = k
  · subst hk
    rw [update_self, hv]
    simp [hfield]
  · rw [update_of_ne hk]

end Indexes

section Fill

variable {E : Type} {key : E → K} {val : E → V}

/-- The table of a list of elements. -/
def fill (key : E → K) (val : E → V) (l : List E) : K → Option V :=
  l.foldl (fun m e => update m (key e) (some (val e))) fun _ => none

omit [DecidableEq A] in
theorem fill_append_singleton (l : List E) (e : E) :
    fill key val (l ++ [e]) = update (fill key val l) (key e) (some (val e)) := by
  simp [fill]

omit [DecidableEq A] in
/-- Where no two elements share a key, the table has them all. -/
theorem fill_eq_some_iff {l : List E} (hkey : ∀ e ∈ l, ∀ e' ∈ l, key e = key e' → e = e')
    {k : K} {v : V} : fill key val l k = some v ↔ ∃ e ∈ l, key e = k ∧ val e = v := by
  induction l using List.reverseRecOn with
  | nil => simp [fill]
  | append_singleton l e ih =>
    have hl : ∀ e ∈ l, ∀ e' ∈ l, key e = key e' → e = e' := fun e he e' he' =>
      hkey e (List.mem_append_left _ he) e' (List.mem_append_left _ he')
    rw [fill_append_singleton]
    by_cases hk : k = key e
    · subst hk
      rw [update_self, Option.some_inj]
      constructor
      · rintro rfl
        exact ⟨e, by simp, rfl, rfl⟩
      · rintro ⟨e', he', hsame, rfl⟩
        rw [hkey e' he' e (by simp) hsame]
    · rw [update_of_ne hk, ih hl]
      constructor
      · rintro ⟨e', he', hsame, hval⟩
        exact ⟨e', List.mem_append_left _ he', hsame, hval⟩
      rintro ⟨e', he', hsame, hval⟩
      rcases List.mem_append.mp he' with he' | he'
      · exact ⟨e', he', hsame, hval⟩
      · obtain rfl := List.mem_singleton.mp he'
        exact absurd hsame.symm hk

end Fill

end Indexed
