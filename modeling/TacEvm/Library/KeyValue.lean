import Mathlib.Order.Defs.Unbundled

/-!
# A key-value store with iterators

A store is the list of the writes to it, the last one first. An iterator over a range of keys, in
either direction, begins with the least or the greatest key in it.
-/

namespace KeyValue

variable {K V : Type}

/-- The writes to a store, the last one first. -/
abbrev Db (K V : Type) := List (K × V)

section Lookup

variable [DecidableEq K]

/-- The value of a key. -/
def get (db : Db K V) (k : K) : Option V := (db.find? fun e => e.1 = k).map Prod.snd

/-- A write. -/
def set (db : Db K V) (k : K) (v : V) : Db K V := (k, v) :: db

theorem get_set (db : Db K V) (k k' : K) (v : V) :
    get (set db k v) k' = if k = k' then some v else get db k' := by
  unfold get set
  rw [List.find?_cons]
  by_cases h : k = k'
  · simp [h]
  · simp [h]

theorem mem_of_get_eq_some {db : Db K V} {k : K} {v : V} (h : get db k = some v) : (k, v) ∈ db := by
  obtain ⟨⟨k', v'⟩, hfind, rfl⟩ := Option.map_eq_some_iff.mp h
  have hkey : k' = k := of_decide_eq_true (List.find?_some hfind :)
  rw [← hkey]
  exact List.mem_of_find?_eq_some hfind

/-- A key without a write has no value. -/
theorem get_eq_none_iff {db : Db K V} {k : K} : get db k = none ↔ k ∉ db.map Prod.fst := by
  unfold get
  rw [Option.map_eq_none_iff, List.find?_eq_none]
  constructor
  · intro h hk
    obtain ⟨e, he, rfl⟩ := List.mem_map.mp hk
    exact h e he (decide_eq_true rfl)
  · intro h e he hkey
    exact h (List.mem_map.mpr ⟨e, he, of_decide_eq_true hkey⟩)

/-- A write is found as long as there is no other one of its key. -/
theorem get_eq_some_of_mem {db : Db K V} (hnodup : (db.map Prod.fst).Nodup) {k : K} {v : V}
    (h : (k, v) ∈ db) : get db k = some v := by
  induction db with
  | nil => cases h
  | cons e db ih =>
    rw [List.map_cons, List.nodup_cons] at hnodup
    have hset := get_set db e.1 k e.2
    rcases List.mem_cons.mp h with rfl | hmem
    · rw [if_pos rfl] at hset
      exact hset
    have hkey : k ∈ db.map Prod.fst := List.mem_map.mpr ⟨(k, v), hmem, rfl⟩
    have hne : e.1 ≠ k := by
      rintro rfl
      exact hnodup.1 hkey
    rw [if_neg hne, ih hnodup.2 hmem] at hset
    exact hset

end Lookup

section Iterators

variable (r : K → K → Prop) [DecidableRel r]

/-- The least of some keys. -/
def least : List K → Option K
  | [] => none
  | k :: ks =>
    match least ks with
    | none => some k
    | some k' => some (if r k k' then k else k')

/-- The keys of a store from `lo` on and before `hi`. -/
def keysIn (db : Db K V) (lo hi : K) : List K :=
  (db.map Prod.fst).filter fun k => decide (r lo k) && !decide (r hi k)

/-- The key an iterator over a range begins with. -/
def first (db : Db K V) (lo hi : K) : Option K := least r (keysIn r db lo hi)

/-- The key a reverse iterator over a range begins with. -/
def last (db : Db K V) (lo hi : K) : Option K := least (fun a b => r b a) (keysIn r db lo hi)

variable {r}

variable {db : Db K V} {lo hi k : K}

theorem mem_keysIn : k ∈ keysIn r db lo hi ↔ k ∈ db.map Prod.fst ∧ r lo k ∧ ¬ r hi k := by
  unfold keysIn
  rw [List.mem_filter, Bool.and_eq_true, Bool.not_eq_true', decide_eq_true_eq,
    decide_eq_false_iff_not]

/-- There is a least key unless there is none at all. -/
theorem least_eq_none_iff {ks : List K} : least r ks = none ↔ ks = [] := by
  cases ks with
  | nil => exact ⟨fun _ => rfl, fun _ => rfl⟩
  | cons k ks =>
    constructor
    · intro h
      unfold least at h
      split at h
      · cases h
      · cases h
    · intro h
      cases h

/-- **The least key.** -/
theorem least_spec [Std.Total r] [IsTrans K r] {ks : List K} (h : least r ks = some k) :
    k ∈ ks ∧ ∀ k' ∈ ks, r k k' := by
  have hrefl : ∀ a : K, r a a := fun a => (Std.Total.total (r := r) a a).elim id id
  induction ks generalizing k with
  | nil => cases h
  | cons k₀ ks ih =>
    unfold least at h
    cases hrest : least r ks with
    | none =>
      rw [hrest] at h
      cases h
      rw [least_eq_none_iff.mp hrest]
      refine ⟨List.mem_cons_self, fun k' hk' => ?_⟩
      rw [List.mem_singleton.mp hk']
      exact hrefl k₀
    | some k₁ =>
      rw [hrest] at h
      obtain ⟨hmem, hle⟩ := ih hrest
      dsimp only at h
      split at h
      · rename_i hless
        cases h
        refine ⟨List.mem_cons_self, fun k' hk' => ?_⟩
        rcases List.mem_cons.mp hk' with rfl | hk'
        · exact hrefl k'
        · exact IsTrans.trans _ _ _ hless (hle k' hk')
      · rename_i hless
        cases h
        refine ⟨List.mem_cons_of_mem k₀ hmem, fun k' hk' => ?_⟩
        rcases List.mem_cons.mp hk' with rfl | hk'
        · exact (Std.Total.total k k').resolve_right hless
        · exact hle k' hk'

theorem first_eq_none_iff :
    first r db lo hi = none ↔ ∀ k ∈ db.map Prod.fst, ¬ (r lo k ∧ ¬ r hi k) := by
  rw [first, least_eq_none_iff, List.eq_nil_iff_forall_not_mem]
  constructor
  · intro h k hk hrange
    exact h k (mem_keysIn.mpr ⟨hk, hrange⟩)
  · intro h k hk
    obtain ⟨hmem, hrange⟩ := mem_keysIn.mp hk
    exact h k hmem hrange

theorem last_eq_none_iff : last r db lo hi = none ↔ first r db lo hi = none := by
  rw [first, last, least_eq_none_iff, least_eq_none_iff]

theorem first_spec [Std.Total r] [IsTrans K r] (h : first r db lo hi = some k) :
    k ∈ keysIn r db lo hi ∧ ∀ k' ∈ keysIn r db lo hi, r k k' :=
  least_spec h

theorem last_spec [Std.Total r] [IsTrans K r] (h : last r db lo hi = some k) :
    k ∈ keysIn r db lo hi ∧ ∀ k' ∈ keysIn r db lo hi, r k' k := by
  have : Std.Total fun a b : K => r b a := ⟨fun a b => Std.Total.total b a⟩
  have : IsTrans K fun a b => r b a := ⟨fun a b c hab hbc => IsTrans.trans c b a hbc hab⟩
  exact least_spec h

end Iterators

end KeyValue
