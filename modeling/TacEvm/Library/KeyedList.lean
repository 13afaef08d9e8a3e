import Mathlib.Algebra.BigOperators.Group.List.Basic
import Mathlib.Data.List.Sort

/-!
# Lists with one entry for each key

A finite map with values in a monoid, kept as a list of entries in the order of their keys without
entries of value zero. A list is determined by its totals (`Increasing.ext_total`).
-/

namespace KeyedList

variable {ε κ M : Type} {key : ε → κ} {val : ε → M} {l l' : List ε} {e : ε} {k : κ}

variable [DecidableEq κ] [AddCommMonoid M]

variable (key val) in
/-- What the entries under a key add up to. -/
def total (l : List ε) (k : κ) : M := ((l.filter fun e => key e = k).map val).sum

variable (key) in
/-- The entries under other keys. -/
def drop (l : List ε) (k : κ) : List ε := l.filter fun e => key e ≠ k

@[simp]
theorem total_nil : total key val [] k = 0 := rfl

@[simp]
theorem total_cons :
    total key val (e :: l) k = (if key e = k then val e else 0) + total key val l k := by
  unfold total
  by_cases h : key e = k
  · simp [h]
  · simp [h]

theorem total_perm (h : l.Perm l') : total key val l k = total key val l' k :=
  ((h.filter _).map val).sum_eq

theorem total_eq_zero (h : ∀ a ∈ l, key a ≠ k) : total key val l k = 0 := by
  unfold total
  rw [List.filter_eq_nil_iff.mpr fun a ha => by simpa using h a ha]
  rfl

theorem total_drop (j : κ) :
    total key val (drop key l j) k = if k = j then 0 else total key val l k := by
  unfold total drop
  rw [List.filter_filter]
  by_cases h : k = j
  · subst h
    simp
  rw [if_neg h]
  refine congrArg (fun l : List ε => (l.map val).sum) (List.filter_congr fun a _ => ?_)
  by_cases ha : key a = k
  · simp [ha, h]
  · simp [ha]

variable [LinearOrder κ]

variable (key) in
/-- The keys are in order, and none is there twice. -/
def Increasing (l : List ε) : Prop := l.Pairwise fun a b => key a < key b

omit [DecidableEq κ] in
theorem Increasing.of_cons (h : Increasing key (e :: l)) : Increasing key l :=
  List.Pairwise.of_cons h

omit [DecidableEq κ] in
theorem Increasing.lt (h : Increasing key (e :: l)) : ∀ a ∈ l, key e < key a :=
  (List.pairwise_cons.mp h).1

/-- The entry of a key is what there is under it. -/
theorem Increasing.total_of_mem (h : Increasing key l) (he : e ∈ l) :
    total key val l (key e) = val e := by
  induction l with
  | nil => cases he
  | cons a l ih =>
    rw [total_cons]
    rcases List.mem_cons.mp he with rfl | hmem
    · rw [if_pos rfl, total_eq_zero fun b hb => (h.lt b hb).ne', add_zero]
    · rw [if_neg (h.lt e hmem).ne, zero_add, ih h.of_cons hmem]

theorem Increasing.drop (h : Increasing key l) (k : κ) : Increasing key (drop key l k) :=
  List.Pairwise.filter _ h

theorem Increasing.mem_of_total (hext : ∀ a b, key a = key b → val a = val b → a = b)
    (h : Increasing key l) (h' : Increasing key l') (hval : ∀ a ∈ l, val a ≠ 0)
    (htotal : ∀ k, total key val l k = total key val l' k) (he : e ∈ l) : e ∈ l' := by
  have heq : total key val l' (key e) = val e := by rw [← htotal, h.total_of_mem he]
  by_contra hnot
  by_cases hkey : ∃ a ∈ l', key a = key e
  · obtain ⟨a, ha, hak⟩ := hkey
    rw [← hak, h'.total_of_mem ha] at heq
    exact hnot (hext a e hak heq ▸ ha)
  · refine hval e he ?_
    rw [← heq]
    exact total_eq_zero fun a ha hak => hkey ⟨a, ha, hak⟩

/-- **A list is determined by its totals.** -/
theorem Increasing.ext_total (hext : ∀ a b, key a = key b → val a = val b → a = b)
    (h : Increasing key l) (h' : Increasing key l') (hval : ∀ a ∈ l, val a ≠ 0)
    (hval' : ∀ a ∈ l', val a ≠ 0) (htotal : ∀ k, total key val l k = total key val l' k) :
    l = l' := by
  have hirrefl : ∀ a b : ε, key a < key b → a ≠ b := fun a b hlt heq => (heq ▸ hlt).ne rfl
  have hperm : l.Perm l' := by
    refine (List.perm_ext_iff_of_nodup (h.imp (hirrefl _ _)) (h'.imp (hirrefl _ _))).mpr ?_
    intro a
    exact ⟨h.mem_of_total hext h' hval htotal,
      h'.mem_of_total hext h hval' fun k => (htotal k).symm⟩
  exact hperm.eq_of_pairwise (fun a b _ _ hab hba => absurd hab hba.not_gt) h h'

theorem Increasing.replace (h : Increasing key l) :
    Increasing key (l.map fun a => if key a = key e then e else a) := by
  have hkey : ∀ a, key (if key a = key e then e else a) = key a := by
    intro a
    split
    · rename_i heq
      exact heq.symm
    · rfl
  unfold Increasing
  rw [List.pairwise_map]
  simp only [hkey]
  exact h

theorem Increasing.total_replace (h : Increasing key l) (hmem : ∃ a ∈ l, key a = key e) :
    total key val (l.map fun a => if key a = key e then e else a) k =
      if k = key e then val e else total key val l k := by
  by_cases hk : k = key e
  · subst hk
    obtain ⟨a, ha, hkey⟩ := hmem
    have he : e ∈ l.map fun a => if key a = key e then e else a :=
      List.mem_map.mpr ⟨a, ha, if_pos hkey⟩
    rw [if_pos rfl, h.replace.total_of_mem he]
  · rw [if_neg hk]
    clear hmem h
    -- no entry under another key was touched
    induction l with
    | nil => rfl
    | cons b l ih =>
      rw [List.map_cons, total_cons, total_cons, ih]
      by_cases hb : key b = key e
      · rw [if_pos hb, if_neg (Ne.symm hk), if_neg (hb ▸ Ne.symm hk)]
      · rw [if_neg hb]

variable [DecidableLE κ]

variable (key) in
/-- The entry of a key is replaced, or inserted at its place. -/
def put (l : List ε) (e : ε) : List ε :=
  if l.any fun a => key a = key e then l.map fun a => if key a = key e then e else a
  else l.orderedInsert (fun a b => key a ≤ key b) e

theorem mem_put {a : ε} (h : a ∈ put key l e) : a = e ∨ a ∈ l := by
  unfold put at h
  split at h
  · obtain ⟨b, hb, rfl⟩ := List.mem_map.mp h
    split
    · exact .inl rfl
    · exact .inr hb
  · exact (List.mem_orderedInsert _).mp h

theorem put_ne_nil : put key l e ≠ [] := by
  unfold put
  split
  · rename_i hany
    intro hnil
    rw [List.map_eq_nil_iff.mp hnil] at hany
    cases hany
  · intro hnil
    have hlength := List.orderedInsert_length (fun a b => key a ≤ key b) l e
    rw [hnil] at hlength
    cases hlength

omit [DecidableEq κ] in
theorem Increasing.insert (h : Increasing key l) (hnew : ∀ a ∈ l, key a ≠ key e) :
    Increasing key (l.orderedInsert (fun a b => key a ≤ key b) e) := by
  induction l with
  | nil => exact List.pairwise_singleton _ _
  | cons b l ih =>
    obtain ⟨hb, hrest⟩ := List.forall_mem_cons.mp hnew
    rw [List.orderedInsert_cons]
    by_cases hle : key e ≤ key b
    · rw [if_pos hle]
      have hlt : key e < key b := lt_of_le_of_ne hle hb.symm
      refine List.pairwise_cons.mpr ⟨?_, h⟩
      intro a ha
      rcases List.mem_cons.mp ha with rfl | hmem
      · exact hlt
      · exact hlt.trans (h.lt a hmem)
    · rw [if_neg hle]
      refine List.pairwise_cons.mpr ⟨?_, ih h.of_cons hrest⟩
      intro a ha
      rcases (List.mem_orderedInsert _).mp ha with rfl | hmem
      · exact not_le.mp hle
      · exact h.lt a hmem

theorem Increasing.put (h : Increasing key l) (e : ε) : Increasing key (put key l e) := by
  unfold KeyedList.put
  split
  · exact h.replace
  · rename_i hnone
    refine h.insert fun a ha heq => hnone ?_
    exact List.any_eq_true.mpr ⟨a, ha, decide_eq_true heq⟩

/-- **What `put` does to the totals.** -/
theorem Increasing.total_put (h : Increasing key l) :
    total key val (KeyedList.put key l e) k =
      if k = key e then val e else total key val l k := by
  unfold KeyedList.put
  split
  · rename_i hany
    obtain ⟨a, ha, heq⟩ := List.any_eq_true.mp hany
    exact h.total_replace ⟨a, ha, of_decide_eq_true heq⟩
  rename_i hnone
  have hnew : ∀ a ∈ l, key a ≠ key e := fun a ha heq =>
    hnone (List.any_eq_true.mpr ⟨a, ha, decide_eq_true heq⟩)
  rw [total_perm (List.perm_orderedInsert _ e l), total_cons]
  by_cases hk : k = key e
  · subst hk
    rw [if_pos rfl, if_pos rfl, total_eq_zero hnew, add_zero]
  · rw [if_neg hk, if_neg (Ne.symm hk), zero_add]

end KeyedList
