import Mathlib.Algebra.BigOperators.Group.Finset.Basic
import Mathlib.Data.Finmap
import Mathlib.Data.List.Sort

/-!
# The keys of a finite map in order

`sortedKeys` lists a finite set in order, by insertion, so that it evaluates in the kernel.
`entries` walks through a partial function on a finite type of keys, the way an iterator walks
through a store.
-/

namespace OrderedKeys

variable {α : Type} (r : α → α → Prop) [DecidableRel r] [Std.Total r] [IsTrans α r]
  [Std.Antisymm r]

/-- The elements of a finite set, each once, in increasing order. -/
def sortedKeys (s : Finset α) : List α :=
  Quot.liftOn s.val (List.insertionSort r) fun l₁ l₂ h =>
    ((List.perm_insertionSort r l₁).trans
      (h.trans (List.perm_insertionSort r l₂).symm)).eq_of_pairwise'
        (List.pairwise_insertionSort r l₁) (List.pairwise_insertionSort r l₂)

theorem coe_sortedKeys (s : Finset α) : (sortedKeys r s : Multiset α) = s.val := by
  obtain ⟨m, hm⟩ := s
  induction m using Quotient.inductionOn with
  | h l => exact Quotient.sound (List.perm_insertionSort r l)

/-- The sorted keys have the elements of the set. -/
@[simp]
theorem mem_sortedKeys {s : Finset α} {a : α} : a ∈ sortedKeys r s ↔ a ∈ s := by
  rw [← Multiset.mem_coe, coe_sortedKeys]
  rfl

/-- No key is listed twice. -/
theorem nodup_sortedKeys (s : Finset α) : (sortedKeys r s).Nodup := by
  rw [← Multiset.coe_nodup, coe_sortedKeys]
  exact s.nodup

/-- Summing over the sorted keys is summing over the set. -/
theorem sum_map_sortedKeys {M : Type} [AddCommMonoid M] (s : Finset α) (f : α → M) :
    ((sortedKeys r s).map f).sum = ∑ a ∈ s, f a := by
  rw [← Multiset.sum_coe, ← Multiset.map_coe, coe_sortedKeys]
  rfl

/-- The keys are in increasing order. -/
theorem pairwise_sortedKeys (s : Finset α) : (sortedKeys r s).Pairwise r := by
  obtain ⟨m, hm⟩ := s
  induction m using Quotient.inductionOn with
  | h l => exact List.pairwise_insertionSort r l

/-! ## Walking through a store -/

section Entries

variable {β : Type} [Fintype α]

/-- The entries of a store in the order of their keys. -/
def entries (m : α → Option β) : List (α × β) :=
  (sortedKeys r Finset.univ).filterMap fun a => (m a).map fun b => (a, b)

variable {m : α → Option β}

@[simp]
theorem mem_entries {a : α} {b : β} : (a, b) ∈ entries r m ↔ m a = some b := by
  unfold entries
  rw [List.mem_filterMap]
  constructor
  · rintro ⟨a', -, h⟩
    obtain ⟨b', hb', heq⟩ := Option.map_eq_some_iff.mp h
    cases heq
    exact hb'
  · intro h
    exact ⟨a, (mem_sortedKeys r).mpr (Finset.mem_univ a), by rw [h]; rfl⟩

theorem map_fst_entries (m : α → Option β) :
    (entries r m).map Prod.fst = (sortedKeys r Finset.univ).filter fun a => (m a).isSome := by
  unfold entries
  induction sortedKeys r (Finset.univ : Finset α) with
  | nil => rfl
  | cons a l ih =>
    cases h : m a with
    | none => simp [h, ih]
    | some b => simp [h, ih]

theorem nodup_map_fst_entries (m : α → Option β) : ((entries r m).map Prod.fst).Nodup := by
  rw [map_fst_entries]
  exact (nodup_sortedKeys r _).filter _

theorem pairwise_map_fst_entries (m : α → Option β) : ((entries r m).map Prod.fst).Pairwise r := by
  rw [map_fst_entries]
  exact (pairwise_sortedKeys r _).filter _

/-- **The walk is determined** by the order and by what it visits. -/
theorem eq_entries {l : List (α × β)} (hsorted : (l.map Prod.fst).Pairwise r)
    (hnodup : (l.map Prod.fst).Nodup) (hmem : ∀ a b, (a, b) ∈ l ↔ m a = some b) :
    l = entries r m := by
  have hperm : l.Perm (entries r m) := by
    refine (List.perm_ext_iff_of_nodup hnodup.of_map (nodup_map_fst_entries r m).of_map).mpr ?_
    rintro ⟨a, b⟩
    rw [hmem, mem_entries]
  refine hperm.eq_of_pairwise ?_ (List.pairwise_map.mp hsorted)
    (List.pairwise_map.mp (pairwise_map_fst_entries r m))
  -- two entries that are each before the other have one key
  rintro ⟨a, b⟩ ⟨a', b'⟩ hx hy hle hle'
  obtain rfl : a = a' := antisymm_of r hle hle'
  have hb : m a = some b := (hmem a b).mp hx
  have hb' : m a = some b' := (mem_entries r).mp hy
  rw [hb] at hb'
  cases hb'
  rfl

theorem entries_none : entries r (fun _ => none : α → Option β) = [] :=
  List.eq_nil_iff_forall_not_mem.mpr fun _ hentry =>
    Option.some_ne_none _ ((mem_entries r).mp hentry).symm

theorem entries_single [DecidableEq α] (a : α) (b : β) :
    entries r (fun a' => if a' = a then some b else none) = [(a, b)] := by
  refine (eq_entries r ?_ ?_ fun a' b' => ?_).symm
  · exact List.pairwise_singleton _ _
  · exact List.nodup_singleton _
  · by_cases ha : a' = a
    · simp [ha, eq_comm]
    · simp [ha]

/-- Other values are walked through in the same order. -/
theorem entries_map {γ : Type} (m : α → Option β) (f : β → γ) :
    entries r (fun a => (m a).map f) = (entries r m).map fun entry => (entry.1, f entry.2) := by
  have hkeys : ((entries r m).map fun entry => (entry.1, f entry.2)).map Prod.fst =
      (entries r m).map Prod.fst := by
    rw [List.map_map]
    rfl
  refine (eq_entries r ?_ ?_ fun a c => ?_).symm
  · rw [hkeys]
    exact pairwise_map_fst_entries r m
  · rw [hkeys]
    exact nodup_map_fst_entries r m
  rw [List.mem_map, Option.map_eq_some_iff]
  constructor
  · rintro ⟨⟨a', b⟩, hmem, heq⟩
    cases heq
    exact ⟨b, (mem_entries r).mp hmem, rfl⟩
  · rintro ⟨b, hb, rfl⟩
    exact ⟨(a, b), (mem_entries r).mpr hb, rfl⟩

-- the walk goes through all keys there are, and is not to be evaluated
attribute [irreducible] entries

end Entries

end OrderedKeys
