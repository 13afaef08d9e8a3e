import Mathlib.Logic.Relation
import TacEvm.Library.Lockstep

/-!
# Undo journals with marks

A journaled system **extends** a log of entries that say how to take its changes back, **marks** the
length of the log, and **reverts** to a mark by undoing the entries above it. As long as a mark is
on the stack, undoing down to it gives the observation of when it was set (`kept_of_steps`); what
every extension preserves is preserved by reverts too (`robust_of_steps`).
-/

namespace Rollback

variable {ω ε : Type}

/-- Undo a segment of the log, from its end. -/
def rollback (undo : ε → ω → Option ω) : List ε → ω → Option ω
  | [], w => some w
  | e :: es, w => (rollback undo es w).bind (undo e)

variable {log es : List ε}

theorem split_concat {pre post : List ε} {e x : ε} (h : log ++ [e] = pre ++ x :: post) :
    (log = pre ∧ x = e) ∨ ∃ post', log = pre ++ x :: post' := by
  rcases List.eq_nil_or_concat post with rfl | ⟨post', last, rfl⟩
  · obtain ⟨hlog, hlast⟩ := List.append_inj' h rfl
    exact .inl ⟨hlog, (List.singleton_inj.mp hlast).symm⟩
  · have hsplit : log ++ [e] = (pre ++ x :: post') ++ [last] := by simpa using h
    exact .inr ⟨post', (List.append_inj' hsplit rfl).1⟩

theorem rollback_append (undo : ε → ω → Option ω) (es fs : List ε) (w : ω) :
    rollback undo (es ++ fs) w = (rollback undo fs w).bind (rollback undo es) := by
  induction es with
  | nil => cases h : rollback undo fs w <;> simp [rollback, h]
  | cons e es ih =>
    rw [List.cons_append, rollback, ih, Option.bind_assoc]
    rfl

variable {w v : ω}

theorem rollback_rel {υ δ : Type} {undo : ε → ω → Option ω} {undo' : δ → υ → Option υ}
    {R : ω → υ → Prop} {E : ε → δ → Prop}
    (hundo : ∀ e d w v, E e d → R w v → Option.Rel R (undo e w) (undo' d v)) {ds : List δ}
    (hes : List.Forall₂ E es ds) {v : υ} (hw : R w v) :
    Option.Rel R (rollback undo es w) (rollback undo' ds v) := by
  induction hes with
  | nil => exact .some hw
  | cons he _ ih => exact Lockstep.rel_bind ih fun _ _ hab => hundo _ _ _ _ he hab

theorem rollback_trans {undo : ε → ω → Option ω} {fs : List ε} {u : ω}
    (h₁ : rollback undo es v = some u) (h₂ : rollback undo fs w = some v) :
    rollback undo (es ++ fs) w = some u := by
  rw [rollback_append, h₂]
  exact h₁

/-- INTERNAL: a map that commutes with undoing. -/
theorem rollback_map {ω' : Type} {undo : ε → ω → Option ω} {undo' : ε → ω' → Option ω'}
    (P : ω → Prop) (f : ω → ω') (hP : ∀ e w w', P w → undo e w = some w' → P w')
    (hf : ∀ e w, P w → (undo e w).map f = undo' e (f w)) (es : List ε) (hw : P w) :
    (rollback undo es w).map f = rollback undo' es (f w) ∧
      ∀ w', rollback undo es w = some w' → P w' := by
  induction es with
  | nil =>
    refine ⟨rfl, fun w' h => ?_⟩
    cases h
    exact hw
  | cons e es ih =>
    obtain ⟨hmap, hkeep⟩ := ih
    cases hroll : rollback undo es w with
    | none =>
      have hnone : rollback undo' es (f w) = none := by
        rw [← hmap, hroll]
        rfl
      refine ⟨by simp [rollback, hroll, hnone], fun w' h => ?_⟩
      simp [rollback, hroll] at h
    | some v =>
      have hv := hkeep v hroll
      have hsome : rollback undo' es (f w) = some (f v) := by
        rw [← hmap, hroll]
        rfl
      refine ⟨?_, fun w' h => ?_⟩
      · simp only [rollback, hroll, hsome, Option.bind_some]
        exact hf e v hv
      · simp only [rollback, hroll, Option.bind_some] at h
        exact hP e v w' hv h

theorem rollback_invariant {undo : ε → ω → Option ω} (I : ω → List ε → Prop)
    (hI : ∀ log e w w', I w (log ++ [e]) → undo e w = some w' → I w' log)
    {log es : List ε} {w w' : ω} (hw : I w (log ++ es)) (h : rollback undo es w = some w') :
    I w' log := by
  induction es generalizing log w' with
  | nil =>
    cases h
    simpa using hw
  | cons e es ih =>
    obtain ⟨v, hv, hundo⟩ := Option.bind_eq_some_iff.mp h
    exact hI log e v w' (ih (by simpa using hw) hv) hundo

/-- A journaled system: observation, log, marks and next identifier. -/
structure Tape (ω ε : Type) where
  obs : ω
  log : List ε
  marks : List (ℕ × ℕ)
  next : ℕ

/-- The three moves; `R` says which extensions there are. -/
inductive Step (undo : ε → ω → Option ω) (R : ω → List ε → List ε → ω → Prop) :
    Tape ω ε → Tape ω ε → Prop
  | extend {t : Tape ω ε} (es : List ε) (w : ω) (hR : R t.obs t.log es w)
      (hundo : rollback undo es w = some t.obs) :
      Step undo R t { t with obs := w, log := t.log ++ es }
  | mark {t : Tape ω ε} :
      Step undo R t
        { t with marks := t.marks ++ [(t.next, t.log.length)], next := t.next + 1 }
  | revert {t : Tape ω ε} (i : ℕ) (m : ℕ × ℕ) (w : ω) (hm : t.marks[i]? = some m)
      (hundo : rollback undo (t.log.drop m.2) t.obs = some w) :
      Step undo R t { t with obs := w, log := t.log.take m.2, marks := t.marks.take i }

/-- Identifiers and positions are in order along the marks. -/
structure Ordered (t : Tape ω ε) : Prop where
  sorted : t.marks.Pairwise (fun m n => m.1 < n.1 ∧ m.2 ≤ n.2)
  fresh : ∀ m ∈ t.marks, m.1 < t.next
  within : ∀ m ∈ t.marks, m.2 ≤ t.log.length

variable {undo : ε → ω → Option ω} {R : ω → List ε → List ε → ω → Prop}

theorem le_of_mem_take {ms : List (ℕ × ℕ)} {i : ℕ} {m n : ℕ × ℕ}
    (hs : ms.Pairwise (fun m n => m.1 < n.1 ∧ m.2 ≤ n.2)) (hm : ms[i]? = some m)
    (hn : n ∈ ms.take i) : n.2 ≤ m.2 := by
  obtain ⟨hi, rfl⟩ := List.getElem?_eq_some_iff.mp hm
  obtain ⟨j, hj, rfl⟩ := List.mem_take_iff_getElem.mp hn
  have hji : j < i := by omega
  exact (List.pairwise_iff_getElem.mp hs j i (by omega) hi hji).2

variable {t t' : Tape ω ε}

theorem Step.ordered (h : Step undo R t t') (ho : Ordered t) : Ordered t' := by
  cases h with
  | extend es w hR hundo =>
    refine ⟨ho.sorted, ho.fresh, fun m hm => ?_⟩
    have := ho.within m hm
    simp only [List.length_append]
    omega
  | mark =>
    refine ⟨?_, ?_, ?_⟩
    · rw [List.pairwise_append]
      refine ⟨ho.sorted, List.pairwise_singleton _ _, fun m hm n hn => ?_⟩
      rw [List.mem_singleton] at hn
      subst hn
      exact ⟨ho.fresh m hm, ho.within m hm⟩
    · intro m hm
      rcases List.mem_append.mp hm with hm | hm
      · exact Nat.lt_succ_of_lt (ho.fresh m hm)
      · rw [List.mem_singleton] at hm
        subst hm
        exact Nat.lt_succ_self _
    · intro m hm
      rcases List.mem_append.mp hm with hm | hm
      · exact ho.within m hm
      · rw [List.mem_singleton] at hm
        subst hm
        exact Nat.le_refl _
  | revert i m w hm hundo =>
    refine ⟨ho.sorted.sublist (List.take_sublist _ _),
      fun n hn => ho.fresh n (List.mem_of_mem_take hn), fun n hn => ?_⟩
    have h1 := le_of_mem_take ho.sorted hm hn
    have h2 := ho.within n (List.mem_of_mem_take hn)
    simp only [List.length_take]
    omega

theorem rollback_drop_take {n k : ℕ} (hnk : n ≤ k) (hk : rollback undo (log.drop k) v = some w) :
    rollback undo (log.drop n) v = rollback undo ((log.take k).drop n) w := by
  have hsplit : log.drop n = (log.take k).drop n ++ log.drop k := by
    conv_lhs => rw [← List.take_append_drop k log]
    rw [List.drop_append]
    have : n - (log.take k).length = 0 ∨ log.length < k := by
      simp only [List.length_take]
      omega
    rcases this with h | h
    · rw [h, List.drop_zero]
    · rw [List.drop_of_length_le (l := log) (by omega)]
      simp
  rw [hsplit, rollback_append, hk]
  rfl

/-- Undoing down to the mark `id` gives `w` and `log` back. -/
def Kept (undo : ε → ω → Option ω) (id : ℕ) (w : ω) (log : List ε) (t : Tape ω ε) : Prop :=
  id < t.next ∧ ∀ n, (id, n) ∈ t.marks →
    n = log.length ∧ t.log.take n = log ∧ rollback undo (t.log.drop n) t.obs = some w

theorem Step.kept (h : Step undo R t t') (ho : Ordered t) {id : ℕ} (hk : Kept undo id w log t) :
    Kept undo id w log t' := by
  obtain ⟨hid, hk⟩ := hk
  cases h with
  | extend es w' hR hundo =>
    refine ⟨hid, fun n hn => ?_⟩
    obtain ⟨hlen, htake, hroll⟩ := hk n hn
    have hle := ho.within _ hn
    refine ⟨hlen, ?_, ?_⟩
    · rw [List.take_append_of_le_length hle]
      exact htake
    · rw [List.drop_append_of_le_length hle]
      exact rollback_trans hroll hundo
  | mark =>
    refine ⟨Nat.lt_succ_of_lt hid, fun n hn => ?_⟩
    rcases List.mem_append.mp hn with hn | hn
    · exact hk n hn
    · simp only [List.mem_singleton, Prod.mk.injEq] at hn
      omega
  | revert i m w' hm hundo =>
    refine ⟨hid, fun n hn => ?_⟩
    obtain ⟨hlen, htake, hroll⟩ := hk n (List.mem_of_mem_take hn)
    have hle : n ≤ m.2 := le_of_mem_take ho.sorted hm hn
    refine ⟨hlen, ?_, ?_⟩
    · rw [List.take_take, Nat.min_eq_left hle]
      exact htake
    · rw [← rollback_drop_take hle hundo]
      exact hroll

theorem kept_mark (ho : Ordered t) :
    Kept undo t.next t.obs t.log
      { t with marks := t.marks ++ [(t.next, t.log.length)], next := t.next + 1 } := by
  refine ⟨Nat.lt_succ_self _, fun n hn => ?_⟩
  rcases List.mem_append.mp hn with hn | hn
  · exact absurd (ho.fresh _ hn) (Nat.lt_irrefl _)
  · simp only [List.mem_singleton, Prod.mk.injEq, true_and] at hn
    subst hn
    simp [rollback]

/-- **Rollback** gives back what was there when a mark was set. -/
theorem kept_of_steps (ho : Ordered t) (h : Relation.ReflTransGen (Step undo R)
      { t with marks := t.marks ++ [(t.next, t.log.length)], next := t.next + 1 } t') :
    Kept undo t.next t.obs t.log t' := by
  have key : Ordered t' ∧ Kept undo t.next t.obs t.log t' := by
    induction h with
    | refl => exact ⟨(@Step.mark ω ε undo R t).ordered ho, kept_mark ho⟩
    | tail _ hstep ih => exact ⟨hstep.ordered ih.1, hstep.kept ih.1 ih.2⟩
  exact key.2

/-- `Φ` holds now, and at every mark. -/
def Robust (undo : ε → ω → Option ω) (Φ : ω → List ε → Prop) (t : Tape ω ε) : Prop :=
  Φ t.obs t.log ∧ ∀ m ∈ t.marks,
    ∃ w, rollback undo (t.log.drop m.2) t.obs = some w ∧ Φ w (t.log.take m.2)

/-- What extensions preserve, every step does. -/
theorem Step.robust {Φ : ω → List ε → Prop}
    (hΦ : ∀ v log es w, R v log es w → Φ v log → Φ w (log ++ es)) (h : Step undo R t t')
    (ho : Ordered t) (hr : Robust undo Φ t) : Robust undo Φ t' := by
  obtain ⟨hnow, hmarks⟩ := hr
  cases h with
  | extend es w hR hundo =>
    refine ⟨hΦ _ _ _ _ hR hnow, fun m hm => ?_⟩
    obtain ⟨v, hv, hΦv⟩ := hmarks m hm
    have hle := ho.within m hm
    refine ⟨v, ?_, ?_⟩
    · rw [List.drop_append_of_le_length hle]
      exact rollback_trans hv hundo
    · rw [List.take_append_of_le_length hle]
      exact hΦv
  | mark =>
    refine ⟨hnow, fun m hm => ?_⟩
    rcases List.mem_append.mp hm with hm | hm
    · exact hmarks m hm
    · rw [List.mem_singleton] at hm
      subst hm
      exact ⟨t.obs, by simp [rollback], by simpa using hnow⟩
  | revert i m w hm hundo =>
    obtain ⟨v, hv, hΦv⟩ := hmarks m (List.mem_of_getElem? hm)
    rw [hundo] at hv
    cases hv
    refine ⟨hΦv, fun n hn => ?_⟩
    obtain ⟨u, hu, hΦu⟩ := hmarks n (List.mem_of_mem_take hn)
    have hle := le_of_mem_take ho.sorted hm hn
    refine ⟨u, ?_, ?_⟩
    · rw [← rollback_drop_take hle hundo]
      exact hu
    · rw [List.take_take, Nat.min_eq_left hle]
      exact hΦu

end Rollback
