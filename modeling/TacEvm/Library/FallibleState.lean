import Mathlib.Data.List.Basic

/-!
# Computations that may fail half way

`EStateM ε σ` keeps the state reached so far on both exits. `bind_ok` takes a successful sequence
apart, `forM_ok` and `forM_total` are the loop rules. `Leaves` is about the state left on either
exit, `Within` about what success does to it, `Yields` about the result, `FailsOnly` about the
errors.
-/

namespace FallibleState

variable {ε σ α β : Type}

/-- Rewrites the error of a computation that fails. -/
def mapError (g : ε → ε) (x : EStateM ε σ α) : EStateM ε σ α := fun s =>
  match x s with
  | .ok a s' => .ok a s'
  | .error e s' => .error (g e) s'

/-- A result that does not depend on the state. -/
def fromExcept (r : Except ε α) : EStateM ε σ α :=
  match r with
  | .ok a => pure a
  | .error e => throw e

/-- Stops with the error unless the condition holds. -/
def require (p : Prop) [Decidable p] (e : ε) : EStateM ε σ Unit :=
  if p then pure () else throw e

/-- A computation on one part of the state. -/
def onPart {τ : Type} (part : σ → τ) (put : τ → σ → σ) (x : EStateM ε τ α) : EStateM ε σ α :=
  fun s =>
    match x (part s) with
    | .ok a t => .ok a (put t s)
    | .error e t => .error e (put t s)

variable {x : EStateM ε σ α} {s s' : σ} {b : β}

theorem bind_ok {f : α → EStateM ε σ β} :
    (x >>= f).run s = .ok b s' ↔ ∃ a s₁, x.run s = .ok a s₁ ∧ (f a).run s₁ = .ok b s' := by
  show EStateM.bind x f s = .ok b s' ↔ _
  unfold EStateM.bind EStateM.run
  cases h : x s with
  | ok a s₁ =>
    constructor
    · intro hf
      exact ⟨a, s₁, rfl, hf⟩
    · rintro ⟨a', s₁', heq, hf⟩
      cases heq
      exact hf
  | error e s₁ =>
    constructor
    · intro hf
      cases hf
    · rintro ⟨_, _, heq, _⟩
      cases heq

variable {a : α}

variable {s₁ : σ}

theorem bind_run_of_ok {f : α → EStateM ε σ β} (h : x.run s = .ok a s₁) :
    (x >>= f).run s = (f a).run s₁ := by
  show EStateM.bind x f s = f a s₁
  unfold EStateM.run at h
  simp only [EStateM.bind, h]

variable {e : ε}

theorem bind_run_of_error {f : α → EStateM ε σ β} (h : x.run s = .error e s₁) :
    (x >>= f).run s = .error e s₁ := by
  show EStateM.bind x f s = .error e s₁
  unfold EStateM.run at h
  simp only [EStateM.bind, h]

@[simp]
theorem run_get_bind (f : σ → EStateM ε σ β) (s : σ) :
    ((get : EStateM ε σ σ) >>= f).run s = (f s).run s := rfl

@[simp]
theorem run_modify_bind (g : σ → σ) (f : PUnit → EStateM ε σ β) (s : σ) :
    ((modify g : EStateM ε σ PUnit) >>= f).run s = (f ⟨⟩).run (g s) := rfl

@[simp]
theorem run_modify (g : σ → σ) (s : σ) : (modify g : EStateM ε σ PUnit).run s = .ok ⟨⟩ (g s) :=
  rfl

@[simp]
theorem run_set (s s' : σ) : (set s' : EStateM ε σ PUnit).run s = .ok ⟨⟩ s' := rfl

@[simp]
theorem run_throw (e : ε) (s : σ) : (throw e : EStateM ε σ α).run s = .error e s := rfl

@[simp]
theorem run_pure (a : α) (s : σ) : (pure a : EStateM ε σ α).run s = .ok a s := rfl

theorem except_bind_ok {x : Except ε α} {f : α → Except ε β} :
    (x >>= f) = .ok b ↔ ∃ a, x = .ok a ∧ f a = .ok b := by
  cases x with
  | error e =>
    constructor
    · intro h
      cases h
    · rintro ⟨a, ha, -⟩
      cases ha
  | ok a =>
    constructor
    · intro h
      exact ⟨a, rfl, h⟩
    · rintro ⟨a', ha, hf⟩
      cases ha
      exact hf

variable {l : List α}

theorem except_forM_ok {f : α → Except ε Unit} (h : l.forM f = .ok ()) : ∀ a ∈ l, f a = .ok () := by
  induction l with
  | nil => exact fun a ha => absurd ha List.not_mem_nil
  | cons a l ih =>
    obtain ⟨_, hhead, htail⟩ := except_bind_ok.mp h
    intro b hb
    rcases List.mem_cons.mp hb with rfl | hb
    · exact hhead
    · exact ih htail b hb

theorem except_map_ok {x : Except ε α} {f : α → β} :
    x.map f = .ok b ↔ ∃ a, x = .ok a ∧ f a = b := by
  cases x with
  | error e => simp [Except.map]
  | ok a => simp [Except.map]

variable {r : Except ε α}

theorem fromExcept_ok : (fromExcept r : EStateM ε σ α).run s = .ok a s' ↔ r = .ok a ∧ s' = s := by
  cases r with
  | error e => simp [fromExcept]
  | ok b =>
    simp only [fromExcept, run_pure, EStateM.Result.ok.injEq, Except.ok.injEq]
    exact and_congr_right fun _ => eq_comm

variable {p : Prop}

theorem require_ok [Decidable p] :
    (require p e : EStateM ε σ Unit).run s = .ok () s' ↔ p ∧ s' = s := by
  unfold require
  split
  · rename_i hp
    simp only [run_pure, EStateM.Result.ok.injEq, true_and, hp]
    exact eq_comm
  · rename_i hp
    simp [hp]

/-- A sequence that starts with a fixed result. -/
theorem fromExcept_bind_ok {f : α → EStateM ε σ β} :
    (fromExcept r >>= f).run s = .ok b s' ↔ ∃ a, r = .ok a ∧ (f a).run s = .ok b s' := by
  rw [bind_ok]
  constructor
  · rintro ⟨a, s₁, hr, hrest⟩
    obtain ⟨ha, rfl⟩ := fromExcept_ok.mp hr
    exact ⟨a, ha, hrest⟩
  · rintro ⟨a, ha, hrest⟩
    exact ⟨a, s, fromExcept_ok.mpr ⟨ha, rfl⟩, hrest⟩

/-- A sequence that starts with a condition. -/
theorem require_bind_ok [Decidable p] {f : Unit → EStateM ε σ β} :
    (require p e >>= f).run s = .ok b s' ↔ p ∧ (f ()).run s = .ok b s' := by
  rw [bind_ok]
  constructor
  · rintro ⟨u, s₁, hrequire, hrest⟩
    obtain ⟨hp, rfl⟩ := require_ok.mp hrequire
    exact ⟨hp, hrest⟩
  · rintro ⟨hp, hrest⟩
    exact ⟨(), s, require_ok.mpr ⟨hp, rfl⟩, hrest⟩

theorem onPart_ok {τ : Type} {part : σ → τ} {put : τ → σ → σ} {x : EStateM ε τ α} :
    (onPart part put x).run s = .ok a s' ↔ ∃ t, x.run (part s) = .ok a t ∧ s' = put t s := by
  simp only [onPart, EStateM.run]
  cases x (part s) with
  | error e t => simp
  | ok b t =>
    simp only [EStateM.Result.ok.injEq]
    constructor
    · rintro ⟨rfl, rfl⟩
      exact ⟨t, ⟨rfl, rfl⟩, rfl⟩
    · rintro ⟨t', ⟨rfl, rfl⟩, rfl⟩
      exact ⟨rfl, rfl⟩

theorem mapError_ok {g : ε → ε} : (mapError g x).run s = .ok a s' ↔ x.run s = .ok a s' := by
  simp only [mapError, EStateM.run]
  cases h : x s with
  | ok b s₁ => rfl
  | error e s₁ => simp

theorem discard_ok :
    (discard x : EStateM ε σ Unit).run s = .ok () s' ↔ ∃ a, x.run s = .ok a s' := by
  simp only [discard, Functor.discard, Functor.mapConst, EStateM.run, Function.comp, EStateM.map]
  cases h : x s with
  | ok a s₁ => simp
  | error e s₁ => simp

variable {f : α → EStateM ε σ Unit}

theorem forM_congr {g : α → EStateM ε σ Unit} (h : ∀ a ∈ l, f a = g a) : l.forM f = l.forM g := by
  induction l with
  | nil => rfl
  | cons a l ih =>
    have hrest := ih fun b hb => h b (List.mem_cons_of_mem a hb)
    have hfirst := h a List.mem_cons_self
    show (f a >>= fun _ => l.forM f) = (g a >>= fun _ => l.forM g)
    rw [hfirst, hrest]

/-- **Loop rule.** An invariant that every successful round carries on holds in the end. -/
theorem forM_ok (I : List α → σ → Prop) (h : (l.forM f).run s = .ok () s') (hinit : I [] s)
    (hround : ∀ done a rest s s', l = done ++ a :: rest → I done s →
      (f a).run s = .ok () s' → I (done ++ [a]) s') : I l s' := by
  suffices hgen : ∀ (rest done : List α) (s : σ), l = done ++ rest → I done s →
      (rest.forM f).run s = .ok () s' → I l s' from hgen l [] s rfl hinit h
  intro rest
  induction rest with
  | nil =>
    intro done s hl hI hrun
    cases hrun
    simpa [hl] using hI
  | cons a rest ih =>
    intro done s hl hI hrun
    obtain ⟨_, s₁, h1, h2⟩ := bind_ok.mp hrun
    exact ih (done ++ [a]) s₁ (by simp [hl]) (hround done a rest s s₁ hl hI h1) h2

theorem forM_append_ok {l' : List α} :
    ((l ++ l').forM f).run s = .ok () s' ↔
      ∃ s₁, (l.forM f).run s = .ok () s₁ ∧ (l'.forM f).run s₁ = .ok () s' := by
  induction l generalizing s with
  | nil =>
    constructor
    · intro h
      exact ⟨s, rfl, h⟩
    · rintro ⟨s₁, hnil, h⟩
      cases hnil
      exact h
  | cons a l ih =>
    show (f a >>= fun _ => (l ++ l').forM f).run s = .ok () s' ↔
      ∃ s₁, (f a >>= fun _ => l.forM f).run s = .ok () s₁ ∧ _
    rw [bind_ok]
    constructor
    · rintro ⟨_, s₂, ha, h⟩
      obtain ⟨s₁, hl, hl'⟩ := ih.mp h
      exact ⟨s₁, bind_ok.mpr ⟨(), s₂, ha, hl⟩, hl'⟩
    · rintro ⟨s₁, h, hl'⟩
      obtain ⟨_, s₂, ha, hl⟩ := bind_ok.mp h
      exact ⟨(), s₂, ha, ih.mpr ⟨s₁, hl, hl'⟩⟩

/-- **Total loop rule**: every round succeeds and carries the invariant on. -/
theorem forM_total (I : List α → σ → Prop) (hinit : I [] s)
    (hround : ∀ done a rest s, l = done ++ a :: rest → I done s →
      ∃ s', (f a).run s = .ok () s' ∧ I (done ++ [a]) s') :
    ∃ s', (l.forM f).run s = .ok () s' ∧ I l s' := by
  suffices hgen : ∀ (rest done : List α) (s : σ), l = done ++ rest → I done s →
      ∃ s', (rest.forM f).run s = .ok () s' ∧ I l s' from hgen l [] s rfl hinit
  intro rest
  induction rest with
  | nil =>
    intro done s hl hI
    exact ⟨s, rfl, by simpa [hl] using hI⟩
  | cons a rest ih =>
    intro done s hl hI
    obtain ⟨s₁, h1, hI₁⟩ := hround done a rest s hl hI
    obtain ⟨s', h2, hI'⟩ := ih (done ++ [a]) s₁ (by simp [hl]) hI₁
    exact ⟨s', bind_ok.mpr ⟨(), s₁, h1, h2⟩, hI'⟩

/-- The state a computation leaves, whether it succeeds or fails. -/
def left : EStateM.Result ε σ α → σ
  | .ok _ s => s
  | .error _ s => s

/-- However `x` ends, the state it leaves has `Q`. -/
def Leaves (Q : σ → Prop) (x : EStateM ε σ α) (s : σ) : Prop := Q (left (x.run s))

namespace Leaves

variable {Q : σ → Prop} {x : EStateM ε σ α} {s : σ}

variable {s' : σ}

variable {e : ε}

theorem of_error (h : x.run s = .error e s') (hQ : Q s') : Leaves Q x s := by
  unfold Leaves
  rw [h]
  exact hQ

theorem of_ok (h : x.run s = .ok a s') (hQ : Q s') : Leaves Q x s := by
  unfold Leaves
  rw [h]
  exact hQ

theorem pure (hQ : Q s) : Leaves Q (pure a : EStateM ε σ α) s := hQ

theorem throw (hQ : Q s) : Leaves Q (throw e : EStateM ε σ α) s := hQ

variable {g : σ → σ}

theorem modify_bind {f : PUnit → EStateM ε σ β} (hf : Leaves Q (f ⟨⟩) (g s)) :
    Leaves Q ((modify g : EStateM ε σ PUnit) >>= f) s := hf

theorem modify (hQ : Q (g s)) : Leaves Q (modify g : EStateM ε σ PUnit) s := hQ

theorem set (hQ : Q s') : Leaves Q (set s' : EStateM ε σ PUnit) s := hQ

theorem get_bind {f : σ → EStateM ε σ β} (hf : Leaves Q (f s) s) : Leaves Q (get >>= f) s := hf

/-- **Sequences**: both parts leave `Q`. -/
theorem bind {f : α → EStateM ε σ β} (hx : Leaves Q x s)
    (hf : ∀ a s', x.run s = .ok a s' → Leaves Q (f a) s') : Leaves Q (x >>= f) s := by
  cases h : x.run s with
  | ok a s' =>
    have hrest := hf a s' h
    unfold Leaves at hrest ⊢
    rwa [bind_run_of_ok h]
  | error e s' =>
    unfold Leaves at hx ⊢
    rw [h] at hx
    rwa [bind_run_of_error h]

theorem seq {f : α → EStateM ε σ β} (hx : Leaves Q x s) (hf : ∀ a s', Q s' → Leaves Q (f a) s') :
    Leaves Q (x >>= f) s := by
  refine hx.bind fun a s' hrun => hf a s' ?_
  unfold Leaves at hx
  rwa [hrun] at hx

theorem mapError {g : ε → ε} (hx : Leaves Q x s) : Leaves Q (mapError g x) s := by
  unfold Leaves at hx ⊢
  simp only [FallibleState.mapError, EStateM.run] at hx ⊢
  cases h : x s with
  | ok a s' =>
    rw [h] at hx
    exact hx
  | error e s' =>
    rw [h] at hx
    exact hx

/-- **Loops.**  An invariant every round leaves, however it ends. -/
theorem forM (hQ : Q s) (hround : ∀ a ∈ l, ∀ s, Q s → Leaves Q (f a) s) :
    Leaves Q (l.forM f) s := by
  induction l generalizing s with
  | nil => exact hQ
  | cons a l ih =>
    have hfirst := hround a List.mem_cons_self s hQ
    refine .seq hfirst fun _ s' hQ' => ?_
    exact ih hQ' fun b hb => hround b (List.mem_cons_of_mem a hb)

end Leaves

/-- Every successful run of `x` is a step of `R`. -/
def Within (R : σ → σ → Prop) (x : EStateM ε σ α) : Prop :=
  ∀ s a s', x.run s = .ok a s' → R s s'

namespace Within

variable {R : σ → σ → Prop} {x : EStateM ε σ α}

theorem pure [Std.Refl R] (a : α) : Within R (pure a : EStateM ε σ α) := by
  intro s b s' h
  cases h
  exact refl_of R s

theorem throw (e : ε) : Within R (throw e : EStateM ε σ α) := by
  intro s b s' h
  cases h

theorem modify {g : σ → σ} (hg : ∀ s, R s (g s)) : Within R (modify g : EStateM ε σ PUnit) := by
  intro s b s' h
  cases h
  exact hg s

/-- **Sequences** of steps are steps. -/
theorem bind [IsTrans σ R] {f : α → EStateM ε σ β} (hx : Within R x)
    (hf : ∀ a, Within R (f a)) : Within R (x >>= f) := by
  intro s b s' h
  obtain ⟨a, s₁, hfirst, hrest⟩ := bind_ok.mp h
  exact trans_of R (hx s a s₁ hfirst) (hf a s₁ b s' hrest)

theorem mono {R' : σ → σ → Prop} (hx : Within R x) (h : ∀ s s', R s s' → R' s s') :
    Within R' x := fun s a s' hrun => h s s' (hx s a s' hrun)

theorem forM [IsPreorder σ R] (hround : ∀ a ∈ l, Within R (f a)) : Within R (l.forM f) := by
  induction l with
  | nil => exact pure ()
  | cons a l ih =>
    refine bind (hround a List.mem_cons_self) fun _ => ?_
    exact ih fun b hb => hround b (List.mem_cons_of_mem a hb)

end Within

/-- Every result of `x` satisfies `P`. -/
def Yields (P : α → Prop) (x : EStateM ε σ α) : Prop := ∀ s a s', x.run s = .ok a s' → P a

namespace Yields

variable {P : β → Prop}

theorem pure (hb : P b) : Yields P (pure b : EStateM ε σ β) := by
  intro s b' s' h
  cases h
  exact hb

theorem bind {f : α → EStateM ε σ β} (hf : ∀ a, Yields P (f a)) :
    Yields P (x >>= f) := by
  intro s b s' h
  obtain ⟨a, s₁, -, hrest⟩ := bind_ok.mp h
  exact hf a s₁ b s' hrest

end Yields

/-- Whatever state `x` starts in, an error it stops with has `P`. -/
def FailsOnly (P : ε → Prop) (x : EStateM ε σ α) : Prop :=
  ∀ s e s', x.run s = .error e s' → P e

namespace FailsOnly

variable {P : ε → Prop} {x : EStateM ε σ α}

theorem pure (a : α) : FailsOnly P (pure a : EStateM ε σ α) := by
  intro s e s' h
  cases h

theorem throw {e : ε} (he : P e) : FailsOnly P (throw e : EStateM ε σ α) := by
  intro s e' s' h
  cases h
  exact he

theorem modify (g : σ → σ) : FailsOnly P (modify g : EStateM ε σ PUnit) := by
  intro s e s' h
  cases h

theorem set (s : σ) : FailsOnly P (set s : EStateM ε σ PUnit) := by
  intro s₁ e s' h
  cases h

theorem get : FailsOnly P (get : EStateM ε σ σ) := by
  intro s e s' h
  cases h

theorem bind {f : α → EStateM ε σ β} (hx : FailsOnly P x) (hf : ∀ a, FailsOnly P (f a)) :
    FailsOnly P (x >>= f) := by
  intro s e s' h
  cases hfirst : x.run s with
  | ok a s₁ =>
    rw [bind_run_of_ok hfirst] at h
    exact hf a s₁ e s' h
  | error e₁ s₁ =>
    rw [bind_run_of_error hfirst] at h
    cases h
    exact hx s e s' hfirst

theorem mapError {g : ε → ε} (hx : FailsOnly P x) (hg : ∀ e, P e → P (g e)) :
    FailsOnly P (mapError g x) := by
  intro s e s' h
  simp only [FallibleState.mapError, EStateM.run] at h
  cases hfirst : x s with
  | ok a s₁ =>
    rw [hfirst] at h
    cases h
  | error e₁ s₁ =>
    rw [hfirst] at h
    cases h
    exact hg e₁ (hx s e₁ s' hfirst)

theorem forM (hround : ∀ a ∈ l, FailsOnly P (f a)) :
    FailsOnly P (l.forM f) := by
  induction l with
  | nil => exact .pure ()
  | cons a l ih =>
    have hfirst := hround a List.mem_cons_self
    have hrest := ih fun b hb => hround b (List.mem_cons_of_mem a hb)
    exact .bind hfirst fun _ => hrest

end FailsOnly

end FallibleState
