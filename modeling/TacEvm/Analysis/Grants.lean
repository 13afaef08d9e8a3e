import TacEvm.Model.Authz

/-!
# Reading and writing grants

What is read after a grant was set, when a grant is live, and what it takes to save and to delete
one. A grant that expires at the time of the block is live, and cannot be saved.
-/

namespace TacEvm

open FallibleState

variable {Ω : Type} {env : Env} {st st' : Store Ω} {owner spender : Address} {msgType : String}

namespace Store

variable {g : Option Grant}

theorem setGrant_self : (st.setGrant owner spender msgType g).grants owner spender msgType = g := by
  simp [Store.setGrant]

theorem setGrant_other {u : String} {o s : Address} (h : ¬ (o = owner ∧ s = spender ∧ u = msgType))
    : (st.setGrant owner spender msgType g).grants o s u = st.grants o s u := by
  show Function.update st.grants owner _ o s u = _
  by_cases ho : o = owner
  · subst ho
    rw [Function.update_self]
    by_cases hs : s = spender
    · subst hs
      rw [Function.update_self, Function.update_of_ne fun hu => h ⟨rfl, rfl, hu⟩]
    · rw [Function.update_of_ne hs]
  · rw [Function.update_of_ne ho]

theorem setGrant_setGrant {g' : Option Grant} :
    (st.setGrant owner spender msgType g).setGrant owner spender msgType g' =
      st.setGrant owner spender msgType g' := by
  simp [Store.setGrant]

theorem setGrant_eq_self (h : st.grants owner spender msgType = g) :
    st.setGrant owner spender msgType g = st := by
  subst h
  simp [Store.setGrant]

/-- The grants that are found are the live ones. -/
theorem getAuthorization_eq_some {a : Authorization} {expiration : Option ℤ} :
    st.getAuthorization env spender owner msgType = some (a, expiration) ↔
      st.grants owner spender msgType = some ⟨a, expiration⟩ ∧
        ¬ expiration.any (· < env.blockTime) = true := by
  unfold Store.getAuthorization
  cases hgrant : st.grants owner spender msgType with
  | none => simp
  | some g =>
    obtain ⟨b, exp⟩ := g
    cases exp with
    | none =>
      simp only [Option.bind_some, Option.some.injEq, Prod.mk.injEq, Grant.mk.injEq]
      constructor
      · rintro ⟨rfl, rfl⟩
        exact ⟨⟨rfl, rfl⟩, by simp⟩
      · rintro ⟨⟨rfl, rfl⟩, -⟩
        exact ⟨rfl, rfl⟩
    | some t =>
      simp only [Option.bind_some]
      split
      · rename_i hlt
        simp only [reduceCtorEq, Option.some.injEq, Grant.mk.injEq, false_iff]
        rintro ⟨⟨rfl, rfl⟩, hlive⟩
        exact hlive (by simpa using hlt)
      · rename_i hlt
        simp only [Option.some.injEq, Prod.mk.injEq, Grant.mk.injEq]
        constructor
        · rintro ⟨rfl, rfl⟩
          exact ⟨⟨rfl, rfl⟩, by simpa using hlt⟩
        · rintro ⟨⟨rfl, rfl⟩, -⟩
          exact ⟨rfl, rfl⟩

theorem getAuthorization_eq_none :
    st.getAuthorization env spender owner msgType = none ↔
      ∀ g, st.grants owner spender msgType = some g →
        g.expiration.any (· < env.blockTime) = true := by
  constructor
  · intro h g hgrant
    by_contra hlive
    rw [getAuthorization_eq_some.mpr ⟨hgrant, hlive⟩] at h
    cases h
  · intro h
    cases hget : st.getAuthorization env spender owner msgType with
    | none => rfl
    | some p =>
      obtain ⟨hgrant, hlive⟩ := getAuthorization_eq_some.mp hget
      exact absurd (h _ hgrant) hlive

end Store

namespace Authz

theorem saveGrant_ok {a : Authorization} {expiration : Option ℤ} :
    (saveGrant env spender owner a expiration).run st = .ok () st' ↔
      ¬ expiration.any (· ≤ env.blockTime) = true ∧
        st' = st.setGrant owner spender a.msgTypeURL (some ⟨a, expiration⟩) := by
  unfold saveGrant
  split
  · rename_i hearly
    constructor
    · intro h
      cases h
    · rintro ⟨hlate, -⟩
      exact absurd hearly hlate
  · rename_i hlate
    rw [run_modify, EStateM.Result.ok.injEq]
    exact ⟨fun h => ⟨hlate, h.2.symm⟩, fun h => ⟨rfl, h.2.symm⟩⟩

theorem deleteGrant_ok :
    (deleteGrant spender owner msgType).run st = .ok () st' ↔
      st.grants owner spender msgType ≠ none ∧ st' = st.setGrant owner spender msgType none := by
  unfold deleteGrant
  rw [run_get_bind]
  split
  · rename_i hnone
    constructor
    · intro h
      cases h
    · rintro ⟨hsome, -⟩
      exact absurd hnone hsome
  · rename_i hsome
    rw [run_set, EStateM.Result.ok.injEq]
    exact ⟨fun h => ⟨hsome, h.2.symm⟩, fun h => ⟨rfl, h.2.symm⟩⟩

end Authz

end TacEvm
