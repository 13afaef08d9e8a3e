import Mathlib.Algebra.BigOperators.Ring.Finset
import TacEvm.Analysis.Invariants
import TacEvm.Analysis.Readings
import TacEvm.Model.Devnet

/-!
# Decimals and the supply

Every write of a balance is first cut down to whole bank units, so nothing is lost when `Commit`
converts back. The supply follows the balances of the dirty accounts, except for coins of an address
without an auth account.
-/

namespace TacEvm

open OrderedKeys StateDB Devnet

variable {Ω : Type} {env : Env}

theorem Reached.dvd_getBalance {ctx : Context Ω} {s : StateDB Ω} (hr : Reached env ctx s)
    (a : Address) : (env.conversionFactor : ℤ) ∣ (s.getBalance env a).1 := by
  rw [getBalance_eq]
  cases hobj : s.object env a with
  | none => exact dvd_zero _
  | some o =>
    have hview : (s.observe env).objects a = some (o.view env s.ctx.store a) := by
      rw [observe_objects, hobj]
      rfl
    exact hr.wholeUnits a _ hview

theorem StateDB.transfer_sum (s : StateDB Ω) (a b : Address) (x : ℤ) {S : Finset Address}
    (ha : a ∈ S) (hb : b ∈ S) :
    ∑ c ∈ S, ((s.transfer env a b x).getBalance env c).1 = ∑ c ∈ S, (s.getBalance env c).1 := by
  simp only [transfer_getBalance]
  rw [Finset.sum_add_distrib, Finset.sum_sub_distrib, Finset.sum_ite_eq', Finset.sum_ite_eq',
    if_pos ha, if_pos hb, sub_add_cancel]

section Supply

variable {ctx : Context Ω} {s : StateDB Ω} {st' : Store Ω}

variable (env) in
/-- The final balance, nothing for a destroyed account. -/
def StateDB.finalBalance (s : StateDB Ω) (a : Address) : ℤ :=
  if (s.hasSuicided env a).1 then 0 else (s.getBalance env a).1

variable (env) in
/-- The coins that are burnt for want of an auth account. -/
def StateDB.unseenCoins (s : StateDB Ω) (st : Store Ω) (a : Address) : ℕ :=
  if (s.hasSuicided env a).1 = false ∧ st.sequence a = none then st.balance a env.evmDenom else 0

/-- What a commit adds to an account, in 18 decimals. -/
theorem commitDelta_mul (hr : Reached env ctx s)
    (h : CommittedSoFar env s.stateObjects ctx.store s.journal.sortedDirties st') (tx : TxConfig)
    {a : Address} (ha : a ∈ s.journal.dirties) :
    commitDelta env s.stateObjects ctx.store a * env.conversionFactor =
      s.finalBalance env a - ((new ctx tx).getBalance env a).1 -
        s.unseenCoins env ctx.store a * env.conversionFactor := by
  obtain ⟨o, ho⟩ := hr.tracked.live_of_dirty ha
  have hsuicided : (s.hasSuicided env a).1 = o.suicided := hasSuicided_of_live ho
  have hbalance : (s.getBalance env a).1 = o.account.balance := getBalance_of_live ho
  unfold commitDelta commitAccount finalBalance unseenCoins
  rw [ho, Option.elim_some, new_getBalance, hsuicided, hbalance]
  have hseq : (ctx.store.accountState a).sequence = ctx.store.sequence a := rfl
  cases hs : o.suicided with
  | true =>
    by_cases hnone : ctx.store.sequence a = none
    · -- `DeleteAccount` returns at once
      simp [hnone, Store.accountState]
    · simp [hseq, hnone]
  | false =>
    obtain ⟨o', ho', hnonneg⟩ := h.live a ((mem_sortedDirties s.journal a).mpr ha)
    rw [ho] at ho'
    cases ho'
    have hunits := bankUnits_mul (hr.dvd_balance a o ho) (hnonneg hs)
    by_cases hnone : ctx.store.sequence a = none
    · simp [hnone, sub_mul, hunits]
    · simp [hnone, sub_mul, hunits]

theorem supply_commit (hr : Reached env ctx s)
    (h : CommittedSoFar env s.stateObjects ctx.store s.journal.sortedDirties st')
    (tx : TxConfig) :
    ((st'.supply env.evmDenom : ℤ) - ctx.store.supply env.evmDenom) * env.conversionFactor =
      ∑ a ∈ s.journal.dirties.keys, (s.finalBalance env a - ((new ctx tx).getBalance env a).1) -
        (∑ a ∈ s.journal.dirties.keys, (s.unseenCoins env ctx.store a : ℤ)) *
          env.conversionFactor := by
  rw [h.supply, Journal.sortedDirties, sum_map_sortedKeys, Finset.sum_mul, Finset.sum_mul,
    ← Finset.sum_sub_distrib]
  refine Finset.sum_congr rfl fun a ha => ?_
  exact commitDelta_mul hr h tx (Finmap.mem_keys.mp ha)

end Supply

/-- **Decimals and supply.** Balances are whole bank units and stored exactly; the supply follows
them if and only if dirty accounts without an auth account had no coins. -/
theorem supply_follows_balances {ctx : Context Ω} {tx : TxConfig} {s : StateDB Ω} {ops : List Op}
    (hrun : (StateDB.new ctx tx).runOps env ops = some s) :
    (∀ a, (env.conversionFactor : ℤ) ∣ (s.getBalance env a).1) ∧
    (∀ a b x (S : Finset Address), a ∈ S → b ∈ S →
      ∑ c ∈ S, ((s.transfer env a b x).getBalance env c).1 = ∑ c ∈ S, (s.getBalance env c).1) ∧
    ∀ ctx', s.commit env = (none, ctx') →
      (∀ a ∈ s.journal.dirties, (s.hasSuicided env a).1 = false →
        (ctx'.store.balance a env.evmDenom : ℤ) * env.conversionFactor = (s.getBalance env a).1) ∧
      (((ctx'.store.supply env.evmDenom : ℤ) - ctx.store.supply env.evmDenom) *
            env.conversionFactor =
          ∑ a ∈ s.journal.dirties.keys,
            ((if (s.hasSuicided env a).1 then 0 else (s.getBalance env a).1) -
              ((StateDB.new ctx tx).getBalance env a).1) ↔
        ∀ a ∈ s.journal.dirties, (s.hasSuicided env a).1 = false →
          ctx.store.sequence a = none → ctx.store.balance a env.evmDenom = 0) := by
  have hr : Reached env ctx s := run_reached hrun
  have hF : (env.conversionFactor : ℤ) ≠ 0 := by exact_mod_cast env.conversionFactor_ne_zero
  refine ⟨hr.dvd_getBalance, fun a b x S ha hb => s.transfer_sum a b x ha hb, ?_⟩
  intro ctx' hcommit
  have hok := runOps_commit_ok hrun hr.sameCtx hcommit
  have hdone := hr.commitWithCtx_ok hok
  refine ⟨?_, ?_⟩
  · intro a ha hs
    obtain ⟨o, ho, hnonneg⟩ := hdone.live a ((mem_sortedDirties s.journal a).mpr ha)
    rw [StateDB.hasSuicided_of_live ho] at hs
    have hstate := congrArg AccountState.balance (hdone.accountState_dirty ha ho)
    have hunits : ctx'.store.balance a env.evmDenom = o.bankUnits env := by
      have := congrFun hstate env.evmDenom
      simpa [commitAccount, hs, Store.accountState] using this
    rw [hunits, StateDB.getBalance_of_live ho]
    exact bankUnits_mul (hr.dvd_balance a o ho) (hnonneg hs)
  · rw [supply_commit hr hdone tx]
    -- the equation says that no unseen coins were burnt
    have hzero : ∀ x y : ℤ, x - y * env.conversionFactor = x ↔ y = 0 := by
      intro x y
      rw [sub_eq_self, mul_eq_zero, or_iff_left hF]
    have hnonneg : ∀ a ∈ s.journal.dirties.keys, (0 : ℤ) ≤ s.unseenCoins env ctx.store a :=
      fun a _ => Int.natCast_nonneg _
    refine (hzero _ _).trans ((Finset.sum_eq_zero_iff_of_nonneg hnonneg).trans ?_)
    simp [StateDB.unseenCoins, Finmap.mem_keys]

/-- The supply grows by three coins, and not by the other seven units. -/
theorem supply_follows_balances_devnet :
    ∃ s, (StateDB.new (Devnet.ctx (emptyStore ())) txConfig).runOps
        env6 [.write (.addBalance 0xA1 3000000000007)] = some s ∧
      ((s.commit env6).2.store.supply "utac" : ℤ) = 3 ∧
      (((s.commit env6).2.store.supply "utac" : ℤ) - 0) * 1000000000000 =
        ∑ a ∈ s.journal.dirties.keys, ((if (s.hasSuicided env6 a).1 then 0
            else (s.getBalance env6 a).1) -
          ((StateDB.new (Devnet.ctx (emptyStore ())) txConfig).getBalance env6 a).1) := by
  have hrun : (StateDB.new (Devnet.ctx (emptyStore ())) txConfig).runOps
      env6 [.write (.addBalance 0xA1 3000000000007)] = some _ := rfl
  have hcommit := ((supply_follows_balances hrun).2.2 _ rfl).2
  exact ⟨_, rfl, by decide, hcommit.mpr fun a _ _ _ => rfl⟩

/-- A store in which `0xA1` has five coins and no auth account. -/
def Devnet.unseenStore : Store Unit :=
  { emptyStore () with
    balance := fun a d => if a = 0xA1 ∧ d = "utac" then 5 else 0
    supply := fun d => if d = "utac" then 5 else 0 }

/-- Three coins are added to the account and `Commit` burns two. -/
theorem supply_ne_balances :
    ∃ s, (StateDB.new (Devnet.ctx unseenStore) txConfig).runOps
        env6 [.write (.addBalance 0xA1 3000000000000)] = some s ∧
      (s.commit env6).1 = none ∧
      (s.commit env6).2.store.supply "utac" = 3 ∧
      ∑ a ∈ s.journal.dirties.keys, ((if (s.hasSuicided env6 a).1 then 0
          else (s.getBalance env6 a).1) -
        ((StateDB.new (Devnet.ctx unseenStore) txConfig).getBalance env6 a).1) = 3000000000000 :=
  ⟨_, rfl, by decide, by decide, by decide⟩

end TacEvm
