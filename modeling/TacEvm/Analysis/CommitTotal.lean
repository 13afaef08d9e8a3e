import TacEvm.Analysis.Invariants
import TacEvm.Analysis.Readings
import TacEvm.Model.Devnet

/-!
# When `Commit` goes through

`DeleteAccount` looks at what the store had before the transaction. An account that exists there
without code makes it fail, and with it the whole commit.
-/

namespace TacEvm

open FallibleState AccountState StateDB Devnet

variable {Ω : Type} {env : Env}

/-- Nothing is left of an account. -/
structure Store.Removed (env : Env) (st : Store Ω) (a : Address) : Prop where
  sequence : st.sequence a = none
  codeHash : st.codeHash a = none
  storage : ∀ k, st.storage a k = none
  balance : st.balance a env.evmDenom = 0

/-- Nothing is blocked or locked, and the supply covers the balances. -/
structure BankWilling (env : Env) (st : Store Ω) (S : Set Address) : Prop where
  blocked : ∀ a ∈ S, env.blockedAddr a = false
  locked : ∀ b, env.lockedCoins b env.evmDenom = 0
  covered : ∀ T : Finset Address, ∑ a ∈ T, st.balance a env.evmDenom ≤ st.supply env.evmDenom

section

variable {objs : Address → Option StateObject} {st st' : Store Ω}

theorem neg_balance_le_commitDelta (a : Address) :
    -(st.balance a env.evmDenom : ℤ) ≤ commitDelta env objs st a := by
  unfold commitDelta
  cases objs a with
  | none => simp
  | some o =>
    rw [Option.elim_some]
    omega

theorem commitDelta_sum_nonneg (L : List Address) :
    0 ≤ (L.map (commitDelta env objs st)).sum +
      ((L.map fun a => st.balance a env.evmDenom).sum : ℕ) := by
  induction L with
  | nil => simp
  | cons a L ih =>
    have ha := @neg_balance_le_commitDelta Ω env objs st a
    simp only [List.map_cons, List.sum_cons, Nat.cast_add]
    omega

theorem CommittedSoFar.balance_le_supply {done : List Address} {S : Set Address}
    (h : CommittedSoFar env objs st done st') (hbank : BankWilling env st S)
    (hnodup : done.Nodup) {a : Address} (ha : a ∉ done) :
    st'.balance a env.evmDenom ≤ st'.supply env.evmDenom := by
  have hbefore : st'.balance a = st.balance a :=
    congrArg balance (h.accountState_ahead ha)
  have hdelta := @commitDelta_sum_nonneg Ω env objs st done
  have hcovered := hbank.covered (insert a done.toFinset)
  rw [Finset.sum_insert (by simpa using ha), List.sum_toFinset _ hnodup] at hcovered
  have hsupply := h.supply
  rw [hbefore]
  omega

end

section

variable {ctx : Context Ω} {s : StateDB Ω}

/-- Destroyed accounts are contracts of the store, or not in it. -/
def DestroyedContracts (env : Env) (s : StateDB Ω) (st : Store Ω) : Prop :=
  ∀ a, (s.hasSuicided env a).1 = true → st.sequence a ≠ none → st.codeHash a ≠ none

/-- **Commit goes through** if destroyed accounts can be removed. -/
theorem Reached.commitWithCtx_run (hr : Reached env ctx s)
    (hnonneg : ∀ a, 0 ≤ (s.getBalance env a).1) {st : Store Ω}
    (hbank : BankWilling env st {a | a ∈ s.journal.dirties})
    (hdestroyed : DestroyedContracts env s st) :
    ∃ st', (s.commitWithCtx env).run st = .ok () st' := by
  suffices h : ∃ st', (s.commitWithCtx env).run st = .ok () st' ∧
      CommittedSoFar env s.stateObjects st s.journal.sortedDirties st' from
    h.imp fun st' hst' => hst'.1
  refine forM_total (CommittedSoFar env s.stateObjects st) (CommittedSoFar.init st) ?_
  intro done a rest st₁ hsplit hdone
  have ha := notMem_of_sortedDirties hsplit
  have hdirty : a ∈ s.journal.dirties := by
    rw [← mem_sortedDirties, hsplit]
    exact List.mem_append_right _ List.mem_cons_self
  obtain ⟨o, ho⟩ := hr.tracked.live_of_dirty hdirty
  have hdvd := hr.dvd_balance a o ho
  have hstate := hdone.accountState_ahead ha
  have hsequence : st₁.sequence a = st.sequence a := congrArg sequence hstate
  have hcode : st₁.codeHash a = st.codeHash a := congrArg codeHash hstate
  have hnodup : done.Nodup := by
    have hall := nodup_sortedDirties s.journal
    rw [hsplit] at hall
    exact (List.nodup_append.mp hall).1
  have hbalance : 0 ≤ o.account.balance := by
    rw [← getBalance_of_live ho]
    exact hnonneg a
  have hcontract : o.suicided = true → st₁.sequence a ≠ none → st₁.codeHash a ≠ none := by
    rw [hsequence, hcode, ← hasSuicided_of_live ho]
    exact hdestroyed a
  have hrun := commitObject_run hdvd (fun _ => hbalance) hcontract (hbank.blocked a hdirty)
    hbank.locked (hdone.balance_le_supply hbank hnodup ha)
  rw [ho]
  exact ⟨_, hrun, hdone.step ha ho hdvd hrun⟩

/-- A suicided account is removed, if it was there. -/
theorem Reached.accountState_suicided (hr : Reached env ctx s) {st st' : Store Ω}
    (hdone : CommittedSoFar env s.stateObjects st s.journal.sortedDirties st') {a : Address}
    (ha : (s.hasSuicided env a).1 = true) :
    (st.sequence a = none ∧ st'.accountState a = st.accountState a) ∨
      (st.sequence a ≠ none ∧ st.codeHash a ≠ none ∧ st'.Removed env a) := by
  have hflag : ((s.observe env).objects a).elim false ObjectView.suicided = true := by
    rw [← ha]
    exact (congrFun (congrArg Readings.hasSuicided (s.readings_eq env)) a).symm
  cases hv : (s.observe env).objects a with
  | none =>
    rw [hv] at hflag
    cases hflag
  | some v =>
    rw [hv] at hflag
    obtain ⟨prev, b, hmem⟩ := hr.suicidesJournaled a v hv hflag
    have hdirty : a ∈ s.journal.dirties := (hr.tracked.mem_dirties a).mpr ⟨_, hmem, rfl⟩
    obtain ⟨o, ho⟩ := hr.tracked.live_of_dirty hdirty
    have hsuicided : o.suicided = true := by
      rw [← ha]
      exact (hasSuicided_of_live ho).symm
    have hstate := hdone.accountState_dirty hdirty ho
    simp only [commitAccount, hsuicided, if_true] at hstate
    by_cases hsequence : st.sequence a = none
    · left
      have hx : (st.accountState a).sequence = none := hsequence
      rw [if_pos hx] at hstate
      exact ⟨hsequence, hstate⟩
    · right
      have hx : (st.accountState a).sequence ≠ none := hsequence
      rw [if_neg hx] at hstate
      have hcode := (hdone.contracts a ((mem_sortedDirties s.journal a).mpr hdirty) o ho
        hsuicided).resolve_left hsequence
      have hzero := congrFun (congrArg balance hstate) env.evmDenom
      refine ⟨hsequence, hcode, congrArg sequence hstate, congrArg codeHash hstate, fun k => ?_, ?_⟩
      · exact congrFun (congrArg storage hstate) k
      · simpa [Store.accountState] using hzero

end

/-- **When commit is total.** It succeeds and removes the accounts that destroyed themselves if and
only if each was a contract with an auth account, or had left no trace. -/
theorem commit_total_iff {ctx : Context Ω} {tx : TxConfig} {s : StateDB Ω} {ops : List Op}
    (hrun : (StateDB.new ctx tx).runOps env ops = some s)
    (hnonneg : ∀ a, 0 ≤ (s.getBalance env a).1)
    (hbank : BankWilling env ctx.store {a | a ∈ s.journal.dirties}) :
    ((s.commit env).1 = none ∧
      ∀ a, (s.hasSuicided env a).1 = true → (s.commit env).2.store.Removed env a) ↔
    ∀ a, (s.hasSuicided env a).1 = true →
      (ctx.store.sequence a ≠ none ∧ ctx.store.codeHash a ≠ none) ∨ ctx.store.Removed env a := by
  have hr : Reached env ctx s := run_reached hrun
  constructor
  · rintro ⟨hok, hremoved⟩ a ha
    have hcommit : s.commit env = (none, (s.commit env).2) := Prod.ext hok rfl
    have hdone := hr.commitWithCtx_ok (runOps_commit_ok hrun hr.sameCtx hcommit)
    rcases hr.accountState_suicided hdone ha with ⟨hsequence, hstate⟩ | ⟨hsequence, hcode, -⟩
    · right
      have hgone := hremoved a ha
      have hbalance := congrArg AccountState.balance hstate
      refine ⟨hsequence, ?_, fun k => ?_, ?_⟩
      · rw [← hgone.codeHash]
        exact (congrArg AccountState.codeHash hstate).symm
      · rw [← hgone.storage k]
        exact congrFun (congrArg AccountState.storage hstate).symm k
      · rw [← hgone.balance]
        exact (congrFun hbalance env.evmDenom).symm
    · exact .inl ⟨hsequence, hcode⟩
  · intro hcondition
    have hdestroyed : DestroyedContracts env s ctx.store := by
      intro a ha hsequence
      rcases hcondition a ha with ⟨-, hcode⟩ | hgone
      · exact hcode
      · exact absurd hgone.sequence hsequence
    obtain ⟨st', hst'⟩ := hr.commitWithCtx_run hnonneg hbank hdestroyed
    have hdone := hr.commitWithCtx_ok hst'
    rw [← runOps_writeCache hrun hr.sameCtx] at hst'
    rw [StateDB.commit, hst']
    refine ⟨rfl, fun a ha => ?_⟩
    rcases hr.accountState_suicided hdone ha with ⟨hsequence, hstate⟩ | ⟨-, -, hgone⟩
    · have hbefore := (hcondition a ha).resolve_left fun hboth => hboth.1 hsequence
      have hbalance := congrArg AccountState.balance hstate
      exact ⟨(congrArg AccountState.sequence hstate).trans hbefore.sequence,
        (congrArg AccountState.codeHash hstate).trans hbefore.codeHash,
        fun k => (congrFun (congrArg AccountState.storage hstate) k).trans (hbefore.storage k),
        (congrFun hbalance env.evmDenom).trans hbefore.balance⟩
    · exact hgone

/-- A store in which `0xC2` was sent five coins. -/
def Devnet.fundedStore : Store Unit :=
  { emptyStore () with
    sequence := fun a => if a = 0xC2 then some 0 else none
    balance := fun a d => if a = 0xC2 ∧ d = "utac" then 5 else 0
    supply := fun d => if d = "utac" then 5 else 0 }

/-- A contract is deployed there and destroys itself. -/
def Devnet.deployAndDestroy : List Op :=
  [.write (.createAccount 0xC2), .write (.setNonce 0xC2 1), .write (.setCode 0xC2 (some [1])),
    .write (.suicide 0xC2)]

theorem Devnet.bankWilling {d : Decimals} {ctx : Context Unit} {st : Store Unit} {s : StateDB Unit}
    (hs : Reached (Devnet.env d) ctx s) (a : Address)
    (haccounts : ∀ x ∈ s.journal.entries.map JournalEntry.account, x = some a)
    (hwilling : (Devnet.env d).blockedAddr a = false)
    (hother : ∀ b, b ≠ a → st.balance b "utac" = 0)
    (hcovered : st.balance a "utac" ≤ st.supply "utac") :
    BankWilling (Devnet.env d) st {a | a ∈ s.journal.dirties} := by
  refine ⟨fun b hb => ?_, fun _ => rfl, fun T => ?_⟩
  · obtain ⟨e, he, hdirtied⟩ := (hs.tracked.mem_dirties b).mp hb
    have hb := haccounts _ (List.mem_map_of_mem he)
    rw [JournalEntry.account_of_dirtied hdirtied] at hb
    rw [Option.some.inj hb]
    exact hwilling
  have hle : ∑ b ∈ T, st.balance b "utac" ≤ st.balance a "utac" := by
    by_cases ha : a ∈ T
    · rw [Finset.sum_eq_single_of_mem a ha fun b _ hb => hother b hb]
    · rw [Finset.sum_eq_zero fun b hb => hother b (ne_of_mem_of_not_mem hb ha)]
      exact Nat.zero_le _
  exact hle.trans hcovered

/-- An account without entries reads as it is loaded. -/
theorem Reached.read_untouched {ctx : Context Ω} {s : StateDB Ω} (hr : Reached env ctx s)
    {a : Address} (ha : some a ∉ s.journal.entries.map JournalEntry.account) :
    0 ≤ (s.getBalance env a).1 ∧ (s.hasSuicided env a).1 = false := by
  have hview : (s.observe env).objects a = loadedView env ctx.store a := by
    refine hr.untouched a fun e he hacc => ?_
    exact ha (List.mem_map.mpr ⟨e, he, hacc⟩)
  have hbalance : (s.getBalance env a).1 = ((s.observe env).objects a).elim 0 ObjectView.balance :=
    congrFun (congrArg Readings.balance (s.readings_eq env)) a
  have hsuicided : (s.hasSuicided env a).1 =
      ((s.observe env).objects a).elim false ObjectView.suicided :=
    congrFun (congrArg Readings.hasSuicided (s.readings_eq env)) a
  rw [hbalance, hsuicided, hview]
  unfold loadedView Store.getAccount
  cases ctx.store.sequence a with
  | none => exact ⟨le_rfl, rfl⟩
  | some seq => exact ⟨mul_nonneg (Int.natCast_nonneg _) (Int.natCast_nonneg _), rfl⟩

/-- `Commit` fails: the store has an account there, and no code. -/
theorem commit_fails_devnet :
    ∃ s, (StateDB.new (Devnet.ctx fundedStore) txConfig).runOps env18 deployAndDestroy = some s ∧
      (∀ a, 0 ≤ (s.getBalance env18 a).1) ∧
      BankWilling env18 fundedStore
        {a | a ∈ s.journal.dirties} ∧
      (s.commit env18).1 =
        some (.wrapped (.new "only smart contracts can be self-destructed")
          "failed to delete account %s" [.addr 0xC2]) := by
  obtain ⟨s, hrun, haccounts, hbalance, hcommit⟩ : ∃ s,
      (StateDB.new (Devnet.ctx fundedStore) txConfig).runOps env18 deployAndDestroy = some s ∧
      s.journal.entries.map JournalEntry.account = [some 0xC2, some 0xC2, some 0xC2, some 0xC2] ∧
      (s.getBalance env18 0xC2).1 = 0 ∧
      (s.commit env18).1 =
        some (.wrapped (.new "only smart contracts can be self-destructed")
          "failed to delete account %s" [.addr 0xC2]) :=
    ⟨_, rfl, by decide, by decide, by decide⟩
  refine ⟨s, hrun, fun a => ?_, ?_, hcommit⟩
  · by_cases ha : a = 0xC2
    · rw [ha, hbalance]
    · refine ((run_reached hrun).read_untouched fun hmem => ha ?_).1
      rw [haccounts] at hmem
      simpa using hmem
  · refine bankWilling (run_reached hrun) 0xC2 (by simp [haccounts]) (by decide) (fun b hb => ?_)
      (by decide)
    exact if_neg fun hboth => hb hboth.1

/-- A contract that the store knows is destroyed and removed. -/
theorem commit_total_iff_devnet :
    ∃ s, (StateDB.new (Devnet.ctx Devnet.contractStore) txConfig).runOps
        env18 [.write (.suicide 0xC0)] = some s ∧
      (s.commit env18).1 = none ∧
      (s.commit env18).2.store.Removed env18 0xC0 := by
  obtain ⟨s, hrun, haccounts, hbalance, hsuicided⟩ : ∃ s,
      (StateDB.new (Devnet.ctx Devnet.contractStore) txConfig).runOps
        env18 [.write (.suicide 0xC0)] = some s ∧
      s.journal.entries.map JournalEntry.account = [some 0xC0] ∧
      (s.getBalance env18 0xC0).1 = 0 ∧
      (s.hasSuicided env18 0xC0).1 = true :=
    ⟨_, rfl, by decide, by decide, by decide⟩
  have hother : ∀ a, a ≠ 0xC0 → 0 ≤ (s.getBalance env18 a).1 ∧
      (s.hasSuicided env18 a).1 = false := by
    intro a ha
    refine (run_reached hrun).read_untouched fun hmem => ha ?_
    rw [haccounts] at hmem
    simpa using hmem
  have hnonneg : ∀ a, 0 ≤ (s.getBalance env18 a).1 := by
    intro a
    by_cases ha : a = 0xC0
    · rw [ha, hbalance]
    · exact (hother a ha).1
  have hbank : BankWilling env18 Devnet.contractStore
      {a | a ∈ s.journal.dirties} := by
    refine bankWilling (run_reached hrun) 0xC0 (by simp [haccounts]) (by decide) (fun b hb => ?_)
      (by decide)
    exact if_neg fun hboth => hb hboth.1
  have hall := (commit_total_iff hrun hnonneg hbank).mpr fun a hdestroyed => by
    have ha : a = 0xC0 := by
      by_contra hne
      rw [(hother a hne).2] at hdestroyed
      cases hdestroyed
    subst ha
    exact .inl ⟨by decide, by decide⟩
  exact ⟨s, hrun, hall.1, hall.2 0xC0 hsuicided⟩

end TacEvm
