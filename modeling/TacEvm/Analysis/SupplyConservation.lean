import TacEvm.Analysis.Coherence
import TacEvm.Analysis.Units

/-!
# The supply of the EVM coin

`Commit` sets the bank balance of every dirty account to that of the `StateDB`, and mints or burns
the difference. So the supply is conserved exactly if what the precompiles move without registering
it comes to nothing for every dirty account (`supplyConserved_iff`).
-/

namespace TacEvm

open FallibleState KeeperM StateDB Devnet

variable {Ω : Type} {env : Env}

/-! ## Commits and the supply -/

variable (env) in
/-- By how much the supply exceeds the sum of all balances. -/
def Store.discrepancy (st : Store Ω) : ℤ :=
  st.supply env.evmDenom - ∑ a, (st.balance a env.evmDenom : ℤ)

variable {st st' : Store Ω}

theorem Conserves.discrepancy (h : Conserves env st st') :
    st'.discrepancy env = st.discrepancy env := by
  unfold Store.discrepancy
  rw [h.supply, h.total]

variable {objs : Address → Option StateObject} {done : List Address}

theorem CommittedSoFar.balance_sub (h : CommittedSoFar env objs st done st') (hnodup : done.Nodup)
    (a : Address) :
    (st'.balance a env.evmDenom : ℤ) - st.balance a env.evmDenom =
      if a ∈ done then commitDelta env objs st a else 0 := by
  have hstored : st'.balance a = ((commitAll env objs done st).accountState a).balance := by
    rw [h.store]
    rfl
  rw [hstored, accountState_commitAll hnodup]
  unfold commitDelta
  split
  · cases objs a with
    | none => exact sub_self _
    | some o => rfl
  · exact sub_self _

theorem CommittedSoFar.discrepancy (h : CommittedSoFar env objs st done st') (hnodup : done.Nodup) :
    st'.discrepancy env = st.discrepancy env := by
  have hsum : ∑ a, ((st'.balance a env.evmDenom : ℤ) - st.balance a env.evmDenom) =
      (st'.supply env.evmDenom : ℤ) - st.supply env.evmDenom := by
    rw [h.supply, ← List.sum_toFinset _ hnodup]
    simp only [h.balance_sub hnodup, ← List.mem_toFinset]
    rw [Finset.sum_ite_mem, Finset.univ_inter]
  rw [Finset.sum_sub_distrib] at hsum
  unfold Store.discrepancy
  omega

section Commit

variable {ctx : Context Ω} {tx : TxConfig} {s : StateDB Ω} {st st' : Store Ω}

theorem commit_discrepancy (hs : Moves env (new ctx tx) s)
    (h : (s.commitWithCtx env).run st = .ok () st') :
    st'.discrepancy env = st.discrepancy env :=
  (hs.reached.commitWithCtx_ok h).discrepancy (nodup_sortedDirties s.journal)

end Commit

/-! ## Transactions that move the coin -/

/-- A call of one of the two precompiles. -/
inductive MoneyCall
  | staking (call : Staking.Call)
  | distribution (call : Distribution.Call)

namespace MoneyCall

variable (env) (cosmos : Cosmos Ω)

/-- What the call computes. -/
def run (staking : Abi Ω Staking.Call.name) (distribution : Abi Ω Distribution.Call.name) :
    MoneyCall → Frame → KeeperM Ω BalanceChanges
  | .staking call => Staking.handleMethod env cosmos staking call
  | .distribution call => Distribution.handleMethod env cosmos distribution call

/-- What a contract delegates or gives to the community pool. -/
def given (st : Store Ω) (a : Address) : MoneyCall → ℤ
  | .staking (.delegate delegator _ amount) =>
    if (cosmos.bondDenom st).toOption = some env.evmDenom ∧ a = delegator then amount else 0
  | .distribution (.fundCommunityPool depositor amount) => if a = depositor then amount else 0
  | _ => 0

/-- To whom a withdrawal is paid. -/
def withdrawer (st : Store Ω) : MoneyCall → Option Address
  | .distribution (.claimRewards delegator _) =>
    (cosmos.getDelegatorWithdrawAddr delegator st).toOption
  | .distribution (.withdrawDelegatorRewards delegator _) =>
    (cosmos.getDelegatorWithdrawAddr delegator st).toOption
  | .distribution (.withdrawValidatorCommission validator) =>
    (cosmos.hexAddressFromBech32 validator).toOption.bind fun addr =>
      (cosmos.getDelegatorWithdrawAddr addr st).toOption
  | _ => none

/-- What a call moves without registering it: everything, if the origin calls itself; nothing for
whom a contract withdraws; else what is moved besides the coins given. -/
def unregistered (call : MoneyCall) (c : Frame) (st st' : Store Ω) (a : Address) : ℤ :=
  let moved : ℤ := st'.balance a env.evmDenom - st.balance a env.evmDenom
  if c.caller = c.origin then moved
  else if call.withdrawer cosmos st = some a then 0
  else moved + call.given env cosmos st a

end MoneyCall

/-- What a transaction moved for each account: sent, moved by handlers, and not registered. -/
structure Totals where
  sent : Address → ℤ
  moved : Address → ℤ
  unregistered : Address → ℤ

/-- At the start of a transaction nothing was moved. -/
def Totals.zero : Totals where
  sent := fun _ => 0
  moved := fun _ => 0
  unregistered := fun _ => 0

variable (env) in
/-- The totals after a value is sent. -/
def Totals.pay (t : Totals) (sender recipient : Address) (amount : ℤ) : Totals :=
  { t with sent := fun a => t.sent a + valueSent env sender recipient amount a }

variable (env) in
/-- The totals after a call of a precompile. -/
def Totals.call (cosmos : Cosmos Ω) (t : Totals) (s : StateDB Ω) (c : PrecompileCall Ω)
    (call : MoneyCall) : Totals where
  sent := fun a => t.sent a + c.valueMoved env a
  moved := fun a => t.moved a + (((c.effect (s.flushedStore env c)).balance a env.evmDenom : ℤ) -
    (s.flushedStore env c).balance a env.evmDenom)
  unregistered := fun a => t.unregistered a + call.unregistered env cosmos c.frame
    (s.flushedStore env c) (c.effect (s.flushedStore env c)) a

variable (env) in
/-- A transaction of values sent and of calls, with what it moved. -/
inductive MoneyRun (cosmos : Cosmos Ω) (staking : Abi Ω Staking.Call.name)
    (distribution : Abi Ω Distribution.Call.name) (ctx : Context Ω) (tx : TxConfig) :
    Totals → StateDB Ω → Prop
  | start : MoneyRun cosmos staking distribution ctx tx .zero (new ctx tx)
  | pay {t : Totals} {s s' : StateDB Ω} {sender recipient : Address} {amount : ℤ}
      (h : MoneyRun cosmos staking distribution ctx tx t s) (hpos : 0 < amount)
      (hpay : s.payValue env sender recipient amount = some s') :
      MoneyRun cosmos staking distribution ctx tx (t.pay env sender recipient amount) s'
  | call {t : Totals} {s s' : StateDB Ω} {c : PrecompileCall Ω} (call : MoneyCall)
      (h : MoneyRun cosmos staking distribution ctx tx t s)
      (hprecompile : c.precompile = Staking.precompile env cosmos staking ∨
        c.precompile = Distribution.precompile env cosmos distribution)
      (hmethod : ∃ emitted, c.precompile.prepare c.frame =
        .ok (Handler.of emitted (call.run env cosmos staking distribution)))
      (hcall : s.callPrecompile env c = some (none, s')) :
      MoneyRun cosmos staking distribution ctx tx (t.call env cosmos s c call) s'

variable (env) in
/-- The supply is what it was, and so are balances with what was moved. -/
structure SupplyConserved (t : Totals) (st st' : Store Ω) : Prop where
  supply : st'.supply env.evmDenom = st.supply env.evmDenom
  balance : ∀ a, (st'.balance a env.evmDenom : ℤ) * env.conversionFactor =
    st.balance a env.evmDenom * env.conversionFactor + t.sent a + t.moved a * env.conversionFactor

variable (env) in
/-- For dirty accounts what is moved unregistered comes to nothing. -/
def Totals.AllRegistered (t : Totals) (st : Store Ω) (s : StateDB Ω) : Prop :=
  ∀ a ∈ s.journal.dirties,
    t.unregistered a + (if st.sequence a = none then (st.balance a env.evmDenom : ℤ) else 0) = 0

section Registered

variable {cosmos : Cosmos Ω} {st st₁ st' : Store Ω} {entries : BalanceChanges} {c : Frame}

theorem netChange_single (account : Address) (amount : ℤ) (op : Operation) (a : Address) :
    netChange env.adjustExtraDecimals [⟨account, env.convertAmountTo18Decimals amount, op⟩] a =
      (if a = account then (if op = .sub then -amount else amount) else 0) *
        env.conversionFactor := by
  have hadjust : env.adjustExtraDecimals (env.convertAmountTo18Decimals amount) =
      amount * env.conversionFactor := env.adjustExtraDecimals_of_dvd (dvd_mul_left _ _)
  simp only [netChange_cons, netChange_nil, BalanceChangeEntry.net, hadjust]
  cases op <;> simp

theorem netChange_entryFor {amount : ℤ} (h : 0 ≤ amount) (account : Address) (op : Operation)
    (a : Address) :
    netChange env.adjustExtraDecimals (Distribution.entryFor env account amount op) a =
      (if a = account then (if op = .sub then -amount else amount) else 0) *
        env.conversionFactor := by
  unfold Distribution.entryFor
  dsimp only
  split
  · exact netChange_single account amount op a
  · rename_i hpos
    have hF := env.int_conversionFactor_pos
    have hzero : amount = 0 := by
      refine le_antisymm (not_lt.mp fun hlt => hpos ?_) h
      exact mul_pos hlt hF
    simp [hzero]

/-- A withdrawal registers what the withdraw address is paid. -/
theorem Withdrawn.netChange_eq {distribution addr : Address} {coins : Coins}
    (h : Withdrawn cosmos distribution addr st coins st₁) (hne : c.caller ≠ c.origin)
    (hrun : (Distribution.withdrawnEntries env cosmos addr coins c).run st₁ = .ok entries st')
    (a : Address) : netChange env.adjustExtraDecimals entries a =
      if (cosmos.getDelegatorWithdrawAddr addr st).toOption = some a then
        ((st'.balance a env.evmDenom : ℤ) - st.balance a env.evmDenom) * env.conversionFactor
      else 0 := by
  unfold Distribution.withdrawnEntries at hrun
  rw [if_neg hne] at hrun
  obtain ⟨w, hw, hentries⟩ := read_bind_ok.mp hrun
  cases hentries
  have hbefore := h.withdrawAddr.symm.trans hw
  obtain ⟨hpaid, hother⟩ := h.paid w hbefore
  have hmoved : (st₁.balance w env.evmDenom : ℤ) - st.balance w env.evmDenom =
      coins.amountOf env.evmDenom := by
    have hw' := hpaid w env.evmDenom
    simp only [Store.ledger, Ledger.net_cons, Ledger.net_nil, Ledger.Payment.net, if_true] at hw'
    by_cases hzero : coins.amountOf env.evmDenom = 0
    · simp only [hzero, ite_self] at hw'
      omega
    · rw [if_neg (hother ⟨_, hzero⟩)] at hw'
      omega
  rw [netChange_entryFor (h.nonneg _), hbefore]
  by_cases ha : a = w
  · subst ha
    simp [hmoved, Except.toOption]
  · simp [ha, Ne.symm ha, Except.toOption]

variable {staking : Abi Ω Staking.Call.name} {distribution : Abi Ω Distribution.Call.name}
  {call : MoneyCall}

/-- Staking calls register what a contract delegates. -/
theorem Staking.netChange_eq {call : Staking.Call}
    (h : (Staking.handleMethod env cosmos staking call c).run st = .ok entries st') (a : Address) :
    netChange env.adjustExtraDecimals entries a =
      -(if c.caller = c.origin then 0 else (MoneyCall.staking call).given env cosmos st a) *
        env.conversionFactor := by
  have hnil (hyields : Yields (· = []) (Staking.handleMethod env cosmos staking call c))
      (hgiven : (MoneyCall.staking call).given env cosmos st a = 0) :
      netChange env.adjustExtraDecimals entries a =
        -(if c.caller = c.origin then 0 else (MoneyCall.staking call).given env cosmos st a) *
          env.conversionFactor := by
    rw [hyields _ _ _ h, hgiven]
    simp
  cases call with
  | delegate delegator validator amount =>
    obtain ⟨bondDenom, hbond, h₁⟩ := read_bind_ok.mp h
    obtain ⟨_, st₁, -, h₂⟩ := bind_ok.mp h₁
    unfold MoneyCall.given
    rw [hbond]
    split at h₂
    · rename_i hregisters
      cases h₂
      rw [netChange_single, if_neg hregisters.1]
      simp only [if_true, hregisters.2, Except.toOption, true_and]
      split <;> simp
    · rename_i hregisters
      cases h₂
      by_cases horigin : c.caller = c.origin
      · simp [horigin]
      · have hdenom : bondDenom ≠ env.evmDenom := fun hdenom => hregisters ⟨horigin, hdenom⟩
        simp [Except.toOption, hdenom]
  | approve => exact hnil (.bind fun _ => .bind fun _ => .bind fun _ => .pure rfl) rfl
  | revoke => exact hnil (.bind fun _ => .bind fun _ => .pure rfl) rfl
  | increaseAllowance => exact hnil (.bind fun _ => .bind fun _ => .bind fun _ => .pure rfl) rfl
  | decreaseAllowance => exact hnil (.bind fun _ => .bind fun _ => .bind fun _ => .pure rfl) rfl
  | createValidator =>
    exact hnil (.bind fun _ => .bind fun _ => .bind fun _ => .bind fun _ => .bind fun _ =>
      .pure rfl) rfl
  | editValidator =>
    exact hnil (.bind fun _ => .bind fun _ => .bind fun _ => .bind fun _ => .pure rfl) rfl
  | query name => exact hnil (.bind fun _ => .pure rfl) rfl
  | _ => exact hnil (.bind fun _ => .bind fun _ => .pure rfl) rfl

/-- Distribution calls register withdrawals and gifts of contracts. -/
theorem Distribution.netChange_eq (fx : BankEffects env cosmos) {call : Distribution.Call}
    (h : (Distribution.handleMethod env cosmos distribution call c).run st = .ok entries st')
    (a : Address) : netChange env.adjustExtraDecimals entries a =
      (if c.caller = c.origin then 0
      else if (MoneyCall.distribution call).withdrawer cosmos st = some a then
        (st'.balance a env.evmDenom : ℤ) - st.balance a env.evmDenom
      else -(MoneyCall.distribution call).given env cosmos st a) * env.conversionFactor := by
  have hwithdrawn {addr : Address} {coins : Coins} {st₁ : Store Ω}
      (hgiven : (MoneyCall.distribution call).given env cosmos st a = 0)
      (haddr : (MoneyCall.distribution call).withdrawer cosmos st =
        (cosmos.getDelegatorWithdrawAddr addr st).toOption)
      (hpaid : Withdrawn cosmos fx.distribution addr st coins st₁)
      (hentries : (withdrawnEntries env cosmos addr coins c).run st₁ = .ok entries st') :
      netChange env.adjustExtraDecimals entries a =
        (if c.caller = c.origin then 0
        else if (MoneyCall.distribution call).withdrawer cosmos st = some a then
          (st'.balance a env.evmDenom : ℤ) - st.balance a env.evmDenom
        else -(MoneyCall.distribution call).given env cosmos st a) * env.conversionFactor := by
    by_cases horigin : c.caller = c.origin
    · unfold withdrawnEntries at hentries
      rw [if_pos horigin] at hentries
      cases hentries
      simp [horigin]
    · rw [hpaid.netChange_eq horigin hentries, if_neg horigin, haddr, hgiven]
      split <;> simp
  cases call with
  | claimRewards delegator maxRetrieve =>
    obtain ⟨-, h₁⟩ := ensure_bind_ok.mp h
    obtain ⟨maxVals, -, h₂⟩ := read_bind_ok.mp h₁
    obtain ⟨-, h₃⟩ := ensure_bind_ok.mp h₂
    obtain ⟨-, h₄⟩ := ensure_bind_ok.mp h₃
    obtain ⟨validators, -, h₅⟩ := read_bind_ok.mp h₄
    obtain ⟨coins, st₁, hall, hentries⟩ := bind_ok.mp h₅
    exact hwithdrawn rfl rfl (withdrawAll_withdrawn fx hall) hentries
  | withdrawDelegatorRewards delegator validator =>
    obtain ⟨-, h₁⟩ := ensure_bind_ok.mp h
    obtain ⟨-, h₂⟩ := ensure_bind_ok.mp h₁
    obtain ⟨coins, st₁, hpaid, hentries⟩ := bind_ok.mp h₂
    exact hwithdrawn rfl rfl (fx.rewards _ _ _ _ _ hpaid) hentries
  | withdrawValidatorCommission validator =>
    obtain ⟨addr, haddr, h₁⟩ := check_bind_ok.mp h
    obtain ⟨-, h₂⟩ := ensure_bind_ok.mp h₁
    obtain ⟨coins, st₁, hpaid, hentries⟩ := bind_ok.mp h₂
    refine hwithdrawn rfl ?_ (fx.commission _ _ _ _ _ haddr hpaid) hentries
    show (cosmos.hexAddressFromBech32 validator).toOption.bind _ = _
    rw [haddr]
    rfl
  | fundCommunityPool depositor amount =>
    obtain ⟨baseDenom, hbase, h₁⟩ := check_bind_ok.mp h
    obtain ⟨-, h₂⟩ := ensure_bind_ok.mp h₁
    obtain ⟨-, h₃⟩ := ensure_bind_ok.mp h₂
    obtain ⟨_, st₁, hfund, h₄⟩ := bind_ok.mp h₃
    obtain ⟨hpos, -⟩ := fx.fundCommunityPool depositor _ _ _ hfund
    split at h₄
    · rename_i horigin
      cases h₄
      simp [horigin]
    · rename_i horigin
      cases h₄
      have hamount : Coins.amountOf [{ denom := baseDenom, amount := amount }] baseDenom =
          amount := by simp [Coins.amountOf]
      rw [hamount, netChange_entryFor hpos.le, if_neg horigin]
      simp only [MoneyCall.withdrawer, MoneyCall.given, reduceCtorEq, if_false, if_true]
      split <;> simp
  | setWithdrawAddress delegator withdrawer =>
    have hyields : Yields (· = []) (setWithdrawAddress cosmos delegator withdrawer c) :=
      .bind fun _ => .bind fun _ => .bind fun _ => .pure rfl
    rw [hyields _ _ _ h]
    simp [MoneyCall.withdrawer, MoneyCall.given]
  | query name =>
    obtain ⟨_, -, h₁⟩ := read_bind_ok.mp h
    cases h₁
    simp [MoneyCall.withdrawer, MoneyCall.given]

/-- **What a call registers**: what it moves, but for the rest. -/
theorem MoneyCall.netChange_eq (fx : BankEffects env cosmos)
    (h : (call.run env cosmos staking distribution c).run st = .ok entries st') (a : Address) :
    netChange env.adjustExtraDecimals entries a =
      ((st'.balance a env.evmDenom : ℤ) - st.balance a env.evmDenom -
        call.unregistered env cosmos c st st' a) * env.conversionFactor := by
  unfold unregistered
  dsimp only
  cases call with
  | staking call =>
    have hnone : (MoneyCall.staking call).withdrawer cosmos st ≠ some a := nofun
    rw [Staking.netChange_eq h, if_neg hnone]
    split <;> ring
  | distribution call =>
    rw [Distribution.netChange_eq fx h]
    split
    · ring
    · split <;> ring

end Registered

/-! ## The books of a run -/

/-- What holds along such a transaction. -/
structure Accounted (env : Env) (ctx : Context Ω) (tx : TxConfig) (t : Totals) (s : StateDB Ω) :
    Prop where
  moves : Moves env (new ctx tx) s
  inPlace : s.journal.entries.all JournalEntry.inPlace = true
  balance : ∀ a, (s.getBalance env a).1 = ((new ctx tx).getBalance env a).1 + t.sent a +
    (t.moved a - t.unregistered a) * env.conversionFactor
  clean : ∀ a, a ∉ s.journal.dirties → t.sent a = 0 ∧
    (s.cacheStore.balance a env.evmDenom : ℤ) = ctx.store.balance a env.evmDenom + t.moved a
  discrepancy : s.cacheStore.discrepancy env = ctx.store.discrepancy env
  sent : ∑ a, t.sent a = 0
  moved : ∑ a, t.moved a = 0

section Steps

variable {ctx : Context Ω} {tx : TxConfig} {t : Totals} {s s' : StateDB Ω}

theorem sum_valueSent (sender recipient : Address) (amount : ℤ) :
    ∑ a, valueSent env sender recipient amount a = 0 := by
  have hsum := Ledger.sum_net
    [(⟨sender, recipient, fun _ => env.adjustExtraDecimals amount⟩ :
      Ledger.Payment Address Unit)] ()
  unfold valueSent
  simpa using hsum

theorem sum_valueMoved (c : PrecompileCall Ω) : ∑ a, c.valueMoved env a = 0 := by
  unfold PrecompileCall.valueMoved
  split
  · exact sum_valueSent _ _ _
  · exact Finset.sum_const_zero

theorem clean_getBalance (hs : Moves env (new ctx tx) s)
    (hplace : s.journal.entries.all JournalEntry.inPlace = true) {a : Address}
    (ha : a ∉ s.journal.dirties) :
    (s.getBalance env a).1 = ((new ctx tx).getBalance env a).1 := by
  have hread : ∀ s : StateDB Ω, (s.getBalance env a).1 =
      ((s.observe env).objects a).elim 0 ObjectView.balance := fun s =>
    congrFun (congrArg Readings.balance (s.readings_eq env)) a
  rw [hread, hread, loaded_of_not_dirty hplace hs ha, observe_new]

theorem accounted_new (ctx : Context Ω) (tx : TxConfig) :
    Accounted env ctx tx .zero (new ctx tx) where
  moves := .refl
  inPlace := rfl
  balance := fun a => by simp [Totals.zero]
  clean := fun a _ => ⟨rfl, (add_zero _).symm⟩
  discrepancy := rfl
  sent := Finset.sum_const_zero
  moved := Finset.sum_const_zero

/-- A payment is accounted, for both of its ends. -/
theorem Accounted.pay (h : Accounted env ctx tx t s) {sender recipient : Address} {amount : ℤ}
    (hpay : s.payValue env sender recipient amount = some s') :
    Accounted env ctx tx (t.pay env sender recipient amount) s' := by
  have hread : Steps env s (s.getBalance env sender).2 := Read.steps s (.balance sender)
  have hframe : FrameSteps env s (s.getBalance env sender).2 :=
    (s.readObject_value env sender _ _ fun _ => rfl).frame
  have hobj : (s.getBalance env sender).2.snapshot.2.object env = s.object env :=
    object_readObject s sender _ _ fun _ => rfl
  unfold payValue at hpay
  generalize (s.getBalance env sender) = r at hread hframe hobj hpay
  obtain ⟨balance, s₁⟩ := r
  dsimp only at hread hframe hobj hpay
  split at hpay
  · cases hpay
    have hsend := (s₁.snapshot.2.sendValue_value env sender recipient amount).steps
    have hsendFrame := (s₁.snapshot.2.sendValue_value env sender recipient amount).frame
    have hmoves := ((h.moves.trans hread.moves).tail .snapshot).trans hsend.moves
    obtain ⟨hplace₁, es₁, hentries₁⟩ := hframe.inPlace h.inPlace
    obtain ⟨hplace, es₂, hentries₂⟩ := hsendFrame.inPlace hplace₁
    have hentries : (s₁.snapshot.2.sendValue env sender recipient amount).journal.entries =
        s.journal.entries ++ (es₁ ++ es₂) := by
      rw [hentries₂, ← List.append_assoc, ← hentries₁]
      rfl
    have hcache := cacheStore_eq (hsend.sameControl.ctx.trans hread.sameControl.ctx)
        (hsend.sameControl.cacheCtx.trans hread.sameControl.cacheCtx)
    have hbalance : ∀ a,
        ((s₁.snapshot.2.sendValue env sender recipient amount).getBalance env a).1 =
          (s.getBalance env a).1 + valueSent env sender recipient amount a := by
      intro a
      rw [sendValue_getBalance, getBalance_congr hobj]
    refine ⟨hmoves, hplace, fun a => ?_, fun a ha => ?_, ?_, ?_, h.moved⟩
    · rw [hbalance, h.balance]
      dsimp only [Totals.pay]
      omega
    · have hbefore := clean_before h.moves hmoves hentries ha
      obtain ⟨hsent, hmoved⟩ := h.clean a hbefore
      have hzero : valueSent env sender recipient amount a = 0 := by
        have hloaded := hbalance a
        rw [clean_getBalance hmoves hplace ha,
          clean_getBalance h.moves h.inPlace hbefore] at hloaded
        omega
      refine ⟨?_, ?_⟩
      · dsimp only [Totals.pay]
        omega
      · rw [hcache]
        exact hmoved
    · rw [hcache]
      exact h.discrepancy
    · dsimp only [Totals.pay]
      rw [Finset.sum_add_distrib, h.sent, sum_valueSent, add_zero]
  · cases hpay

/-- A call is accounted: its effect and what it registers. -/
theorem Accounted.call (h : Accounted env ctx tx t s) {c : PrecompileCall Ω}
    (hcall : s.callPrecompile env c = some (none, s'))
    (hconserves : Conserves env (s.flushedStore env c) (c.effect (s.flushedStore env c)))
    {cosmos : Cosmos Ω} (fx : BankEffects env cosmos) {staking : Abi Ω Staking.Call.name}
    {distribution : Abi Ω Distribution.Call.name} {call : MoneyCall}
    (hmethod : (call.run env cosmos staking distribution c.frame).run (s.flushedStore env c) =
      .ok (c.entries (s.flushedStore env c)) (c.effect (s.flushedStore env c))) :
    Accounted env ctx tx (t.call env cosmos s c call) s' := by
  have hspec := callPrecompile_spec hcall
  have hmoves := h.moves.trans (callPrecompile_moves hcall)
  have hentered := h.moves.entered c
  obtain ⟨hplace₁, es₁, hentries₁⟩ := @StateDB.entered_inPlace Ω env s h.inPlace c
  obtain ⟨s₁, hframe, hs'⟩ := hspec.frame
  obtain ⟨hplace₂, es₂, hentries₂⟩ := hframe.inPlace hplace₁
  have hlast : s'.journal.entries = s₁.journal.entries ++
      [.precompileCallChange (s.entered env c).cacheStore
        (s.entered env c).cacheContext.events] := by
    rw [hs']
    rfl
  have hplace : s'.journal.entries.all JournalEntry.inPlace = true := by
    rw [hlast]
    simp [hplace₂, JournalEntry.inPlace]
  have hcache : (s.entered env c).cacheStore = s.cacheStore :=
    congrArg CacheContext.store (entered_cacheContext env s c)
  have hflush := hspec.flush
  rw [hcache] at hflush
  refine ⟨hmoves, hplace, fun a => ?_, fun a ha => ?_, ?_, ?_, ?_⟩
  · rw [hspec.balance, h.balance, MoneyCall.netChange_eq fx hmethod]
    dsimp only [Totals.call]
    ring
  · have hbefore₁ : a ∉ (s.entered env c).journal.dirties := by
      rw [hentries₂, List.append_assoc] at hlast
      exact clean_before hentered hmoves hlast ha
    have hbefore := clean_before h.moves hentered hentries₁ hbefore₁
    obtain ⟨hsent, hmoved⟩ := h.clean a hbefore
    have hzero : c.valueMoved env a = 0 := by
      have hloaded := @StateDB.entered_getBalance Ω env s c a
      rw [clean_getBalance hentered hplace₁ hbefore₁,
        clean_getBalance h.moves h.inPlace hbefore] at hloaded
      omega
    have hkept := commit_clean hentered hflush hbefore₁
    refine ⟨?_, ?_⟩
    · dsimp only [Totals.call]
      omega
    · dsimp only [Totals.call]
      rw [hspec.cacheStore, hkept]
      omega
  · rw [hspec.cacheStore, hconserves.discrepancy, commit_discrepancy hentered hflush]
    exact h.discrepancy
  · dsimp only [Totals.call]
    rw [Finset.sum_add_distrib, h.sent, sum_valueMoved, add_zero]
  · dsimp only [Totals.call]
    rw [Finset.sum_add_distrib, h.moved, Finset.sum_sub_distrib, hconserves.total, sub_self,
      add_zero]

end Steps

section Run

variable {cosmos : Cosmos Ω} {staking : Abi Ω Staking.Call.name}
  {distribution : Abi Ω Distribution.Call.name} {ctx ctx' : Context Ω} {tx : TxConfig} {t : Totals}
  {s s' : StateDB Ω}

theorem Succeeded.conserves (hcosmos : cosmos.Conserving env) {c : PrecompileCall Ω}
    (hprecompile : c.precompile = Staking.precompile env cosmos staking ∨
      c.precompile = Distribution.precompile env cosmos distribution)
    (h : Succeeded env s c s') :
    Conserves env (s.flushedStore env c) (c.effect (s.flushedStore env c)) := by
  rw [← h.cacheStore]
  rcases hprecompile with hp | hp
  · obtain ⟨call, hrun⟩ := h.method (congrArg Precompile.unpack hp)
    exact Staking.handleMethod_conserves hcosmos staking call c.frame _ _ _ hrun
  · obtain ⟨call, hrun⟩ := h.method (congrArg Precompile.unpack hp)
    exact Distribution.handleMethod_conserves hcosmos distribution call c.frame _ _ _ hrun

theorem MoneyRun.accounted (hcosmos : cosmos.Conserving env) (fx : BankEffects env cosmos)
    (h : MoneyRun env cosmos staking distribution ctx tx t s) : Accounted env ctx tx t s := by
  induction h with
  | start => exact accounted_new ctx tx
  | pay _ _ hpay ih => exact ih.pay hpay
  | call call _ hprecompile hmethod hcall ih =>
    obtain ⟨emitted, hprepare⟩ := hmethod
    have hspec := callPrecompile_spec hcall
    have hmethod := hspec.run_of_prepare hprepare
    rw [hspec.cacheStore] at hmethod
    exact ih.call hcall (hspec.conserves hcosmos hprecompile) fx hmethod

/-- The balance is what was moved just if all is registered. -/
theorem Accounted.balance_iff (h : Accounted env ctx tx t s)
    (hcommit : (s.commitWithCtx env).run s.cacheStore = .ok () ctx'.store) (a : Address) :
    ((ctx'.store.balance a env.evmDenom : ℤ) * env.conversionFactor =
        ctx.store.balance a env.evmDenom * env.conversionFactor + t.sent a +
          t.moved a * env.conversionFactor) ↔
      (a ∈ s.journal.dirties → t.unregistered a +
        (if ctx.store.sequence a = none then (ctx.store.balance a env.evmDenom : ℤ) else 0) =
          0) := by
  by_cases ha : a ∈ s.journal.dirties
  · obtain ⟨o, ho⟩ := h.moves.reached.tracked.live_of_dirty ha
    have halive : (s.hasSuicided env a).1 = false := by
      rw [hasSuicided_of_live ho]
      exact not_suicided h.inPlace h.moves ho
    have hF := env.conversionFactor_ne_zero
    rw [commit_dirty h.moves hcommit ha halive, h.balance, new_getBalance]
    simp only [ha, true_implies]
    have hcancel (x : ℤ) : x = 0 ↔ x * env.conversionFactor = 0 := (mul_eq_zero_iff_right hF).symm
    rw [hcancel (t.unregistered a + _)]
    simp only [add_mul, sub_mul, ite_mul, zero_mul]
    split <;> omega
  · obtain ⟨hsent, hmoved⟩ := h.clean a ha
    rw [commit_clean h.moves hcommit ha, hmoved, hsent]
    simp only [ha, false_implies, add_mul, add_zero]

/-- The supply follows the accounted balances. -/
theorem Accounted.supply (h : Accounted env ctx tx t s)
    (hcommit : (s.commitWithCtx env).run s.cacheStore = .ok () ctx'.store)
    (hbalance : ∀ a, (ctx'.store.balance a env.evmDenom : ℤ) * env.conversionFactor =
      ctx.store.balance a env.evmDenom * env.conversionFactor + t.sent a +
        t.moved a * env.conversionFactor) :
    ctx'.store.supply env.evmDenom = ctx.store.supply env.evmDenom := by
  have hF := env.conversionFactor_ne_zero
  have hsum : (∑ a, (ctx'.store.balance a env.evmDenom : ℤ)) * env.conversionFactor =
      (∑ a, (ctx.store.balance a env.evmDenom : ℤ)) * env.conversionFactor := by
    rw [Finset.sum_mul, Finset.sum_congr rfl fun a _ => hbalance a, Finset.sum_add_distrib,
      Finset.sum_add_distrib, h.sent, ← Finset.sum_mul, ← Finset.sum_mul, h.moved, zero_mul,
      add_zero, add_zero]
  have hdiscrepancy := (commit_discrepancy h.moves hcommit).trans h.discrepancy
  unfold Store.discrepancy at hdiscrepancy
  have htotal := mul_right_cancel₀ hF hsum
  omega

/-- **Conservation of the supply.** `Commit` leaves the supply, and every account with what was
moved for it, exactly if what is moved without being registered comes to nothing for the dirty
accounts. -/
theorem supplyConserved_iff (hcosmos : cosmos.Conserving env) (fx : BankEffects env cosmos)
    (hrun : MoneyRun env cosmos staking distribution ctx tx t s)
    (hcommit : s.commit env = (none, ctx')) :
    SupplyConserved env t ctx.store ctx'.store ↔ t.AllRegistered env ctx.store s := by
  have haccounted := hrun.accounted hcosmos fx
  have hstore := StateDB.commit_ok hcommit
  rw [StateDB.writeCache_store] at hstore
  constructor
  · intro h a
    exact (haccounted.balance_iff hstore a).mp (h.balance a)
  · intro h
    have hbalance := fun a => (haccounted.balance_iff hstore a).mpr (h a)
    exact ⟨haccounted.supply hstore hbalance, hbalance⟩

end Run

namespace Devnet

/-- A contract takes a grant of the origin, and delegates five coins. -/
def stakingCalls : List Staking.Call :=
  [.approve 0xC1 7 ["/cosmos.staking.v1beta1.MsgDelegate"], .delegate 0xA1 "val" 5]

section

variable (cosmos : Cosmos Delegations) (store : Store Delegations)

def stakingCall (place : UInt8) : PrecompileCall Delegations where
  kind := .call
  precompile := Staking.precompile env18 cosmos (abi Staking.Call.name stakingCalls)
  frame := { Devnet.frame 0xC1 (calldata place) with origin := 0xA1 }

/-- A transaction of such calls. -/
abbrev StakingRun : Totals → StateDB Delegations → Prop :=
  MoneyRun env18 cosmos (abi Staking.Call.name stakingCalls)
    (abi Distribution.Call.name []) (Devnet.ctx store) txConfig

end

variable {cosmos : Cosmos Delegations} {store : Store Delegations}

theorem StakingRun.calls {t : Totals} {s s₁ s₂ : StateDB Delegations}
    (h : StakingRun cosmos store t s)
    (h₁ : s.callPrecompile env18 (stakingCall cosmos 0) = some (none, s₁))
    (h₂ : s₁.callPrecompile env18 (stakingCall cosmos 1) =
      some (none, s₂)) : ∃ t', StakingRun cosmos store t' s₂ :=
  ⟨_, .call (.staking (.delegate 0xA1 "val" 5))
    (.call (.staking (.approve 0xC1 7 ["/cosmos.staking.v1beta1.MsgDelegate"])) h (.inl rfl)
      ⟨_, rfl⟩ h₁) (.inl rfl) ⟨_, rfl⟩ h₂⟩

/-- The small chain, with rewards of two coins. -/
def rewardingCosmos (env : Env) : Cosmos Delegations :=
  { Devnet.cosmos env with
    stakingMsg := fun msg => do
      Bank.sendCoins env 0xD0 msg.delegatorAddress "utac" 2
      stakingMsg env msg }

theorem rewardingCosmos_conserving (env : Env) : (rewardingCosmos env).Conserving env :=
  { cosmos_conserving env with
    stakingMsg := fun msg =>
      (Bank.sendCoins_conserves _ _ _ _).bind fun _ => (cosmos_conserving env).stakingMsg msg }

/-- `0xA1` has ten coins, and two are there for rewards. -/
def rewardStore : Store Delegations :=
  { stakingStore with
    balance := fun a d => if a = 0xD0 ∧ d = "utac" then 2 else stakingStore.balance a d
    supply := fun d => if d = "utac" then 12 else 0 }

end Devnet

/-- A contract delegates for the origin, with a grant. -/
theorem supplyConserved_devnet :
    ∃ t s ctx', StakingRun (Devnet.cosmos env18) stakingStore t s ∧
      s.commit env18 = (none, ctx') ∧
      (SupplyConserved env18 t stakingStore ctx'.store ↔ t.AllRegistered env18 stakingStore s) := by
  have hcalls : callsLeave env18
      [stakingCall (Devnet.cosmos env18) 0, stakingCall (Devnet.cosmos env18) 1]
      (fun s => (s.commit env18).1.isNone)
      (StateDB.new (Devnet.ctx stakingStore) txConfig) = true := by
    decide +kernel
  obtain ⟨s₁, hcall₁, hrest⟩ := exists_of_callsLeave hcalls
  obtain ⟨s₂, hcall₂, hok⟩ := exists_of_callsLeave hrest
  obtain ⟨t, hrun⟩ := StakingRun.calls .start hcall₁ hcall₂
  have hcommitted : s₂.commit env18 = (none, _) :=
    Prod.ext (Option.isNone_iff_eq_none.mp hok) rfl
  exact ⟨t, s₂, _, hrun, hcommitted,
    supplyConserved_iff (cosmos_conserving _) (bankEffects _) hrun hcommitted⟩

/-- **Rewards that are burnt**: nobody registers the two coins. -/
theorem rewards_burnt :
    (rewardingCosmos env18).Conserving env18 ∧
    ∃ t s ctx', StakingRun (rewardingCosmos env18) rewardStore t s ∧
      s.commit env18 = (none, ctx') ∧
      rewardStore.supply "utac" = 12 ∧ ctx'.store.supply "utac" = 10 ∧
      ¬ SupplyConserved env18 t rewardStore ctx'.store := by
  refine ⟨rewardingCosmos_conserving _, ?_⟩
  obtain ⟨s, hpay, hcalls⟩ : ∃ s, (StateDB.new (Devnet.ctx rewardStore) txConfig).payValue
      env18 0xA1 0xC1 1 = some s ∧
      callsLeave env18
        [stakingCall (rewardingCosmos env18) 0, stakingCall (rewardingCosmos env18) 1]
        (fun s => (s.commit env18).1.isNone &&
          (s.commit env18).2.store.supply "utac" == 10) s = true :=
    exists_of_any (by decide +kernel)
  obtain ⟨s₁, hcall₁, hrest⟩ := exists_of_callsLeave hcalls
  obtain ⟨s₂, hcall₂, hleft⟩ := exists_of_callsLeave hrest
  obtain ⟨hok, hsupply⟩ := Bool.and_eq_true_iff.mp hleft
  obtain ⟨t, hrun⟩ := StakingRun.calls (.pay .start one_pos hpay) hcall₁ hcall₂
  have hcommitted : s₂.commit env18 = (none, _) :=
    Prod.ext (Option.isNone_iff_eq_none.mp hok) rfl
  refine ⟨t, s₂, _, hrun, hcommitted, rfl, beq_iff_eq.mp hsupply, fun h => ?_⟩
  exact absurd (h.supply.symm.trans (beq_iff_eq.mp hsupply)) (by decide)

end TacEvm
