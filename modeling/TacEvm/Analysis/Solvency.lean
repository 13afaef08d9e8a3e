import TacEvm.Analysis.FeeConservation
import TacEvm.Analysis.Readings
import TacEvm.Model.DevnetApp

/-!
# A sender can pay

The ante handler compares the balance with gas limit times fee cap and the value. What it deducts is
at most that without the value, so the value is left.
-/

namespace TacEvm

open FallibleState Devnet

variable {Ω : Type} {chain : Chain} {mode : Mode} {tx : CosmosTx} {s s' : ChainState Ω}

/-- **The effective price is at most the fee cap.** -/
theorem TxData.effectiveGasPrice_le {txData : TxData} {baseFee : Option ℤ} {price : ℤ}
    (h : txData.effectiveGasPrice baseFee = .ok price) :
    ∃ feeCap, txData.getGasFeeCap = some feeCap ∧ price ≤ feeCap := by
  cases txData with
  | dynamicFee tx =>
    obtain ⟨feeCap, hcap, h₁⟩ := except_bind_ok.mp h
    obtain ⟨tipCap, -, h₂⟩ := except_bind_ok.mp h₁
    obtain ⟨base, -, h₃⟩ := except_bind_ok.mp h₂
    cases h₃
    exact ⟨feeCap, deref_ok.mp hcap, min_le_right _ _⟩
  | _ => exact ⟨price, deref_ok.mp h, le_refl _⟩

theorem TxData.cost_ok {txData : TxData} {cost : ℤ} (h : txData.cost = .ok cost) :
    ∃ feeCap, txData.getGasFeeCap = some feeCap ∧
      cost = feeCap * txData.getGas.toNat + txData.getValue.getD 0 := by
  obtain ⟨fee, hfee, rfl⟩ := except_map_ok.mp h
  obtain ⟨feeCap, hcap, rfl⟩ := except_map_ok.mp hfee
  exact ⟨feeCap, deref_ok.mp hcap, rfl⟩

/-! ## The balance that is checked -/

theorem Store.getBalance_eq (env : Env) (st : Store Ω) (a : Address) :
    st.getBalance env a = st.balance a env.evmDenom * env.conversionFactor := rfl

theorem checkSenderBalance_ok {balance : ℤ} {txData : TxData}
    (h : checkSenderBalance balance txData = .ok ()) :
    ∃ cost, txData.cost = .ok cost ∧ cost ≤ balance := by
  obtain ⟨cost, hcost, h₁⟩ := except_bind_ok.mp h
  refine ⟨cost, hcost, ?_⟩
  split at h₁
  · cases h₁
  · split at h₁
    · cases h₁
    · omega

/-- The balance of the sender covers the cost. -/
theorem verifyAccountBalance_cost {sender : Address} {txData : TxData} {st st' : Store Ω}
    (h : (verifyAccountBalance chain sender txData).run st = .ok () st') :
    ∃ cost, txData.cost = .ok cost ∧ cost ≤ st.getBalance chain.env sender := by
  obtain ⟨-, hrest⟩ := KeeperM.ensure_bind_ok.mp h
  have hbalance : ((st.getAccount chain.env sender).map Account.balance).getD 0 ≤
      st.getBalance chain.env sender := by
    unfold Store.getAccount
    cases st.sequence sender with
    | none =>
      show (0 : ℤ) ≤ _
      rw [Store.getBalance_eq]
      positivity
    | some seq => exact le_refl _
  have hcheck : checkSenderBalance
      (((st.getAccount chain.env sender).map Account.balance).getD 0) txData = .ok () := by
    split at hrest
    · exact (KeeperM.check_ok.mp (mapError_ok.mp hrest)).1
    · exact (KeeperM.check_ok.mp (mapError_ok.mp hrest)).1
  obtain ⟨cost, hcost, hle⟩ := checkSenderBalance_ok hcheck
  exact ⟨cost, hcost, hle.trans hbalance⟩

theorem anteHandleMsg_cost {blockTxIndex : ℕ} {utils utils' : DecoratorUtils} {indexed : Msg × ℕ}
    (h : (anteHandleMsg chain mode tx blockTxIndex utils indexed).run s = .ok utils' s') :
    ∃ ethMsg txData sender cost, unpackEthMsg indexed.1 = .ok (ethMsg, txData) ∧
      chain.sender txData = .ok sender ∧ txData.cost = .ok cost ∧
      cost ≤ s.ctx.store.getBalance chain.env sender := by
  obtain ⟨⟨ethMsg, txData⟩, s₁, hunpack, h₁⟩ := bind_ok.mp h
  obtain ⟨hunpacked, rfl⟩ := fromExcept_ok.mp hunpack
  obtain ⟨sender, hmessage, h₂⟩ := fromExcept_bind_ok.mp h₁
  obtain ⟨_, s₃, hverify, -⟩ := bind_ok.mp h₂
  obtain ⟨st₃, haccount, rfl⟩ := ChainM.onStore_ok.mp hverify
  obtain ⟨cost, hcost, hle⟩ := verifyAccountBalance_cost haccount
  exact ⟨ethMsg, txData, sender, cost, hunpacked, checkMessage_ok hmessage, hcost, hle⟩

/-! ## A transaction of one message -/

theorem anteHandle_single {msg : Msg} {priority : ℤ} (hmsgs : tx.msgs = [msg])
    (h : (anteHandle chain mode tx).run s = .ok priority s') :
    ∃ blockTxIndex utils₀ utils s₀ s₁,
      (anteHandleMsg chain mode tx blockTxIndex utils₀ (msg, 0)).run s₀ = .ok utils s₁ ∧
      s₀.ctx = s.ctx ∧ s'.ctx = s₁.ctx := by
  obtain ⟨utils₀, utils, s₀, s₁, hhandled⟩ := anteHandle_loop h
  have hloop := hhandled.loop
  rw [hmsgs] at hloop
  obtain ⟨utils₁, s₂, hround, hnil⟩ := bind_ok.mp hloop
  cases hnil
  refine ⟨_, utils₀, utils, s₀, s₁, hround, ?_, ?_⟩
  · rw [hhandled.setUp]
  · rw [hhandled.metered]

theorem Bank.balance_sent_ge (st : Store Ω) (src dst : Address) (d : Denom) (n : ℕ) :
    st.balance src d - n ≤ (Bank.sent st src dst d n).balance src d := by
  unfold Bank.sent
  simp only [Store.balance_setBankBalance]
  by_cases hsame : src = dst
  · subst hsame
    simp
  · simp [hsame]

/-- **The sender of an accepted transaction of one message is solvent**: the value is left of the
balance. -/
theorem anteHandle_solvent {msg : Msg} {priority : ℤ} (hmsgs : tx.msgs = [msg])
    (h : (anteHandle chain mode tx).run s = .ok priority s') :
    ∃ ethMsg txData sender feeCap deducted,
      unpackEthMsg msg = .ok (ethMsg, txData) ∧ chain.sender txData = .ok sender ∧
      txData.getGasFeeCap = some feeCap ∧
      Paid chain.env sender chain.feeCollector deducted s.ctx.store s'.ctx.store ∧
      (deducted : ℤ) * chain.env.conversionFactor ≤ txData.getGas.toNat * feeCap ∧
      txData.getValue.getD 0 ≤ s'.ctx.store.getBalance chain.env sender ∧
      ∀ txConfig, (txData.asMessage sender chain.getBaseFee).value ≤
        ((StateDB.new s'.ctx txConfig).getBalance chain.env sender).1 := by
  obtain ⟨blockTxIndex, utils₀, utils, s₀, s₁, hround, hctx₀, hctx₁⟩ := anteHandle_single hmsgs h
  obtain ⟨m, haccepted, -⟩ := anteHandleMsg_ok hround
  obtain ⟨ethMsg, txData, sender, cost, hunpacked, hsigned, hcost, hcovered⟩ :=
    anteHandleMsg_cost hround
  -- both are about the same message
  obtain ⟨_, hunpacked'⟩ := haccepted.unpacked
  have htxData : m.txData = txData := by
    rw [hunpacked] at hunpacked'
    exact (congrArg Prod.snd (Except.ok.inj hunpacked')).symm
  have hsender : m.sender = sender := by
    have hsigned' := haccepted.signed
    rw [htxData, hsigned] at hsigned'
    exact (Except.ok.inj hsigned').symm
  obtain ⟨feeCap, hcap, hprice⟩ := TxData.effectiveGasPrice_le haccepted.price
  rw [htxData] at hcap
  obtain ⟨feeCap', hcap', rfl⟩ := TxData.cost_ok hcost
  rw [hcap] at hcap'
  cases hcap'
  have hpaid := haccepted.paid
  rw [hsender, hctx₀, ← hctx₁] at hpaid
  rw [hctx₀] at hcovered
  -- the deduction
  have hpriceGas : m.price * txData.getGas.toNat ≤ feeCap * txData.getGas.toNat :=
    mul_le_mul_of_nonneg_right hprice (Int.natCast_nonneg _)
  have hdeducted : (m.deducted chain.env : ℤ) * chain.env.conversionFactor ≤
      feeCap * txData.getGas.toNat := by
    have hnonneg := haccepted.nonneg
    rw [htxData] at hnonneg
    rw [Signed.deducted, htxData, chain.env.bankAmount_eq hnonneg]
    exact (Int.ediv_mul_le _ (by exact_mod_cast chain.env.conversionFactor_pos.ne')).trans hpriceGas
  -- what is left
  have hleft : txData.getValue.getD 0 ≤ s'.ctx.store.getBalance chain.env sender := by
    have hge := Bank.balance_sent_ge s.ctx.store sender chain.feeCollector chain.env.evmDenom
      (m.deducted chain.env)
    rw [← hpaid.balances] at hge
    rw [Store.getBalance_eq] at hcovered ⊢
    have hscaled : ((s.ctx.store.balance sender chain.env.evmDenom : ℤ) -
        m.deducted chain.env) * chain.env.conversionFactor ≤
          s'.ctx.store.balance sender chain.env.evmDenom * chain.env.conversionFactor :=
      mul_le_mul_of_nonneg_right (by omega) (Int.natCast_nonneg _)
    rw [Int.sub_mul] at hscaled
    omega
  refine ⟨ethMsg, txData, sender, feeCap, m.deducted chain.env, hunpacked, hsigned, hcap, hpaid,
    ?_, hleft, ?_⟩
  · rw [mul_comm (txData.getGas.toNat : ℤ)]
    exact hdeducted
  intro txConfig
  have hseq : s'.ctx.store.sequence sender ≠ none := by
    rw [hctx₁, haccepted.store, hsender]
    simp [Store.setSequence]
  rw [StateDB.new_getBalance, if_neg hseq, ← Store.getBalance_eq]
  exact hleft

/-- Five coins are sent and 21000 paid, from a balance of 21005. -/
theorem anteHandle_solvent_devnet :
    ∃ (s' : ChainState Unit) (deducted : ℕ),
      Paid env18 0xA1 0xFC deducted (chainState 21005).ctx.store s'.ctx.store ∧
      (deducted : ℤ) * env18.conversionFactor ≤ 21000 * 1 ∧
      5 ≤ s'.ctx.store.getBalance env18 0xA1 := by
  obtain ⟨priority, s', hrun, -⟩ := @exists_of_okWith _ _ _
    ((anteHandle chain18 .deliver
      (cosmosTx [signedTx 0 5 contractHex] 21000 21000)).run
        (chainState 21005)) (fun _ _ => True) _ (by decide +kernel)
  obtain ⟨ethMsg, txData, sender, feeCap, deducted, hunpacked, hsigned, hcap, hpaid, hle, hvalue,
    -⟩ := anteHandle_solvent rfl hrun
  cases hunpacked
  cases hsigned
  cases hcap
  exact ⟨s', deducted, hpaid, hle, hvalue⟩

end TacEvm
