import TacEvm.Analysis.TransitionSpec
import TacEvm.Model.Devnet

/-!
# Fees between the deduction and the refund

The deduction and the refund have the price in common and are each rounded down once, so what the
sender pays in the end misses the exact fee by less than one bank unit.
-/

namespace TacEvm

open FallibleState Devnet

theorem ediv_sub_ediv_near {F : ℤ} (hF : 0 < F) (x y : ℤ) :
    |(x / F - y / F) * F - (x - y)| < F := by
  have hx : F * (x / F) + x % F = x := Int.mul_ediv_add_emod x F
  have hy : F * (y / F) + y % F = y := Int.mul_ediv_add_emod y F
  have hdiff : (x / F - y / F) * F - (x - y) = y % F - x % F := by
    calc (x / F - y / F) * F - (x - y)
        = F * (x / F) - F * (y / F) - (x - y) := by ring
      _ = y % F - x % F := by omega
  have hx₀ := Int.emod_nonneg x hF.ne'
  have hx₁ := Int.emod_lt_of_pos x hF
  have hy₀ := Int.emod_nonneg y hF.ne'
  have hy₁ := Int.emod_lt_of_pos y hF
  rw [hdiff, abs_lt]
  constructor
  · omega
  · omega

theorem Env.bankAmount_eq (env : Env) {amt : ℤ} (h : 0 ≤ amt) :
    (env.bankAmount amt : ℤ) = amt / env.conversionFactor :=
  Int.toNat_of_nonneg (Int.ediv_nonneg h (Int.natCast_nonneg _))

variable {Ω : Type} {chain : Chain} {mode : Mode} {evm : Evm Ω}

/-- Exactly `n` bank units of the EVM denom were moved. -/
structure Paid (env : Env) (src dst : Address) (n : ℕ) (st st' : Store Ω) : Prop where
  enough : n ≤ st.balance src env.evmDenom
  balances : st'.balance = (Bank.sent st src dst env.evmDenom n).balance

theorem Accepted.paid {tx : CosmosTx} {msg : Msg} {m : Signed} {utils utils' : DecoratorUtils}
    {s s' : ChainState Ω} (h : Accepted chain mode tx msg m utils utils' s s') :
    Paid chain.env m.sender chain.feeCollector (m.deducted chain.env) s.ctx.store s'.ctx.store := by
  refine ⟨h.enough, ?_⟩
  rw [h.store]
  show (Bank.sent (s.ctx.store.withAccount m.sender) m.sender chain.feeCollector
    chain.env.evmDenom (m.deducted chain.env)).balance = _
  unfold Store.withAccount
  split
  · rfl
  · rfl

/-- Deduction and refund for gas limit `g`, use `u` and price `p`. -/
structure FeesConserved (F : ℕ) (g u : ℕ) (p : ℤ) (deducted refunded : ℕ) : Prop where
  deduction : (deducted : ℤ) = g * p / F
  refund : (refunded : ℤ) = (g - u) * p / F
  le : refunded ≤ deducted
  net : |((deducted : ℤ) - refunded) * F - u * p| < F

theorem feesConserved_of_amounts (env : Env) {g u : ℕ} {p : ℤ} (hused : u ≤ g)
    (hfee : 0 ≤ g * p) (hrest : 0 ≤ ((g : ℤ) - u) * p) :
    FeesConserved env.conversionFactor g u p (env.bankAmount (g * p))
      (env.bankAmount ((g - u) * p)) := by
  have hF := env.int_conversionFactor_pos
  have hdeducted := env.bankAmount_eq hfee
  have hrefunded := env.bankAmount_eq hrest
  -- a negative price is only possible if there is no gas at all
  have hle : ((g : ℤ) - u) * p ≤ g * p := by
    rcases Int.lt_or_le p 0 with hneg | hnonneg
    · have hg : g = 0 := by
        by_contra hg
        have : (g : ℤ) * p < 0 := mul_neg_of_pos_of_neg (by omega) hneg
        omega
      have hu : u = 0 := by omega
      subst hg hu
      omega
    · exact mul_le_mul_of_nonneg_right (by omega) hnonneg
  refine ⟨hdeducted, hrefunded, ?_, ?_⟩
  · have := Int.ediv_le_ediv hF hle
    omega
  · have hnear := ediv_sub_ediv_near hF (g * p) ((g - u) * p)
    rw [hdeducted, hrefunded]
    have hcharge : (g : ℤ) * p - (g - u) * p = u * p := by ring
    rwa [hcharge] at hnear

/-- **Fees are conserved.** Deduction and refund have the price in common, are rounded down, and
leave a charge exact up to one unit. -/
theorem fees_conserved {tx : CosmosTx} {blockTxIndex : ℕ} {utils utils' : DecoratorUtils}
    {indexed : Msg × ℕ} {ethMsg : MsgEthereumTx} {txData : TxData}
    {res : MsgEthereumTxResponse} {s₁ s₂ s₃ s₄ : ChainState Ω}
    (hbase : ∀ b, chain.getBaseFee = some b → 0 ≤ b)
    (hunpack : unpackEthMsg indexed.1 = .ok (ethMsg, txData))
    (hante : (anteHandleMsg chain mode tx blockTxIndex utils indexed).run s₁ = .ok utils' s₂)
    (happly : (applyTransaction chain evm txData).run s₃ = .ok res s₄)
    (hused : res.gasUsed ≤ txData.getGas) :
    ∃ p sender deducted refunded tmpCtx,
      txData.effectiveGasPrice chain.getBaseFee = .ok p ∧
      (txData.asMessage sender chain.getBaseFee).gasPrice = p ∧
      Paid chain.env sender chain.feeCollector deducted s₁.ctx.store s₂.ctx.store ∧
      Applied chain evm txData sender res tmpCtx s₃ s₄ ∧
      Paid chain.env chain.feeCollector sender refunded
        (res.merged s₃.ctx.store tmpCtx.store) s₄.ctx.store ∧
      FeesConserved chain.env.conversionFactor txData.getGas.toNat res.gasUsed.toNat p deducted
        refunded := by
  obtain ⟨m, haccepted, -⟩ := anteHandleMsg_ok hante
  obtain ⟨_, hunpacked⟩ := haccepted.unpacked
  have htxData : m.txData = txData := by
    rw [hunpack] at hunpacked
    exact (congrArg Prod.snd (Except.ok.inj hunpacked)).symm
  subst htxData
  obtain ⟨sender, tmpCtx, happlied⟩ := applyTransaction_ok happly
  have hsender : m.sender = sender :=
    Except.ok.inj (haccepted.signed.symm.trans happlied.signed)
  subst hsender
  have hprice := TxData.asMessage_gasPrice hbase haccepted.price m.sender
  obtain ⟨hrest, henough, hstore⟩ := refundGas_ok happlied.refund
  have hleftover : ((m.txData.getGas - res.gasUsed).toNat : ℤ) =
      m.txData.getGas.toNat - res.gasUsed.toNat := by
    have hle : res.gasUsed.toNat ≤ m.txData.getGas.toNat := hused
    rw [UInt64.toNat_sub_of_le _ _ hused]
    omega
  rw [hprice, hleftover] at hrest henough hstore
  have hdeducted :
      m.deducted chain.env = chain.env.bankAmount (m.txData.getGas.toNat * m.price) := by
    rw [Signed.deducted, mul_comm]
  have hfee : 0 ≤ (m.txData.getGas.toNat : ℤ) * m.price := by
    rw [mul_comm]
    exact haccepted.nonneg
  refine ⟨m.price, m.sender, _, _, tmpCtx, haccepted.price, hprice, haccepted.paid, happlied,
    ⟨henough, by rw [hstore]; rfl⟩, ?_⟩
  rw [hdeducted]
  exact feesConserved_of_amounts chain.env hused hfee hrest

/-- `30000` bank units are deducted, and `9000` sent back. -/
theorem fees_conserved_devnet :
    ∃ (p : ℤ) (s₂ s₃ tmp : Store Unit),
      Paid env6 0xA1 0xFC 30000 (chainState 100000).ctx.store s₂ ∧
      Paid env6 0xFC 0xA1 9000 tmp s₃ ∧
      FeesConserved 1000000000000 30000 21000 p 30000 9000 := by
  obtain ⟨res, s', hrun, hused⟩ := exists_of_okWith
    (p := fun res (_ : ChainState Unit) => res.gasUsed = 21000)
    (r := (do
      let _ ← anteHandleMsg (chain .sixDecimals) .deliver (cosmosTx [] 30000 90000) 0
        { txGasLimit := 0, gasWanted := 0, minPriority := 0, txFee := 0 }
        (.ethereumTx { data := .ok tippingTx, sender := [], hash := "" }, 0)
      applyTransaction (chain .sixDecimals) evm tippingTx).run (chainState 100000))
    (by decide +kernel)
  obtain ⟨utils', s₂, hante, happly⟩ := bind_ok.mp hrun
  obtain ⟨p, sender, deducted, refunded, tmpCtx, hprice, -, hpaid, happlied, hback, hfees⟩ :=
    fees_conserved (by decide) rfl hante happly (by rw [hused]; decide)
  have hp : p = 1000000000005 := (Except.ok.inj hprice).symm
  have hsender : sender = 0xA1 := (Except.ok.inj happlied.signed).symm
  rw [hused] at hfees
  have hfees' : FeesConserved 1000000000000 30000 21000 p deducted refunded := hfees
  have hdeducted : deducted = 30000 := by
    have := hfees'.deduction
    rw [hp] at this
    omega
  have hrefunded : refunded = 9000 := by
    have := hfees'.refund
    rw [hp] at this
    omega
  subst hdeducted hrefunded hsender
  exact ⟨p, _, _, _, hpaid, hback, hfees'⟩

end TacEvm
