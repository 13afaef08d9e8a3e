import TacEvm.Analysis.BaseFee
import TacEvm.Analysis.TransitionSpec
import TacEvm.Model.Devnet

/-!
# What gas a message is charged

The gas used is raised to the share of the limit that `MinGasMultiplier` asks for. The multiplier is
at most one, so the charge is at most the limit; for a limit of less than 63 bits nothing wraps.
-/

namespace TacEvm

open FallibleState LegacyDec Devnet

variable {Ω : Type} {chain : Chain} {evm : Evm Ω}

theorem LegacyDec.chopAndRound_mul (n : ℤ) : chopAndRound (n * precision) = n := by
  unfold chopAndRound
  have hquo : n * precision / precision = n := Int.mul_ediv_cancel n (by decide)
  have hrem : n * precision % precision = 0 := Int.mul_emod_left n precision
  rw [hquo, hrem]
  exact if_pos (by decide)

theorem LegacyDec.newDec_mul {n : ℤ} {a : LegacyDec} (hn : 0 ≤ n) (ha : 0 ≤ a.digits) :
    ((newDec n).mul a).digits = n * a.digits := by
  have hproduct : (newDec n).digits * a.digits = n * a.digits * precision := by
    show n * precision * a.digits = _
    ring
  have hnonneg : ¬ n * a.digits * precision < 0 := by
    have hprecision : 0 ≤ precision := by decide
    exact Int.not_lt.mpr (by positivity)
  unfold mul
  dsimp only
  rw [hproduct, if_neg hnonneg, chopAndRound_mul]

theorem LegacyDec.truncateInt_max_newDec {a : LegacyDec} (ha : 0 ≤ a.digits) (n : ℤ) (hn : 0 ≤ n) :
    (max a (newDec n)).truncateInt = Max.max (a.digits / precision) n := by
  have hpos : 0 < precision := by decide
  have hwhole : n * precision / precision = n := Int.mul_ediv_cancel n hpos.ne'
  unfold truncateInt
  rw [FeeMarket.digits_max]
  show (Max.max a.digits (n * precision)).tdiv precision = _
  rcases le_total a.digits (n * precision) with h | h
  · have hquotient := Int.ediv_le_ediv hpos h
    rw [hwhole] at hquotient
    rw [max_eq_right h, Int.tdiv_eq_ediv_of_nonneg (by positivity), hwhole, max_eq_right hquotient]
  · have hquotient := Int.ediv_le_ediv hpos h
    rw [hwhole] at hquotient
    rw [max_eq_left h, Int.tdiv_eq_ediv_of_nonneg ha, max_eq_left hquotient]

theorem toInt64_of_lt {n : UInt64} (h : n.toNat < 2 ^ 63) : toInt64 n = n.toNat :=
  Int.bmod_eq_of_le (by omega) (by omega)

/-- The share of the limit that a message is charged at least. -/
def minimumGas (multiplier : LegacyDec) (gas : UInt64) : ℕ :=
  (gas.toNat * multiplier.digits / precision).toNat

section Charge

variable {gas leftoverGas temporaryGasUsed gasUsed : UInt64}

theorem minimumGas_le {multiplier : LegacyDec} (hle : multiplier.digits ≤ precision)
    (gas : UInt64) : minimumGas multiplier gas ≤ gas.toNat := by
  have hproduct : (gas.toNat : ℤ) * multiplier.digits ≤ gas.toNat * precision :=
    mul_le_mul_of_nonneg_left hle (Int.natCast_nonneg _)
  have hdiv := Int.ediv_le_ediv (c := precision) (by decide) hproduct
  rw [Int.mul_ediv_cancel _ (by decide)] at hdiv
  unfold minimumGas
  omega

/-- The gas used is charged, or the minimum. -/
theorem chargedGas_ok (hgas : gas.toNat < 2 ^ 63) (hused : temporaryGasUsed ≤ gas)
    (hnonneg : 0 ≤ chain.feeMarketParams.minGasMultiplier.digits)
    (hle : chain.feeMarketParams.minGasMultiplier.digits ≤ precision)
    (h : chargedGas chain gas leftoverGas temporaryGasUsed = .ok gasUsed) :
    gasUsed.toNat = max (minimumGas chain.feeMarketParams.minGasMultiplier gas)
      temporaryGasUsed.toNat := by
  have hword := UInt64.le_iff_toNat_le.mp hused
  have hminimum := minimumGas_le hle gas
  have hmul := newDec_mul (Int.natCast_nonneg gas.toNat) hnonneg
  have hproduct : 0 ≤ ((newDec gas.toNat).mul chain.feeMarketParams.minGasMultiplier).digits := by
    rw [hmul]
    positivity
  unfold chargedGas at h
  dsimp only at h
  rw [toInt64_of_lt hgas, toInt64_of_lt (by omega)] at h
  split at h
  · cases h
  split at h
  · cases h
  cases h
  rw [truncateInt_max_newDec hproduct _ (Int.natCast_nonneg _), hmul]
  unfold minimumGas at hminimum ⊢
  have hsize : (max (gas.toNat * chain.feeMarketParams.minGasMultiplier.digits /
      precision) (temporaryGasUsed.toNat : ℤ)).toNat < UInt64.size := by
    show _ < 2 ^ 64
    omega
  rw [UInt64.toNat_ofNat_of_lt' hsize]
  omega

end Charge

/-- The charge of a message, none of whose steps wraps. -/
structure GasAccount (multiplier : LegacyDec)
    (quotient gas intrinsicGas leftoverGas refundCounter gasUsed : UInt64) : Prop where
  least : minimumGas multiplier gas ≤ gasUsed.toNat
  most : gasUsed ≤ gas
  exact : gasUsed.toNat = max (minimumGas multiplier gas)
    (gas.toNat - leftoverGas.toNat -
      min refundCounter.toNat ((gas.toNat - leftoverGas.toNat) / quotient.toNat))
  intrinsic : intrinsicGas ≤ gas
  leftover : leftoverGas ≤ gas
  /-- `temporaryGasUsed -= refund`. -/
  refund : gasToRefund refundCounter (gas - leftoverGas) quotient ≤ gas - leftoverGas
  /-- `leftoverGas += refund`. -/
  sum : leftoverGas.toNat + (gasToRefund refundCounter (gas - leftoverGas) quotient).toNat < 2 ^ 64
  /-- `int64(msg.Gas())`. -/
  signedLimit : toInt64 gas = gas.toNat
  /-- `int64(temporaryGasUsed)`. -/
  signedUsed : toInt64 (gas - leftoverGas -
      gasToRefund refundCounter (gas - leftoverGas) quotient) =
    (gas - leftoverGas - gasToRefund refundCounter (gas - leftoverGas) quotient).toNat
  /-- The gas that is paid back, `msg.Gas() - res.GasUsed`. -/
  paidBack : (gas - gasUsed).toNat = gas.toNat - gasUsed.toNat

theorem toNat_gasToRefund (available consumed quotient : UInt64) :
    (gasToRefund available consumed quotient).toNat =
      min available.toNat (consumed.toNat / quotient.toNat) := by
  unfold gasToRefund
  dsimp only
  have hdiv := UInt64.toNat_div consumed quotient
  split
  · rename_i h
    have hlt := UInt64.lt_iff_toNat_lt.mp h
    omega
  · rename_i h
    have hle := UInt64.le_iff_toNat_le.mp (UInt64.not_lt.mp h)
    omega

/-- The gas that is charged, from the leftover and the refund. -/
theorem gasAccount_of_chargedGas {gas intrinsicGas leftoverGas refundCounter gasUsed : UInt64}
    (hgas : gas.toNat < 2 ^ 63) (hintrinsic : intrinsicGas ≤ gas) (hleftover : leftoverGas ≤ gas)
    (hnonneg : 0 ≤ chain.feeMarketParams.minGasMultiplier.digits)
    (hle : chain.feeMarketParams.minGasMultiplier.digits ≤ precision)
    {total : UInt64}
    (h : chargedGas chain gas total (gas - leftoverGas - gasToRefund refundCounter
      (gas - leftoverGas) (refundQuotient chain)) = .ok gasUsed) :
    GasAccount chain.feeMarketParams.minGasMultiplier (refundQuotient chain) gas intrinsicGas
      leftoverGas refundCounter gasUsed := by
  have hconsumed := UInt64.toNat_sub_of_le _ _ hleftover
  have hleftover' := UInt64.le_iff_toNat_le.mp hleftover
  -- the refund is a part of what was used
  have hrefund := toNat_gasToRefund refundCounter (gas - leftoverGas) (refundQuotient chain)
  rw [hconsumed] at hrefund
  have hshare := Nat.div_le_self (gas.toNat - leftoverGas.toNat) (refundQuotient chain).toNat
  have hpart : gasToRefund refundCounter (gas - leftoverGas) (refundQuotient chain) ≤
      gas - leftoverGas := UInt64.le_iff_toNat_le.mpr (by omega)
  have hused := UInt64.toNat_sub_of_le _ _ hpart
  have htemporary : gas - leftoverGas - gasToRefund refundCounter (gas - leftoverGas)
      (refundQuotient chain) ≤ gas := UInt64.le_iff_toNat_le.mpr (by omega)
  have hcharge := chargedGas_ok hgas htemporary hnonneg hle h
  have hminimum := minimumGas_le hle gas
  have hmost : gasUsed ≤ gas := UInt64.le_iff_toNat_le.mpr (by omega)
  exact
    { least := by omega
      most := hmost
      exact := by rw [hcharge, hused, hconsumed, hrefund]
      intrinsic := hintrinsic
      leftover := hleftover
      refund := hpart
      sum := by omega
      signedLimit := toInt64_of_lt hgas
      signedUsed := toInt64_of_lt (by omega)
      paidBack := UInt64.toNat_sub_of_le _ _ hmost }

/-- **The charge of every message** executed without an error. -/
theorem applyMessageWithConfig_gasAccount {msg : Message} {commit : Bool} {txConfig : TxConfig}
    {ctx ctx' : Context Ω} {res : MsgEthereumTxResponse} (hgas : msg.gas.toNat < 2 ^ 63)
    (hmultiplier : FeeMarket.validateMinGasMultiplier
      (some chain.feeMarketParams.minGasMultiplier) = .ok ())
    (h : (applyMessageWithConfig chain evm msg commit txConfig).run ctx = .ok res ctx') :
    ∃ intrinsicGas db outcome,
      chain.intrinsicGas msg.data msg.accessList (decide (msg.recipient = none)) =
        .ok intrinsicGas ∧
      execute chain evm msg (msg.gas - intrinsicGas) (StateDB.new ctx txConfig) =
        some (db, outcome) ∧
      GasAccount chain.feeMarketParams.minGasMultiplier (refundQuotient chain) msg.gas
        intrinsicGas outcome.leftoverGas db.getRefund res.gasUsed := by
  obtain ⟨_, hsome, hnonneg, hle⟩ := FeeMarket.validateMinGasMultiplier_ok hmultiplier
  cases hsome
  obtain ⟨intrinsicGas, db, outcome, happlied⟩ := applyMessageWithConfig_applied h
  exact ⟨intrinsicGas, db, outcome, happlied.intrinsic, happlied.run,
    gasAccount_of_chargedGas hgas happlied.intrinsic_le happlied.leftover_le hnonneg hle
      happlied.charged⟩

/-- The small chain, with a multiplier of a half. -/
def Devnet.halfChain : Chain :=
  { chain18 with
    feeMarketParams :=
      { chain18.feeMarketParams with
        minGasMultiplier := ⟨500000000000000000⟩ } }

/-- A message that uses 21000 of 100000 gas is charged a half. -/
theorem applyMessageWithConfig_gasAccount_devnet :
    ∃ res ctx' intrinsicGas leftoverGas refundCounter,
      (applyMessageWithConfig halfChain Devnet.evm
        ((legacyTx 0 100000 [1]).asMessage 0xA1 (some 1)) false txConfig).run
          (chainState 100000).ctx = .ok res ctx' ∧ res.gasUsed = 50000 ∧
      GasAccount ⟨500000000000000000⟩ 5 100000 intrinsicGas leftoverGas refundCounter
        res.gasUsed := by
  obtain ⟨res, ctx', hrun, hused⟩ := @exists_of_okWith _ _ _
    ((applyMessageWithConfig halfChain Devnet.evm
      ((legacyTx 0 100000 [1]).asMessage 0xA1 (some 1)) false txConfig).run
        (chainState 100000).ctx) (fun res _ => res.gasUsed = 50000) _ (by decide +kernel)
  obtain ⟨intrinsicGas, db, outcome, -, -, haccount⟩ :=
    applyMessageWithConfig_gasAccount (by decide) (by rfl) hrun
  exact ⟨res, ctx', intrinsicGas, outcome.leftoverGas, db.getRefund, hrun, hused, haccount⟩

end TacEvm
