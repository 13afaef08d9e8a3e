import TacEvm.Analysis.AnteSpec
import TacEvm.Model.Devnet

/-!
# The totals of the ante handler

The fees of the messages are added as integers. The gas is added in 64 bits, so the sum is the true
one exactly when it fits, and nothing checks that it does.
-/

namespace TacEvm

open FallibleState Devnet

/-- The most a transaction pays, gas limit times fee cap. -/
def TxData.maxFee (txData : TxData) : ℤ := txData.getGasFeeCap.getD 0 * txData.getGas.toNat

namespace CosmosTx

variable (tx : CosmosTx)

/-- The data of the Ethereum messages of a transaction. -/
def txDatas : List TxData :=
  tx.msgs.filterMap fun msg =>
    match unpackEthMsg msg with
    | .ok (_, txData) => some txData
    | .error _ => none

/-- The sum of the gas limits of the messages. -/
def totalGas : ℕ := (tx.txDatas.map fun txData => txData.getGas.toNat).sum

/-- The sum of the fees of the messages. -/
def totalFee : ℤ := (tx.txDatas.map TxData.maxFee).sum

end CosmosTx

variable {Ω : Type} {chain : Chain} {mode : Mode} {tx : CosmosTx} {s s' : ChainState Ω}

theorem TxData.fee_ok {txData : TxData} {fee : ℤ} (h : txData.fee = .ok fee) :
    fee = txData.maxFee := by
  unfold TxData.fee TacEvm.fee at h
  unfold TxData.maxFee
  cases hcap : txData.getGasFeeCap with
  | none =>
    rw [hcap] at h
    cases h
  | some cap =>
    rw [hcap] at h
    cases h
    rfl

variable {msgs : List Msg} {ms : List Signed} {utils utils' : DecoratorUtils}

section

variable (h : AcceptedRun chain mode tx msgs ms utils utils' s s')
include h

theorem AcceptedRun.txDatas :
    (msgs.filterMap fun msg =>
      match unpackEthMsg msg with
      | .ok (_, txData) => some txData
      | .error _ => none) = ms.map Signed.txData := by
  induction h with
  | nil utils s => rfl
  | cons head tail ih =>
    obtain ⟨ethMsg, hunpacked⟩ := head.unpacked
    rw [List.filterMap_cons, hunpacked, ih]
    rfl

theorem AcceptedRun.txFee : utils'.txFee = utils.txFee + (ms.map fun m => m.txData.maxFee).sum := by
  induction h with
  | nil utils s => simp
  | cons head tail ih =>
    rw [ih, head.txFee, TxData.fee_ok head.fee, List.map_cons, List.sum_cons, add_assoc]

theorem AcceptedRun.txGasLimit :
    utils'.txGasLimit = utils.txGasLimit +
      UInt64.ofNat (ms.map fun m => m.txData.getGas.toNat).sum := by
  induction h with
  | nil utils s => simp
  | cons head tail ih =>
    rw [ih, head.txGasLimit, List.map_cons, List.sum_cons, UInt64.ofNat_add, UInt64.ofNat_toNat,
      UInt64.add_assoc]

theorem AcceptedRun.gasWanted (hmode : mode.isCheckTx = false) :
    utils'.gasWanted = utils.gasWanted +
      UInt64.ofNat (ms.map fun m => m.txData.getGas.toNat).sum := by
  induction h with
  | nil utils s => simp
  | cons head tail ih =>
    have hround : updateCumulativeGasWanted chain mode = fun gas total => total + gas := by
      funext gas total
      simp [updateCumulativeGasWanted, hmode]
    rw [ih, head.gasWanted, hround, List.map_cons, List.sum_cons, UInt64.ofNat_add,
      UInt64.ofNat_toNat, UInt64.add_assoc]

end

theorem AcceptedTx.totals (h : AcceptedTx chain mode tx ms utils s s')
    (hcheck : mode.isCheckTx = false) :
    utils.txGasLimit = UInt64.ofNat tx.totalGas ∧ utils.gasWanted = UInt64.ofNat tx.totalGas ∧
      utils.txFee = tx.totalFee ∧ s'.gasMeter.limit = UInt64.ofNat tx.totalGas := by
  obtain ⟨utils₀, s₀, s₁, hrun, rfl, hgas, hwanted, hfee, -, -⟩ := h.run
  have hdatas : tx.txDatas = ms.map Signed.txData := hrun.txDatas
  have htotalGas : tx.totalGas = (ms.map fun m => m.txData.getGas.toNat).sum := by
    rw [CosmosTx.totalGas, hdatas, List.map_map]
    rfl
  have htotalFee : tx.totalFee = (ms.map fun m => m.txData.maxFee).sum := by
    rw [CosmosTx.totalFee, hdatas, List.map_map]
    rfl
  have hlimit : utils.gasWanted = UInt64.ofNat tx.totalGas := by
    rw [hrun.gasWanted hcheck, hwanted, htotalGas, UInt64.zero_add]
  refine ⟨?_, hlimit, ?_, hlimit⟩
  · rw [hrun.txGasLimit, hgas, htotalGas, UInt64.zero_add]
  · rw [hrun.txFee, hfee, htotalFee, zero_add]

/-- The totals of an accepted transaction are the true ones. -/
structure TrueTotals (chain : Chain) (tx : CosmosTx) (s s' : ChainState Ω) : Prop where
  declaredGas : tx.totalGas = tx.fee.gasLimit.toNat
  withinBlock : tx.totalGas ≤ (blockGasLimit chain s).toNat
  meter : tx.totalGas = s'.gasMeter.limit.toNat
  declaredFee : tx.fee.amount.searchAmountOf chain.env.evmDenom =
    chain.env.convertAmountFrom18Decimals tx.totalFee

/-- **The totals are true exactly when the sum of the gas limits fits.** -/
theorem anteHandle_trueTotals_iff {priority : ℤ} (hcheck : mode.isCheckTx = false)
    (hrecheck : mode.isReCheckTx = false)
    (h : (anteHandle chain mode tx).run s = .ok priority s') :
    tx.fee.amount.searchAmountOf chain.env.evmDenom =
        chain.env.convertAmountFrom18Decimals tx.totalFee ∧
      (TrueTotals chain tx s s' ↔ tx.totalGas < 2 ^ 64) := by
  obtain ⟨ms, utils, haccepted⟩ := anteHandle_ok h
  obtain ⟨hgas, hwanted, hfee, hmeter⟩ := haccepted.totals hcheck
  obtain ⟨hamount, hdeclared⟩ := haccepted.declared hrecheck
  have hblock := haccepted.blockGas
  rw [hfee] at hamount
  refine ⟨hamount, ?_, ?_⟩
  · intro htrue
    rw [htrue.declaredGas]
    exact tx.fee.gasLimit.toNat_lt
  intro hfits
  have hsum : (UInt64.ofNat tx.totalGas).toNat = tx.totalGas := by
    rw [UInt64.toNat_ofNat', Nat.mod_eq_of_lt hfits]
  rw [hwanted, UInt64.le_iff_toNat_le, hsum] at hblock
  exact {
    declaredGas := by rw [hdeclared, hgas, hsum]
    withinBlock := hblock
    meter := by rw [hmeter, hsum]
    declaredFee := hamount }

/-- Two messages are accepted with their true totals. -/
theorem anteHandle_trueTotals_devnet :
    ∃ priority s', (anteHandle chain18 .deliver
        (cosmosTx [legacyTx 0 21000 [1], legacyTx 1 30000 [1]] 51000
          51000)).run (chainState 100000) = .ok priority s' ∧
      TrueTotals chain18
        (cosmosTx [legacyTx 0 21000 [1], legacyTx 1 30000 [1]] 51000 51000)
        (chainState 100000) s' := by
  obtain ⟨priority, s', hrun, -⟩ := exists_of_okWith (p := fun _ _ => True)
    (r := (anteHandle chain18 .deliver
      (cosmosTx [legacyTx 0 21000 [1], legacyTx 1 30000 [1]] 51000
        51000)).run (chainState 100000)) (by decide +kernel)
  exact ⟨priority, s', hrun, (anteHandle_trueTotals_iff rfl rfl hrun).2.mpr (by decide +kernel)⟩

/-- Three messages of over `2 ^ 64` gas in a transaction that declares `42000`. -/
theorem anteHandle_totals_wrap :
    ∃ priority s', (anteHandle chain18 .deliver
        (cosmosTx [legacyTx 0 9223372036854775807 [1],
          legacyTx 1 9223372036854775807 [1], legacyTx 2 42002 [1]] 42000
          18446744073709593616)).run (chainState (2 ^ 65)) = .ok priority s' ∧
      s'.gasMeter.limit = 42000 ∧
      ¬ TrueTotals chain18
        (cosmosTx [legacyTx 0 9223372036854775807 [1],
          legacyTx 1 9223372036854775807 [1], legacyTx 2 42002 [1]] 42000
          18446744073709593616) (chainState (2 ^ 65)) s' := by
  obtain ⟨priority, s', hrun, hlimit⟩ := exists_of_okWith
    (p := fun _ (s' : ChainState Unit) => s'.gasMeter.limit = 42000)
    (r := (anteHandle chain18 .deliver
      (cosmosTx [legacyTx 0 9223372036854775807 [1],
        legacyTx 1 9223372036854775807 [1], legacyTx 2 42002 [1]] 42000
        18446744073709593616)).run (chainState (2 ^ 65))) (by decide +kernel)
  refine ⟨priority, s', hrun, hlimit, ?_⟩
  intro htrue
  have hdeclared := htrue.declaredGas
  revert hdeclared
  decide +kernel

/-- A transaction of a block, by the handler that accepts it. -/
inductive BlockTx
  | ethereum (tx : CosmosTx)
  | cosmos (tx : CosmosTx)

namespace BlockTx

/-- The gas limit a transaction declares. -/
def declaredGas : BlockTx → ℕ
  | ethereum tx => tx.fee.gasLimit.toNat
  | cosmos tx => tx.fee.gasLimit.toNat

/-- How often `CheckGasWanted` is called for a transaction. -/
def countings : BlockTx → ℕ
  | ethereum tx => tx.msgs.length
  | cosmos _ => 1

end BlockTx

/-- The gas the transactions of a block declare, each taken once. -/
def declaredGas (txs : List BlockTx) : ℕ := (txs.map BlockTx.declaredGas).sum

/-- The gas that is counted for them. -/
def countedGas (chain : Chain) (txs : List BlockTx) : ℕ :=
  if chain.rules.isLondon then (txs.map fun tx => tx.countings * tx.declaredGas).sum else 0

/-- The states of a block after these accepted transactions. -/
inductive BlockRun (chain : Chain) : List BlockTx → ChainState Ω → Prop
  | start {s : ChainState Ω} (h : s.transient.gasWanted = 0) : BlockRun chain [] s
  | ethereum {txs : List BlockTx} {s s' : ChainState Ω} {tx : CosmosTx} {priority : ℤ}
      (run : BlockRun chain txs s)
      (h : (anteHandle chain .deliver tx).run s = .ok priority s') :
      BlockRun chain (txs ++ [.ethereum tx]) s'
  | cosmos {txs : List BlockTx} {s s' : ChainState Ω} {tx : CosmosTx}
      (run : BlockRun chain txs s) (h : (checkGasWanted chain tx).run s = .ok () s') :
      BlockRun chain (txs ++ [.cosmos tx]) s'
  | other {txs : List BlockTx} {s s' : ChainState Ω} (run : BlockRun chain txs s)
      (h : s'.transient.gasWanted = s.transient.gasWanted) : BlockRun chain txs s'

theorem Transient.gasWanted_addGasWanted (t : Transient) (henabled : chain.getBaseFeeEnabled = true)
    (gas : UInt64) :
    (t.addGasWanted chain gas).gasWanted =
      t.gasWanted + UInt64.ofNat (if chain.rules.isLondon then gas.toNat else 0) := by
  unfold Transient.addGasWanted
  by_cases hlondon : chain.rules.isLondon = true
  · simp [hlondon, henabled]
  · simp [hlondon]

theorem AcceptedRun.transientGasWanted (henabled : chain.getBaseFeeEnabled = true)
    (h : AcceptedRun chain mode tx msgs ms utils utils' s s') :
    s'.transient.gasWanted = s.transient.gasWanted +
      UInt64.ofNat (if chain.rules.isLondon then msgs.length * tx.fee.gasLimit.toNat else 0) := by
  induction h with
  | nil utils s => simp
  | @cons msg msgs m ms utils utils₁ utils' s s₁ s' head tail ih =>
    rw [ih, head.transient, Transient.gasWanted_addGasWanted _ henabled, UInt64.add_assoc,
      ← UInt64.ofNat_add]
    congr 2
    split
    · rw [List.length_cons]
      ring
    · rfl

theorem countedGas_append (chain : Chain) (txs : List BlockTx) (tx : BlockTx) :
    countedGas chain (txs ++ [tx]) = countedGas chain txs +
      (if chain.rules.isLondon then tx.countings * tx.declaredGas else 0) := by
  unfold countedGas
  split
  · simp
  · rfl

/-- **What a block counts**: the counted gas, modulo `2 ^ 64`. -/
theorem BlockRun.gasWanted {txs : List BlockTx} (henabled : chain.getBaseFeeEnabled = true)
    (h : BlockRun chain txs s) : s.transient.gasWanted = UInt64.ofNat (countedGas chain txs) := by
  induction h with
  | start h =>
    rw [h]
    simp [countedGas]
  | ethereum run h ih =>
    obtain ⟨ms, utils, haccepted⟩ := anteHandle_ok h
    obtain ⟨utils₀, s₀, s₁, hrun, rfl, -, -, -, -, htransient⟩ := haccepted.run
    have hcount := hrun.transientGasWanted henabled
    rw [htransient, ih, ← UInt64.ofNat_add] at hcount
    rw [countedGas_append]
    exact hcount
  | @cosmos txs s s' tx run h ih =>
    obtain ⟨-, rfl⟩ := checkGasWanted_ok h
    have hcount := s.transient.gasWanted_addGasWanted henabled tx.fee.gasLimit
    rw [ih, ← UInt64.ofNat_add] at hcount
    rw [countedGas_append]
    simp only [BlockTx.countings, BlockTx.declaredGas, one_mul]
    exact hcount
  | other run h ih => rw [h, ih]

theorem endBlock_ok_iff :
    (∃ gas s', (endBlock chain).run s = .ok gas s') ↔
      s.transient.gasWanted.toNat < 2 ^ 63 ∧
        ∃ meter, s.blockGasMeter = some meter ∧ meter.consumedToLimit.toNat < 2 ^ 63 := by
  simp only [endBlock, run_get_bind]
  cases hmeter : s.blockGasMeter with
  | none => simp
  | some meter =>
    constructor
    · rintro ⟨gas, s', h⟩
      obtain ⟨hwanted, hrest⟩ := require_bind_ok.mp h
      obtain ⟨_, s₂, hused, -⟩ := bind_ok.mp hrest
      exact ⟨hwanted, meter, rfl, (require_ok.mp hused).1⟩
    · rintro ⟨hwanted, meter', heq, hused⟩
      cases heq
      exact ⟨_, _, bind_ok.mpr ⟨(), s, require_ok.mpr ⟨hwanted, rfl⟩,
        bind_ok.mpr ⟨(), s, require_ok.mpr ⟨hused, rfl⟩, rfl⟩⟩⟩

/-- The gas wanted is what is declared, and `EndBlock` succeeds. -/
structure ExactGasWanted (chain : Chain) (txs : List BlockTx) (s : ChainState Ω) : Prop where
  once : s.transient.gasWanted.toNat = declaredGas txs
  endBlock : ∃ gas s', (endBlock chain).run s = .ok gas s'

/-- **When the accounting of a block is exact**: counted and declared gas are one `int64`. -/
theorem blockRun_exactGasWanted_iff {txs : List BlockTx}
    (henabled : chain.getBaseFeeEnabled = true) (h : BlockRun chain txs s) :
    ExactGasWanted chain txs s ↔
      countedGas chain txs % 2 ^ 64 = declaredGas txs ∧ declaredGas txs < 2 ^ 63 ∧
        ∃ meter, s.blockGasMeter = some meter ∧ meter.consumedToLimit.toNat < 2 ^ 63 := by
  have hcounted : s.transient.gasWanted.toNat = countedGas chain txs % 2 ^ 64 := by
    rw [h.gasWanted henabled, UInt64.toNat_ofNat']
  constructor
  · intro hexact
    obtain ⟨hwanted, hmeter⟩ := endBlock_ok_iff.mp hexact.endBlock
    rw [hexact.once] at hwanted
    exact ⟨hcounted.symm.trans hexact.once, hwanted, hmeter⟩
  · rintro ⟨honce, hbound, hmeter⟩
    have hdeclared := hcounted.trans honce
    exact ⟨hdeclared, endBlock_ok_iff.mpr ⟨hdeclared ▸ hbound, hmeter⟩⟩

/-- A block with one message, and a Cosmos transaction. -/
theorem blockRun_exactGasWanted_devnet :
    ∃ s : ChainState Unit, ExactGasWanted chain18
      [.ethereum (cosmosTx [legacyTx 0 21000 [1]] 21000 21000),
        .cosmos (cosmosTx [] 50000 0)] s := by
  obtain ⟨_, s, hrun, hmeter⟩ := exists_of_okWith
    (p := fun _ (s : ChainState Unit) => s.blockGasMeter = some { limit := 0, consumed := 0 })
    (r := (do
      let _ ← anteHandle chain18 .deliver (cosmosTx [legacyTx 0 21000 [1]] 21000 21000)
      checkGasWanted chain18 (cosmosTx [] 50000 0)).run (chainState 100000))
    (by decide +kernel)
  obtain ⟨_, _, hfirst, hsecond⟩ := bind_ok.mp hrun
  refine ⟨s, (blockRun_exactGasWanted_iff (by decide)
    (.cosmos (.ethereum (.start rfl) hfirst) hsecond)).mpr ⟨by decide, by decide, _, hmeter, ?_⟩⟩
  decide

/-- Two messages that declare `51000` gas are counted twice. -/
theorem blockRun_counts_twice :
    ∃ s : ChainState Unit, BlockRun chain18
        [.ethereum (cosmosTx [legacyTx 0 21000 [1], legacyTx 1 30000 [1]] 51000 51000)] s ∧
      s.transient.gasWanted = 102000 ∧
      ¬ ExactGasWanted chain18
        [.ethereum (cosmosTx [legacyTx 0 21000 [1], legacyTx 1 30000 [1]] 51000 51000)] s := by
  obtain ⟨priority, s', hrun, hwanted⟩ := exists_of_okWith
    (p := fun _ (s' : ChainState Unit) => s'.transient.gasWanted = 102000)
    (r := (anteHandle chain18 .deliver
      (cosmosTx [legacyTx 0 21000 [1], legacyTx 1 30000 [1]] 51000
        51000)).run (chainState 100000)) (by decide +kernel)
  refine ⟨s', .ethereum (.start rfl) hrun, hwanted, ?_⟩
  intro hexact
  have honce := hexact.once
  rw [hwanted] at honce
  revert honce
  decide

end TacEvm
