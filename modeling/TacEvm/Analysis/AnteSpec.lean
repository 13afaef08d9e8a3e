import TacEvm.Analysis.Bank
import TacEvm.Model.Ante

/-!
# What the ante handler does when it accepts

What the success of every step of the handler means. The theorems about totals, gas wanted, fees and
nonces only use `anteHandleMsg_ok` and `anteHandle_ok`.
-/

namespace TacEvm

open FallibleState KeeperM

variable {Ω : Type}

/-! ## Sending the EVM coin -/

namespace Bank

variable {env : Env} {st st' : Store Ω}

theorem sent_zero (st : Store Ω) (src dst : Address) (d : Denom) : sent st src dst d 0 = st := by
  simp only [sent, Nat.sub_zero, Store.setBankBalance_self, Nat.add_zero]

end Bank

theorem sendConverted_single (env : Env) (send : Denom → ℤ → KeeperM Ω Unit) (amt : ℤ) :
    sendConverted env send [{ denom := env.evmDenom, amount := amt }] =
      if env.convertAmountFrom18Decimals amt = 0 then pure ()
      else send env.evmDenom (env.convertAmountFrom18Decimals amt) := by
  simp only [sendConverted, convertCoinsFrom18Decimals, List.map_cons, List.map_nil, if_true,
    Coins.isZero, List.all_cons, List.all_nil, Bool.and_true, decide_eq_true_eq]
  split
  · rfl
  · exact bind_pure_unit

theorem Env.convertAmountFrom18Decimals_eq (env : Env) {amt : ℤ} (h : 0 ≤ amt) :
    env.convertAmountFrom18Decimals amt = amt / env.conversionFactor :=
  Int.tdiv_eq_ediv_of_nonneg h

/-- The number of bank units in an amount of the EVM. -/
def Env.bankAmount (env : Env) (amt : ℤ) : ℕ := (amt / env.conversionFactor).toNat

/-- **What is sent**: the bank units in an amount of the EVM. -/
theorem sendConverted_sent {env : Env} {send : Denom → ℤ → KeeperM Ω Unit} {src dst : Address}
    {amt : ℤ} {st st' : Store Ω} (hpos : 0 < amt)
    (hsend : ∀ n, (send env.evmDenom n).run st = .ok () st' →
      n.toNat ≤ st.balance src env.evmDenom ∧ st' = Bank.sent st src dst env.evmDenom n.toNat)
    (h : (sendConverted env send [{ denom := env.evmDenom, amount := amt }]).run st = .ok () st') :
    env.bankAmount amt ≤ st.balance src env.evmDenom ∧
      st' = Bank.sent st src dst env.evmDenom (env.bankAmount amt) := by
  have hconv := env.convertAmountFrom18Decimals_eq hpos.le
  rw [sendConverted_single] at h
  split at h
  · rename_i hzero
    have hnone : env.bankAmount amt = 0 := by
      rw [Env.bankAmount, ← hconv, hzero]
      rfl
    cases h
    rw [hnone, Bank.sent_zero]
    exact ⟨Nat.zero_le _, rfl⟩
  · have hsent := hsend _ h
    rw [hconv] at hsent
    exact hsent

variable {chain : Chain} {mode : Mode} {st st' : Store Ω} {s s' : ChainState Ω}

/-- The store with an account for an address that has none. -/
def Store.withAccount (st : Store Ω) (addr : Address) : Store Ω :=
  if st.sequence addr = none then st.setSequence addr (some 0) else st

variable {sender : Address} {txData : TxData}

theorem verifyAccountBalance_ok (h : (verifyAccountBalance chain sender txData).run st = .ok () st')
    : st' = st.withAccount sender := by
  obtain ⟨-, hrest⟩ := ensure_bind_ok.mp h
  have haccount : st.getAccount chain.env sender = none ↔ st.sequence sender = none := by
    simp [Store.getAccount]
  unfold Store.withAccount
  by_cases hnone : st.sequence sender = none
  · rw [if_pos (haccount.mpr hnone)] at hrest
    obtain ⟨-, rfl⟩ := check_ok.mp (mapError_ok.mp hrest)
    rw [if_pos hnone]
  · rw [if_neg (haccount.not.mpr hnone)] at hrest
    obtain ⟨-, rfl⟩ := check_ok.mp (mapError_ok.mp hrest)
    rw [if_neg hnone]

theorem canTransfer_ok {msg : Message} (h : (canTransfer chain msg).run st = .ok () st') :
    st' = st := by
  unfold canTransfer at h
  split at h
  · obtain ⟨baseFee, -, hrest⟩ := check_bind_ok.mp h
    obtain ⟨-, hlast⟩ := ensure_bind_ok.mp hrest
    exact (ensure_ok.mp hlast).2
  · exact (ensure_ok.mp h).2

theorem effectiveFee_ok {baseFee : Option ℤ} {feeAmt : ℤ}
    (h : txData.effectiveFee baseFee = .ok feeAmt) :
    ∃ p, txData.effectiveGasPrice baseFee = .ok p ∧ feeAmt = p * txData.getGas.toNat := by
  obtain ⟨p, hprice, h⟩ := except_bind_ok.mp h
  cases h
  exact ⟨p, hprice, rfl⟩

theorem verifyFee_ok {fees : Coins} (h : verifyFee chain mode txData = .ok fees) :
    ∃ feeAmt, txData.effectiveFee chain.getBaseFee = .ok feeAmt ∧
      fees = if feeAmt = 0 then [] else [{ denom := chain.env.evmDenom, amount := feeAmt }] := by
  obtain ⟨_, -, hcap⟩ := except_bind_ok.mp h
  obtain ⟨_, -, hfee⟩ := except_bind_ok.mp hcap
  obtain ⟨feeAmt, heffective, hcoins⟩ := except_bind_ok.mp hfee
  refine ⟨feeAmt, heffective, ?_⟩
  split at hcoins
  · rename_i hzero
    rw [if_pos hzero]
    exact (Except.ok.inj hcoins).symm
  · rename_i hzero
    rw [if_neg hzero]
    exact (Except.ok.inj hcoins).symm

/-- **The fee of a message**: the effective price for the gas limit, scaled down. -/
theorem deductFees_ok {fees : Coins} (hfees : verifyFee chain mode txData = .ok fees)
    (h : (deductFees chain fees sender).run st = .ok () st') :
    ∃ p, txData.effectiveGasPrice chain.getBaseFee = .ok p ∧ 0 ≤ p * txData.getGas.toNat ∧
      chain.env.bankAmount (p * txData.getGas.toNat) ≤ st.balance sender chain.env.evmDenom ∧
      st' = Bank.sent st sender chain.feeCollector chain.env.evmDenom
        (chain.env.bankAmount (p * txData.getGas.toNat)) := by
  obtain ⟨feeAmt, heffective, rfl⟩ := verifyFee_ok hfees
  obtain ⟨p, hprice, rfl⟩ := effectiveFee_ok heffective
  refine ⟨p, hprice, ?_⟩
  generalize p * (txData.getGas.toNat : ℤ) = feeAmt at h
  by_cases hzero : feeAmt = 0
  · subst hzero
    cases h
    have hnone : chain.env.bankAmount 0 = 0 := by simp [Env.bankAmount]
    rw [hnone, Bank.sent_zero]
    exact ⟨le_refl 0, Nat.zero_le _, rfl⟩
  · rw [if_neg hzero] at h
    have hcoins : ¬ Coins.isZero [{ denom := chain.env.evmDenom, amount := feeAmt }] := by
      simpa [Coins.isZero] using hzero
    rw [deductFees, if_neg hcoins] at h
    simp only [deductTxCostsFromUserBalance, mapError_ok, run_get_bind] at h
    obtain ⟨-, hdeduct⟩ := ensure_bind_ok.mp h
    obtain ⟨hpositive, hsend⟩ := ensure_bind_ok.mp (mapError_ok.mp hdeduct)
    have hpos : 0 < feeAmt := hpositive _ List.mem_cons_self
    refine ⟨hpos.le, sendConverted_sent hpos ?_ (mapError_ok.mp hsend)⟩
    intro n hn
    obtain ⟨-, hle, hst⟩ := Bank.sendCoins_ok hn
    exact ⟨by omega, hst⟩

theorem incrementNonce_ok {nonce : UInt64} :
    (incrementNonce sender nonce).run st = .ok () st' ↔
      st.sequence sender = some nonce ∧ st' = st.setSequence sender (some (nonce + 1)) := by
  simp only [incrementNonce, run_get_bind]
  cases hseq : st.sequence sender with
  | none => simp
  | some seq =>
    constructor
    · intro h
      obtain ⟨rfl, hset⟩ := ensure_bind_ok.mp h
      cases hset
      exact ⟨rfl, rfl⟩
    · rintro ⟨hnonce, rfl⟩
      cases hnonce
      exact bind_ok.mpr ⟨(), st, ensure_ok.mpr ⟨rfl, rfl⟩, rfl⟩

/-- The gas the block is said to want after `CheckGasWanted`. -/
def Transient.addGasWanted (t : Transient) (chain : Chain) (gas : UInt64) : Transient :=
  if chain.rules.isLondon ∧ chain.getBaseFeeEnabled then
    { t with gasWanted := t.gasWanted + gas }
  else t

variable {tx : CosmosTx}

theorem checkGasWanted_ok (h : (checkGasWanted chain tx).run s = .ok () s') :
    (chain.rules.isLondon → tx.fee.gasLimit ≤ blockGasLimit chain s) ∧
      s' = { s with transient := s.transient.addGasWanted chain tx.fee.gasLimit } := by
  unfold checkGasWanted at h
  by_cases hlondon : chain.rules.isLondon = true
  · simp only [hlondon, Bool.not_true, Bool.false_eq_true, if_false, run_get_bind] at h
    obtain ⟨hle, hadd⟩ := require_bind_ok.mp h
    refine ⟨fun _ => hle, ?_⟩
    unfold Transient.addGasWanted
    by_cases henabled : chain.getBaseFeeEnabled = true
    · rw [if_pos henabled] at hadd
      cases hadd
      simp [hlondon, henabled]
    · rw [if_neg henabled] at hadd
      cases hadd
      simp [henabled]
  · simp only [hlondon, Bool.not_false, if_true] at h
    cases h
    refine ⟨fun hl => absurd hl hlondon, ?_⟩
    simp [Transient.addGasWanted, hlondon]

theorem checkMessage_ok {ethMsg : MsgEthereumTx}
    (h : checkMessage chain mode ethMsg txData = .ok sender) :
    chain.sender txData = .ok sender := by
  obtain ⟨_, -, hmempool⟩ := except_bind_ok.mp h
  obtain ⟨_, -, heffective⟩ := except_bind_ok.mp hmempool
  obtain ⟨_, -, hglobal⟩ := except_bind_ok.mp heffective
  obtain ⟨_, -, hvalidate⟩ := except_bind_ok.mp hglobal
  obtain ⟨_, -, hsignature⟩ := except_bind_ok.mp hvalidate
  unfold signatureVerification at hsignature
  split at hsignature
  · cases hsignature
  split at hsignature
  · cases hsignature
  · rename_i recovered hsender
    cases hsignature
    exact hsender

/-- A message, its sender, the most it pays and the price. -/
structure Signed where
  txData : TxData
  sender : Address
  maxFee : ℤ
  price : ℤ

/-- The bank units that are deducted for a message. -/
def Signed.deducted (m : Signed) (env : Env) : ℕ :=
  env.bankAmount (m.price * m.txData.getGas.toNat)

/-- A message the handler accepts, and what accepting it leaves. -/
structure Accepted (chain : Chain) (mode : Mode) (tx : CosmosTx) (msg : Msg) (m : Signed)
    (utils utils' : DecoratorUtils) (s s' : ChainState Ω) : Prop where
  unpacked : ∃ ethMsg, unpackEthMsg msg = .ok (ethMsg, m.txData)
  signed : chain.sender m.txData = .ok m.sender
  fee : m.txData.fee = .ok m.maxFee
  price : m.txData.effectiveGasPrice chain.getBaseFee = .ok m.price
  nonneg : 0 ≤ m.price * m.txData.getGas.toNat
  enough : m.deducted chain.env ≤ s.ctx.store.balance m.sender chain.env.evmDenom
  nonce : (s.ctx.store.sequence m.sender).getD 0 = m.txData.getNonce
  store : s'.ctx.store =
    (Bank.sent (s.ctx.store.withAccount m.sender) m.sender chain.feeCollector chain.env.evmDenom
      (m.deducted chain.env)).setSequence m.sender (some (m.txData.getNonce + 1))
  transient : s'.transient = s.transient.addGasWanted chain tx.fee.gasLimit
  gasMeter : s'.gasMeter = s.gasMeter
  blockGasMeter : s'.blockGasMeter = s.blockGasMeter
  txGasLimit : utils'.txGasLimit = utils.txGasLimit + m.txData.getGas
  gasWanted : utils'.gasWanted =
    updateCumulativeGasWanted chain mode m.txData.getGas utils.gasWanted
  txFee : utils'.txFee = utils.txFee + m.maxFee

theorem Store.balance_withAccount (st : Store Ω) (addr : Address) :
    (st.withAccount addr).balance = st.balance := by
  unfold Store.withAccount
  split
  · rfl
  · rfl

theorem Store.sequence_withAccount (st : Store Ω) (addr : Address) :
    (st.withAccount addr).sequence addr = some ((st.sequence addr).getD 0) := by
  unfold Store.withAccount
  cases hseq : st.sequence addr with
  | none => simp [Store.setSequence]
  | some seq => simp [hseq]

@[simp]
theorem Bank.sequence_sent (st : Store Ω) (src dst : Address) (d : Denom) (n : ℕ) :
    (Bank.sent st src dst d n).sequence = st.sequence := rfl

variable {utils utils' : DecoratorUtils}

/-- **A round of the loop.** -/
theorem anteHandleMsg_ok {blockTxIndex : ℕ} {indexed : Msg × ℕ}
    (h : (anteHandleMsg chain mode tx blockTxIndex utils indexed).run s = .ok utils' s') :
    ∃ m, Accepted chain mode tx indexed.1 m utils utils' s s' ∧
      ∃ ethMsg fees, unpackEthMsg indexed.1 = .ok (ethMsg, m.txData) ∧
        s'.ctx.events = s.ctx.events ++ [{ kind := "tx", attributes := [("fee", fees)] },
          { kind := "ethereum_tx", attributes := [("ethereumTxHash", ethMsg.hash),
            ("txIndex", toString (blockTxIndex + indexed.2))] }] := by
  obtain ⟨⟨ethMsg, txData⟩, s₁, hunpack, h₁⟩ := bind_ok.mp h
  obtain ⟨hunpacked, rfl⟩ := fromExcept_ok.mp hunpack
  obtain ⟨sender, hmessage, h₂⟩ := fromExcept_bind_ok.mp h₁
  obtain ⟨_, s₃, hverify, h₃⟩ := bind_ok.mp h₂
  obtain ⟨st₃, haccount, rfl⟩ := ChainM.onStore_ok.mp hverify
  obtain ⟨_, s₄, hcan, h₄⟩ := bind_ok.mp h₃
  obtain ⟨st₄, htransfer, rfl⟩ := ChainM.onStore_ok.mp hcan
  obtain ⟨msgFees, hmsgFees, h₅⟩ := fromExcept_bind_ok.mp h₄
  obtain ⟨_, s₆, hconsume, h₆⟩ := bind_ok.mp h₅
  obtain ⟨_, s₇, hdeduct, hevent⟩ := bind_ok.mp hconsume
  obtain ⟨st₇, hdeducted, rfl⟩ := ChainM.onStore_ok.mp hdeduct
  cases hevent
  obtain ⟨priority, -, h₈⟩ := fromExcept_bind_ok.mp h₆
  obtain ⟨maxFee, hmaxFee, h₉⟩ := fromExcept_bind_ok.mp h₈
  obtain ⟨_, s₁₀, hnonce, h₁₀⟩ := bind_ok.mp h₉
  obtain ⟨st₁₀, hincrement, rfl⟩ := ChainM.onStore_ok.mp hnonce
  obtain ⟨_, s₁₁, hwanted, h₁₁⟩ := bind_ok.mp h₁₀
  obtain ⟨-, rfl⟩ := checkGasWanted_ok hwanted
  cases h₁₁
  -- the store, step by step
  have hst₃ := verifyAccountBalance_ok haccount
  have hst₄ := canTransfer_ok htransfer
  obtain ⟨p, hprice, hnonneg, henough, hst₇⟩ := deductFees_ok hmsgFees hdeducted
  obtain ⟨hseq, hst₁₀⟩ := incrementNonce_ok.mp hincrement
  subst hst₃ hst₄ hst₇ hst₁₀
  rw [Store.balance_withAccount] at henough
  rw [Bank.sequence_sent, Store.sequence_withAccount] at hseq
  exact ⟨⟨txData, sender, maxFee, p⟩,
    { unpacked := ⟨ethMsg, hunpacked⟩
      signed := checkMessage_ok hmessage
      fee := hmaxFee
      price := hprice
      nonneg := hnonneg
      enough := henough
      nonce := Option.some.inj hseq
      store := rfl
      transient := rfl
      gasMeter := rfl
      blockGasMeter := rfl
      txGasLimit := rfl
      gasWanted := rfl
      txFee := rfl },
    ethMsg, msgFees.text, hunpacked, List.append_assoc _ _ _⟩

/-- A list of messages the handler accepts one after the other. -/
inductive AcceptedRun (chain : Chain) (mode : Mode) (tx : CosmosTx) :
    List Msg → List Signed → DecoratorUtils → DecoratorUtils → ChainState Ω → ChainState Ω → Prop
  | nil (utils : DecoratorUtils) (s : ChainState Ω) :
      AcceptedRun chain mode tx [] [] utils utils s s
  | cons {msg : Msg} {msgs : List Msg} {m : Signed} {ms : List Signed}
      {utils utils₁ utils' : DecoratorUtils} {s s₁ s' : ChainState Ω}
      (head : Accepted chain mode tx msg m utils utils₁ s s₁)
      (tail : AcceptedRun chain mode tx msgs ms utils₁ utils' s₁ s') :
      AcceptedRun chain mode tx (msg :: msgs) (m :: ms) utils utils' s s'

/-- **The loop.** -/
theorem anteHandleMsgs_ok {blockTxIndex : ℕ} {msgs : List Msg} {k : ℕ}
    (h : ((msgs.zipIdx k).foldlM (anteHandleMsg chain mode tx blockTxIndex) utils).run s =
      .ok utils' s') : ∃ ms, AcceptedRun chain mode tx msgs ms utils utils' s s' := by
  induction msgs generalizing k utils s with
  | nil =>
    cases h
    exact ⟨[], .nil _ _⟩
  | cons msg msgs ih =>
    rw [List.zipIdx_cons, List.foldlM_cons] at h
    obtain ⟨utils₁, s₁, hround, hrest⟩ := bind_ok.mp h
    obtain ⟨m, hhead, -⟩ := anteHandleMsg_ok hround
    obtain ⟨ms, htail⟩ := ih hrest
    exact ⟨m :: ms, .cons hhead htail⟩

/-- A transaction the handler accepts. -/
structure AcceptedTx (chain : Chain) (mode : Mode) (tx : CosmosTx) (ms : List Signed)
    (utils : DecoratorUtils) (s s' : ChainState Ω) : Prop where
  run : ∃ utils₀ s₀ s₁, AcceptedRun chain mode tx tx.msgs ms utils₀ utils s₀ s₁ ∧
    s' = { s₁ with gasMeter := { limit := utils.gasWanted, consumed := 0 } } ∧
    utils₀.txGasLimit = 0 ∧ utils₀.gasWanted = 0 ∧ utils₀.txFee = 0 ∧
    s₀.ctx = s.ctx ∧ s₀.transient = { s.transient with gasUsed := 0 }
  declared : mode.isReCheckTx = false →
    tx.fee.amount.searchAmountOf chain.env.evmDenom =
        chain.env.convertAmountFrom18Decimals utils.txFee ∧
      tx.fee.gasLimit = utils.txGasLimit
  blockGas : utils.gasWanted ≤ blockGasLimit chain s

theorem AcceptedRun.blockGasMeter {msgs : List Msg} {ms : List Signed}
    (h : AcceptedRun chain mode tx msgs ms utils utils' s s') :
    s'.blockGasMeter = s.blockGasMeter := by
  induction h with
  | nil utils s => rfl
  | cons head tail ih => exact ih.trans head.blockGasMeter

theorem validateTx_ok {info : Fee} (h : validateTx tx = .ok info) : info = tx.fee := by
  unfold validateTx at h
  split at h
  · cases h
  split at h
  · cases h
  split at h
  · cases h
  split at h
  · cases h
  split at h
  · cases h
  · split at h
    · cases h
    · cases h
      rfl

theorem basicValidation_ok {info : Option Fee} (h : basicValidation mode tx = .ok info)
    (hdeliver : mode.isReCheckTx = false) : info = some tx.fee := by
  rw [basicValidation, hdeliver] at h
  cases hvalid : validateTx tx with
  | error e =>
    rw [hvalid] at h
    cases h
  | ok fee =>
    rw [hvalid] at h
    cases h
    rw [validateTx_ok hvalid]

theorem checkTxFee_ok {info : Fee} {txFee : ℤ} {txGasLimit : UInt64}
    (h : checkTxFee chain (some info) txFee txGasLimit = .ok ()) :
    info.amount.searchAmountOf chain.env.evmDenom =
        chain.env.convertAmountFrom18Decimals txFee ∧ info.gasLimit = txGasLimit := by
  unfold checkTxFee at h
  dsimp only at h
  split at h
  · cases h
  rename_i hamount
  split at h
  · cases h
  · rename_i hgas
    exact ⟨not_not.mp hamount, not_not.mp hgas⟩

/-- What the handler does around the loop from `s₀` to `s₁`. -/
structure LoopHandled (chain : Chain) (mode : Mode) (tx : CosmosTx)
    (utils₀ utils : DecoratorUtils) (s₀ s₁ s s' : ChainState Ω) : Prop where
  setUp : s₀ = { s with
    transient := { s.transient with gasUsed := 0 }
    gasMeter := { limit := 18446744073709551615, consumed := 0 } }
  zero : utils₀ = { txGasLimit := 0, gasWanted := 0, minPriority := 2 ^ 63 - 1, txFee := 0 }
  loop : (tx.msgs.zipIdx.foldlM (anteHandleMsg chain mode tx s₀.transient.txIndex) utils₀).run
    s₀ = .ok utils s₁
  declared : ∃ info, basicValidation mode tx = .ok info ∧
    checkTxFee chain info utils.txFee utils.txGasLimit = .ok ()
  blockGas : utils.gasWanted ≤ blockGasLimit chain s₁
  metered : s' = { s₁ with gasMeter := { limit := utils.gasWanted, consumed := 0 } }

theorem anteHandle_loop {priority : ℤ} (h : (anteHandle chain mode tx).run s = .ok priority s') :
    ∃ utils₀ utils s₀ s₁, LoopHandled chain mode tx utils₀ utils s₀ s₁ s s' := by
  obtain ⟨txFeeInfo, hbasic, h₁⟩ := fromExcept_bind_ok.mp h
  obtain ⟨utils₀, hnew, h₂⟩ := fromExcept_bind_ok.mp h₁
  obtain ⟨utils, s₃, hloop, h₃⟩ := bind_ok.mp h₂
  obtain ⟨_, hcheckFee, h₄⟩ := fromExcept_bind_ok.mp h₃
  obtain ⟨_, s₅, hblock, hreturn⟩ := bind_ok.mp h₄
  obtain ⟨hle, hmeter⟩ := require_bind_ok.mp hblock
  cases hmeter
  cases hreturn
  refine ⟨utils₀, utils, _, s₃,
    { setUp := rfl
      zero := ?_
      loop := hloop
      declared := ⟨txFeeInfo, hbasic, hcheckFee⟩
      blockGas := hle
      metered := rfl }⟩
  unfold newMonoDecoratorUtils at hnew
  split at hnew
  · cases hnew
  · exact (Except.ok.inj hnew).symm

/-- **An accepted transaction.** -/
theorem anteHandle_ok {priority : ℤ} (h : (anteHandle chain mode tx).run s = .ok priority s') :
    ∃ ms utils, AcceptedTx chain mode tx ms utils s s' := by
  obtain ⟨utils₀, utils, s₀, s₁, hhandled⟩ := anteHandle_loop h
  obtain ⟨ms, hrun⟩ := anteHandleMsgs_ok hhandled.loop
  obtain ⟨info, hbasic, hcheckFee⟩ := hhandled.declared
  obtain rfl := hhandled.setUp
  obtain rfl := hhandled.zero
  have hlimit : blockGasLimit chain s₁ = blockGasLimit chain s := by
    unfold blockGasLimit
    rw [hrun.blockGasMeter]
  refine ⟨ms, utils, ⟨_, _, _, hrun, hhandled.metered, rfl, rfl, rfl, rfl, rfl⟩, ?_,
    hlimit ▸ hhandled.blockGas⟩
  intro hdeliver
  rw [basicValidation_ok hbasic hdeliver] at hcheckFee
  exact checkTxFee_ok hcheckFee

end TacEvm
