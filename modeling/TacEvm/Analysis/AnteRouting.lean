import TacEvm.Analysis.AuthzLimiter
import TacEvm.Analysis.FeeConservation
import TacEvm.Analysis.MethodEffects
import TacEvm.Analysis.ReplayProtection

/-!
# Where Ethereum messages are checked

An Ethereum message that the application accepts was checked by `MonoDecorator`, whatever the
extension options of its transaction are and whatever is wrapped around it.
-/

namespace TacEvm

open FallibleState Devnet

variable {Ω : Type} {chain : Chain} {decorators : Mode → AppTx → ChainM Ω ℤ} {mode : Mode}
  {tx : AppTx} {s s' : ChainState Ω} {priority : ℤ}

/-! ## Transactions of the SDK -/

theorem rejectMessages_ok (h : rejectMessages tx = .ok ()) (m : MsgEthereumTx) :
    SdkMsg.ethereumTx m ∉ tx.msgs := by
  unfold rejectMessages at h
  split at h
  · cases h
  · rename_i hnone
    intro hm
    exact hnone (List.any_eq_true.mpr ⟨_, hm, rfl⟩)

theorem anteCheck_ok {disabled : List String} (h : AuthzLimiter.anteCheck disabled tx = .ok ()) :
    AuthzLimiter.checkDisabledMsgs disabled tx.msgs false 1 = .ok () := by
  unfold AuthzLimiter.anteCheck at h
  split at h
  · cases h
  · assumption

/-- **No Ethereum message at any depth** on the other way. -/
theorem newCosmosAnteHandler_ok
    (h : (newCosmosAnteHandler decorators mode tx).run s = .ok priority s') (m : MsgEthereumTx)
    (depth : ℕ) : ¬ (SdkMsg.ethereumTx m).OccursAt depth tx.msgs := by
  obtain ⟨_, hrejected, h₁⟩ := fromExcept_bind_ok.mp h
  obtain ⟨_, s₂, hlimit, -⟩ := bind_ok.mp h₁
  obtain ⟨hlimited, rfl⟩ := fromExcept_ok.mp hlimit
  intro hoccurs
  cases depth with
  | zero =>
    cases hoccurs with
    | here hmem => exact rejectMessages_ok hrejected m hmem
  | succ depth =>
    exact AuthzLimiter.checkDisabledMsgs_inner (by decide) (by decide) (anteCheck_ok hlimited)
      hoccurs List.mem_cons_self

theorem validateTx_extensionOptions {cosmosTx : CosmosTx} {info : Fee}
    (h : validateTx cosmosTx = .ok info) : cosmosTx.extensionOptions = 1 := by
  unfold validateTx at h
  split at h
  · cases h
  split at h
  · cases h
  · split at h
    · cases h
    · rename_i hone
      exact not_not.mp hone

theorem anteHandle_extensionOptions {cosmosTx : CosmosTx} (hmode : mode.isReCheckTx = false)
    (h : (anteHandle chain mode cosmosTx).run s = .ok priority s') :
    cosmosTx.extensionOptions = 1 := by
  obtain ⟨info, s₁, hvalidate, -⟩ := bind_ok.mp h
  obtain ⟨hbasic, -⟩ := fromExcept_ok.mp hvalidate
  rw [basicValidation, hmode] at hbasic
  obtain ⟨fee, hvalid, -⟩ := except_map_ok.mp hbasic
  exact validateTx_extensionOptions hvalid

theorem SdkMsg.toMsg_eq_ethereumTx {msg : SdkMsg} {m : MsgEthereumTx}
    (h : msg.toMsg = .ethereumTx m) : msg = .ethereumTx m := by
  cases msg with
  | ethereumTx m' =>
    cases h
    rfl
  | _ => cases h

theorem unpackEthMsg_ok {msg : Msg} {ethMsg : MsgEthereumTx} {txData : TxData}
    (h : unpackEthMsg msg = .ok (ethMsg, txData)) :
    msg = .ethereumTx ethMsg ∧ ethMsg.data = .ok txData := by
  cases msg with
  | other typeName => cases h
  | ethereumTx m =>
    unfold unpackEthMsg at h
    dsimp only at h
    split at h
    · cases h
    · cases h
      exact ⟨rfl, by assumption⟩

/-- A message with what the handler found out, and its signature verified. -/
def Verified (chain : Chain) (msg : SdkMsg) (m : Signed) : Prop :=
  ∃ ethMsg, msg = .ethereumTx ethMsg ∧ ethMsg.data = .ok m.txData ∧
    chain.sender m.txData = .ok m.sender ∧
    m.txData.effectiveGasPrice chain.getBaseFee = .ok m.price

/-- The payment of the fee of a message. -/
def Signed.feePayment (m : Signed) (chain : Chain) : Ledger.Payment Address Denom :=
  Coin.payment ⟨chain.env.evmDenom, m.deducted chain.env⟩ m.sender chain.feeCollector

section Runs

variable {cosmosTx : CosmosTx} {ms : List Signed} {utils utils' : DecoratorUtils}

theorem AcceptedRun.verified {msgs : List SdkMsg}
    (h : AcceptedRun chain mode cosmosTx (msgs.map SdkMsg.toMsg) ms utils utils' s s') :
    List.Forall₂ (Verified chain) msgs ms := by
  induction msgs generalizing ms utils s with
  | nil =>
    cases h
    exact .nil
  | cons msg msgs ih =>
    cases h with
    | cons head tail =>
      obtain ⟨ethMsg, hunpack⟩ := head.unpacked
      obtain ⟨heth, hdata⟩ := unpackEthMsg_ok hunpack
      exact .cons ⟨ethMsg, SdkMsg.toMsg_eq_ethereumTx heth, hdata, head.signed, head.price⟩
        (ih tail)

theorem Accepted.settles {msg : Msg} {m : Signed}
    (h : Accepted chain mode cosmosTx msg m utils utils' s s') :
    Ledger.Settles [m.feePayment chain] s.ctx.store.ledger s'.ctx.store.ledger := by
  obtain ⟨henough, hbalances⟩ := h.paid
  have hledger : s'.ctx.store.ledger = (Bank.sent s.ctx.store m.sender chain.feeCollector
      chain.env.evmDenom (m.deducted chain.env)).ledger := by
    unfold Store.ledger
    rw [hbalances]
  rw [hledger]
  exact Bank.sent_settles henough

theorem AcceptedRun.settles {msgs : List Msg}
    (h : AcceptedRun chain mode cosmosTx msgs ms utils utils' s s') :
    Ledger.Settles (ms.map fun m => m.feePayment chain) s.ctx.store.ledger s'.ctx.store.ledger := by
  induction h with
  | nil utils s => exact Ledger.Settles.refl _
  | cons head tail ih => exact head.settles.trans ih

end Runs

/-- Signatures and nonces were right; each message made one increment and paid one fee. -/
structure CheckedOnce (chain : Chain) (msgs : List SdkMsg) (ms : List Signed)
    (s s' : ChainState Ω) : Prop where
  verified : List.Forall₂ (Verified chain) msgs ms
  nonceMatched : ∀ pre m post, ms = pre ++ m :: post →
    m.txData.getNonce = s.nonce m.sender + UInt64.ofNat (pre.countP fun m' => m'.sender = m.sender)
  nonceIncremented : ∀ a, s'.nonce a = s.nonce a + UInt64.ofNat (ms.countP fun m => m.sender = a)
  feesDeducted : Ledger.Settles (ms.map fun m => m.feePayment chain) s.ctx.store.ledger
    s'.ctx.store.ledger

/-- An Ethereum transaction, checked as such. -/
structure EthereumTxChecked (chain : Chain) (tx : AppTx) (s s' : ChainState Ω) : Prop where
  option : tx.extensionOptions = [extensionOptionsEthereumTx]
  messages : ∀ msg ∈ tx.msgs, ∃ m, msg = .ethereumTx m
  topLevel : ∀ m depth, (SdkMsg.ethereumTx m).OccursAt depth tx.msgs → depth = 0
  checked : ∃ ms, CheckedOnce chain tx.msgs ms s s'

theorem AcceptedTx.checkedOnce {ms : List Signed} {utils : DecoratorUtils}
    (h : AcceptedTx chain mode tx.toCosmosTx ms utils s s') :
    CheckedOnce chain tx.msgs ms s s' := by
  obtain ⟨utils₀, s₀, s₁, hrun, rfl, -, -, -, hctx, -⟩ := h.run
  have hverified := hrun.verified
  refine ⟨hverified, ?_, ?_, ?_⟩
  · intro pre m post hms
    rw [hrun.nonce hms, hctx]
    rfl
  · intro a
    have hsequence := (hrun.sequence a).1
    rw [hctx] at hsequence
    exact hsequence
  · have hsettles := hrun.settles
    rw [hctx] at hsettles
    exact hsettles

theorem ethereumTxs_of_verified {msgs : List SdkMsg} {ms : List Signed}
    (h : List.Forall₂ (Verified chain) msgs ms) : ∀ msg ∈ msgs, ∃ m, msg = .ethereumTx m := by
  induction h with
  | nil => exact fun msg hmem => absurd hmem List.not_mem_nil
  | cons head tail ih =>
    obtain ⟨ethMsg, heth, -⟩ := head
    exact List.forall_mem_cons.mpr ⟨⟨ethMsg, heth⟩, ih⟩

theorem occursAt_of_ethereumTxs {msgs : List SdkMsg} (h : ∀ msg ∈ msgs, ∃ m, msg = .ethereumTx m)
    {m : SdkMsg} {depth : ℕ} (hm : m.OccursAt depth msgs) : depth = 0 := by
  cases hm with
  | here hmem => rfl
  | inside hexec hinner =>
    obtain ⟨m', heq⟩ := h _ hexec
    cases heq

/-- **The two ways through the application**: checked Ethereum messages, or none at any depth. -/
theorem newAnteHandler_ok (hmode : mode.isReCheckTx = false)
    (h : (newAnteHandler chain decorators mode tx).run s = .ok priority s') :
    EthereumTxChecked chain tx s s' ∨
      tx.extensionOptions ≠ [extensionOptionsEthereumTx] ∧
        ∀ m depth, ¬ (SdkMsg.ethereumTx m).OccursAt depth tx.msgs := by
  unfold newAnteHandler at h
  split at h
  · rename_i hoptions
    refine .inr ⟨?_, newCosmosAnteHandler_ok h⟩
    rw [hoptions]
    exact (List.cons_ne_nil _ _).symm
  rename_i typeURL rest hoptions
  split at h
  · rename_i heth
    subst heth
    have hone := anteHandle_extensionOptions hmode h
    obtain ⟨ms, utils, haccepted⟩ := anteHandle_ok h
    have hchecked := haccepted.checkedOnce
    have hmessages := ethereumTxs_of_verified hchecked.verified
    refine .inl ⟨?_, hmessages, fun m depth => occursAt_of_ethereumTxs hmessages, ms, hchecked⟩
    have hlength : (extensionOptionsEthereumTx :: rest).length = 1 := by
      rw [← hoptions]
      exact hone
    rw [hoptions, List.length_eq_zero_iff.mp (Nat.succ.inj hlength)]
  · rename_i heth
    split at h
    · refine .inr ⟨?_, newCosmosAnteHandler_ok h⟩
      rw [hoptions]
      exact fun heq => heth (List.cons.inj heq).1
    · cases h

/-- **No Ethereum message bypasses the checks**: where one occurs, all are, and are checked. -/
theorem ethereumTx_checked (hmode : mode.isReCheckTx = false)
    (h : (newAnteHandler chain decorators mode tx).run s = .ok priority s') {m : MsgEthereumTx}
    {depth : ℕ} (hm : (SdkMsg.ethereumTx m).OccursAt depth tx.msgs) :
    EthereumTxChecked chain tx s s' := by
  rcases newAnteHandler_ok hmode h with hchecked | ⟨-, hnone⟩
  · exact hchecked
  · exact absurd hm (hnone m depth)

/-- A transaction of two messages of `0xA1`. -/
def Devnet.appTx : AppTx where
  memo := ""
  timeoutHeight := 0
  extensionOptions := [extensionOptionsEthereumTx]
  nonCriticalExtensionOptions := 0
  signerInfos := 0
  signatures := 0
  fee :=
    { amount := [{ denom := "utac", amount := 51000 }], gasLimit := 51000, payer := "",
      granter := "" }
  msgs := [legacyTx 0 21000 [1], legacyTx 1 30000 [1]].map fun txData =>
    .ethereumTx { data := .ok txData, sender := [], hash := "" }

theorem ethereumTx_checked_devnet :
    ∃ priority s', (newAnteHandler chain18 (fun _ _ => pure 0) .deliver
        appTx).run (chainState 100000) = .ok priority s' ∧
      EthereumTxChecked chain18 appTx (chainState 100000) s' := by
  obtain ⟨priority, s', hrun, -⟩ := exists_of_okWith (p := fun _ _ => True)
    (r := (newAnteHandler chain18 (fun _ _ => pure 0) .deliver
      appTx).run (chainState 100000)) (by decide +kernel)
  exact ⟨priority, s', hrun, ethereumTx_checked rfl hrun (.here List.mem_cons_self)⟩

end TacEvm
