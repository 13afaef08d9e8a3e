import TacEvm.Analysis.AnteSpec
import TacEvm.Model.StateTransition

/-!
# What a successful transaction does

What it means that a message and a transaction were applied without an error. The theorems about
fees, logs and nonces use these specifications and do not look at the functions again.
-/

namespace TacEvm

open FallibleState

variable {Ω : Type} {chain : Chain} {evm : Evm Ω}

variable {msg : Message}

/-- What is run for a message: the access list, then the EVM. -/
theorem execute_cases {gas : UInt64} {s db : StateDB Ω} {outcome : Outcome Ω}
    (h : execute chain evm msg gas s = some (db, outcome)) :
    ∃ s₁, s.run chain.env (if chain.rules.isBerlin then
        prepareAccessList msg.sender msg.recipient msg.accessList else []) = some s₁ ∧
      ((msg.recipient = none ∧ ∃ s₂,
          outcome = evm.create msg gas (s₁.setNonce chain.env msg.sender msg.nonce) ∧
          (s₁.setNonce chain.env msg.sender msg.nonce).run chain.env outcome.actions = some s₂ ∧
          db = s₂.setNonce chain.env msg.sender (msg.nonce + 1)) ∨
        (msg.recipient ≠ none ∧ outcome = evm.call msg gas s₁ ∧
          s₁.run chain.env outcome.actions = some db)) := by
  have hprepared : ∃ s₁, s.run chain.env (if chain.rules.isBerlin then
        prepareAccessList msg.sender msg.recipient msg.accessList else []) = some s₁ ∧
      (if msg.recipient = none then
        ((s₁.setNonce chain.env msg.sender msg.nonce).run chain.env
            (evm.create msg gas (s₁.setNonce chain.env msg.sender msg.nonce)).actions).bind
          fun s₂ => some (s₂.setNonce chain.env msg.sender (msg.nonce + 1),
            evm.create msg gas (s₁.setNonce chain.env msg.sender msg.nonce))
      else (s₁.run chain.env (evm.call msg gas s₁).actions).bind
        fun s₂ => some (s₂, evm.call msg gas s₁)) = some (db, outcome) := by
    unfold execute at h
    by_cases hberlin : chain.rules.isBerlin = true
    · rw [if_pos hberlin] at h ⊢
      exact Option.bind_eq_some_iff.mp h
    · rw [if_neg hberlin] at h ⊢
      exact ⟨s, rfl, h⟩
  obtain ⟨s₁, hprepare, hrest⟩ := hprepared
  refine ⟨s₁, hprepare, ?_⟩
  split at hrest
  · rename_i hcreate
    obtain ⟨s₂, hrun, hreturn⟩ := Option.bind_eq_some_iff.mp hrest
    cases hreturn
    exact .inl ⟨hcreate, s₂, rfl, hrun, rfl⟩
  · rename_i hcall
    obtain ⟨s₂, hrun, hreturn⟩ := Option.bind_eq_some_iff.mp hrest
    cases hreturn
    exact .inr ⟨hcall, rfl, hrun⟩

/-- A message that was executed and committed. -/
structure Executed (chain : Chain) (evm : Evm Ω) (msg : Message) (txConfig : TxConfig)
    (res : MsgEthereumTxResponse) (ctx ctx' : Context Ω) (db : StateDB Ω) (outcome : Outcome Ω) :
    Prop where
  run : ∃ intrinsicGas,
    chain.intrinsicGas msg.data msg.accessList (decide (msg.recipient = none)) = .ok intrinsicGas ∧
      execute chain evm msg (msg.gas - intrinsicGas) (StateDB.new ctx txConfig) = some (db, outcome)
  commit : db.commit chain.env = (none, ctx')
  vmError : res.vmError = outcome.vmErr.getD ""
  logs : res.logs = db.logs

theorem orPanic_ok {α σ : Type} {x : Option α} {s s' : σ} {a : α}
    (h : (orPanic x : EStateM Err σ α).run s = .ok a s') : x = some a ∧ s' = s := by
  cases x with
  | none => cases h
  | some b =>
    cases h
    exact ⟨rfl, rfl⟩

variable {ctx ctx' : Context Ω}

theorem commitStateDB_ok {db : StateDB Ω} (h : (commitStateDB chain db).run ctx = .ok () ctx') :
    db.commit chain.env = (none, ctx') := by
  unfold commitStateDB EStateM.run at h
  split at h
  · rename_i ctx₁ hcommit
    cases h
    exact hcommit
  · cases h

/-- A message that was applied without an error. -/
structure MessageApplied (chain : Chain) (evm : Evm Ω) (msg : Message) (commit : Bool)
    (txConfig : TxConfig) (res : MsgEthereumTxResponse) (ctx ctx' : Context Ω)
    (intrinsicGas : UInt64) (db : StateDB Ω) (outcome : Outcome Ω) : Prop where
  intrinsic : chain.intrinsicGas msg.data msg.accessList (decide (msg.recipient = none)) =
    .ok intrinsicGas
  intrinsic_le : intrinsicGas ≤ msg.gas
  run : execute chain evm msg (msg.gas - intrinsicGas) (StateDB.new ctx txConfig) =
    some (db, outcome)
  leftover_le : outcome.leftoverGas ≤ msg.gas
  committed : commit = true → db.commit chain.env = (none, ctx')
  dropped : commit = false → ctx' = ctx
  charged : chargedGas chain msg.gas
      (outcome.leftoverGas + gasToRefund db.getRefund (msg.gas - outcome.leftoverGas)
        (refundQuotient chain))
      (msg.gas - outcome.leftoverGas - gasToRefund db.getRefund (msg.gas - outcome.leftoverGas)
        (refundQuotient chain)) = .ok res.gasUsed
  vmError : res.vmError = outcome.vmErr.getD ""
  ret : res.ret = outcome.ret
  logs : res.logs = db.logs
  hash : res.hash = txConfig.txHash

variable {res : MsgEthereumTxResponse}

/-- **What success means.** -/
theorem applyMessageWithConfig_applied {commit : Bool} {txConfig : TxConfig}
    (h : (applyMessageWithConfig chain evm msg commit txConfig).run ctx = .ok res ctx') :
    ∃ intrinsicGas db outcome,
      MessageApplied chain evm msg commit txConfig res ctx ctx' intrinsicGas db outcome := by
  simp only [applyMessageWithConfig, run_get_bind] at h
  obtain ⟨intrinsicGas, ctx₁, hintrinsic, h₁⟩ := bind_ok.mp h
  obtain ⟨hgas, rfl⟩ := fromExcept_ok.mp (mapError_ok.mp hintrinsic)
  obtain ⟨hgasLe, h₂⟩ := require_bind_ok.mp h₁
  obtain ⟨⟨db, outcome⟩, ctx₃, hexecute, h₃⟩ := bind_ok.mp h₂
  obtain ⟨hrun, rfl⟩ := orPanic_ok hexecute
  obtain ⟨hleftoverLe, h₄⟩ := require_bind_ok.mp h₃
  refine ⟨intrinsicGas, db, outcome, ?_⟩
  -- the charge comes last, whether the state was committed or not
  cases commit with
  | false =>
    rw [if_neg Bool.false_ne_true] at h₄
    obtain ⟨gasUsed, hgasUsed, hreturn⟩ := fromExcept_bind_ok.mp h₄
    cases hreturn
    exact ⟨hgas, hgasLe, hrun, hleftoverLe, fun hfalse => absurd hfalse Bool.false_ne_true,
      fun _ => rfl, hgasUsed, rfl, rfl, rfl, rfl⟩
  | true =>
    rw [if_pos rfl] at h₄
    obtain ⟨_, ctx₅, hcommit, h₅⟩ := bind_ok.mp h₄
    obtain ⟨gasUsed, hgasUsed, hreturn⟩ := fromExcept_bind_ok.mp h₅
    cases hreturn
    exact ⟨hgas, hgasLe, hrun, hleftoverLe, fun _ => commitStateDB_ok (mapError_ok.mp hcommit),
      fun htrue => absurd htrue.symm Bool.false_ne_true, hgasUsed, rfl, rfl, rfl, rfl⟩

theorem applyMessageWithConfig_ok {txConfig : TxConfig}
    (h : (applyMessageWithConfig chain evm msg true txConfig).run ctx = .ok res ctx') :
    ∃ db outcome, Executed chain evm msg txConfig res ctx ctx' db outcome := by
  obtain ⟨intrinsicGas, db, outcome, happlied⟩ := applyMessageWithConfig_applied h
  exact ⟨db, outcome,
    { run := ⟨intrinsicGas, happlied.intrinsic, happlied.run⟩
      commit := happlied.committed rfl
      vmError := happlied.vmError
      logs := happlied.logs }⟩

/-- What the refund takes from the collector. -/
theorem refundGas_ok {leftoverGas : UInt64} {st st' : Store Ω}
    (h : (refundGas chain msg leftoverGas).run st = .ok () st') :
    0 ≤ leftoverGas.toNat * msg.gasPrice ∧
      chain.env.bankAmount (leftoverGas.toNat * msg.gasPrice) ≤
        st.balance chain.feeCollector chain.env.evmDenom ∧
      st' = Bank.sent st chain.feeCollector msg.sender chain.env.evmDenom
        (chain.env.bankAmount (leftoverGas.toNat * msg.gasPrice)) := by
  unfold refundGas at h
  dsimp only at h
  generalize (leftoverGas.toNat : ℤ) * msg.gasPrice = remaining at h ⊢
  split at h
  · cases h
  rename_i hnonneg
  refine ⟨Int.not_lt.mp hnonneg, ?_⟩
  split at h
  · rename_i hpos
    refine sendConverted_sent hpos ?_ (mapError_ok.mp h)
    intro n hn
    unfold Bank.sendCoinsFromModuleToAccount at hn
    split at hn
    · cases hn
    · obtain ⟨-, hle, hst⟩ := Bank.sendCoins_ok hn
      exact ⟨by omega, hst⟩
  · have hnone : chain.env.bankAmount remaining = 0 := by
      have : remaining = 0 := by omega
      simp [this, Env.bankAmount]
    cases h
    rw [hnone, Bank.sent_zero]
    exact ⟨Nat.zero_le _, rfl⟩

/-- The store on which the refund is paid. -/
def MsgEthereumTxResponse.merged (res : MsgEthereumTxResponse) (st tmp : Store Ω) : Store Ω :=
  if res.failed then st else tmp

/-- A transaction that was applied, from `s` to `s'`. -/
structure Applied (chain : Chain) (evm : Evm Ω) (txData : TxData) (sender : Address)
    (res : MsgEthereumTxResponse) (tmpCtx : Context Ω) (s s' : ChainState Ω) : Prop where
  signed : chain.sender txData = .ok sender
  message : ∃ db outcome, Executed chain evm (txData.asMessage sender chain.getBaseFee)
    (loadTxConfig chain s (chain.txHash txData)) res { store := s.ctx.store, events := [] }
    tmpCtx db outcome
  refund : (refundGas chain (txData.asMessage sender chain.getBaseFee)
    (txData.getGas - res.gasUsed)).run (res.merged s.ctx.store tmpCtx.store) = .ok () s'.ctx.store
  counted : s'.transient = { s.transient.countTransaction chain.env res.logs with
    gasUsed := s'.transient.gasUsed }

variable {s s' : ChainState Ω}

theorem ChainM.onBranch_ok {α : Type} {x : EStateM Err (Context Ω) α}
    {a : α} {tmpCtx : Context Ω} (h : (ChainM.onBranch x).run s = .ok (a, tmpCtx) s') :
    x.run { store := s.ctx.store, events := [] } = .ok a tmpCtx ∧ s' = s := by
  simp only [ChainM.onBranch, EStateM.run] at h
  split at h
  · rename_i hx
    cases h
    exact ⟨hx, rfl⟩
  · cases h

theorem addTransientGasUsed_ok {gasUsed total : UInt64}
    (h : (addTransientGasUsed gasUsed).run s = .ok total s') :
    total = s.transient.gasUsed + gasUsed ∧
      s' = { s with transient := { s.transient with gasUsed := total } } := by
  simp only [addTransientGasUsed, run_get_bind] at h
  split at h
  · cases h
  · cases h
    exact ⟨rfl, rfl⟩

/-- All that an applied transaction leaves. -/
structure TransactionApplied (chain : Chain) (evm : Evm Ω) (txData : TxData) (sender : Address)
    (res : MsgEthereumTxResponse) (tmpCtx : Context Ω) (s s' : ChainState Ω) : Prop where
  signed : chain.sender txData = .ok sender
  message : (applyMessageWithConfig chain evm (txData.asMessage sender chain.getBaseFee) true
    (loadTxConfig chain s (chain.txHash txData))).run { store := s.ctx.store, events := [] } =
      .ok res tmpCtx
  refund : (refundGas chain (txData.asMessage sender chain.getBaseFee)
    (txData.getGas - res.gasUsed)).run (res.merged s.ctx.store tmpCtx.store) = .ok () s'.ctx.store
  events : s'.ctx.events = s.ctx.events ++ if res.failed then [] else tmpCtx.events
  counted : s'.transient = { s.transient.countTransaction chain.env res.logs with
    gasUsed := s.transient.gasUsed + res.gasUsed }
  meter : s'.gasMeter.consumed = s'.transient.gasUsed

variable {txData : TxData}

theorem applyTransaction_rest_ok {sender : Address} {res' : MsgEthereumTxResponse} (h : (do
      mapError (.wrapf "failed to refund gas leftover gas to sender %s" [.addr sender])
        (ChainM.onStore (refundGas chain (txData.asMessage sender chain.getBaseFee)
          ((txData.asMessage sender chain.getBaseFee).gas - res.gasUsed)))
      ChainM.modifyTransient fun t => t.countTransaction chain.env res.logs
      let totalGasUsed ← mapError (.wrapf "failed to add transient gas used" [])
        (addTransientGasUsed res.gasUsed)
      resetGasMeterAndConsumeGas totalGasUsed
      return res : ChainM Ω MsgEthereumTxResponse).run s = .ok res' s') :
    res' = res ∧ (refundGas chain (txData.asMessage sender chain.getBaseFee)
        (txData.getGas - res.gasUsed)).run s.ctx.store = .ok () s'.ctx.store ∧
      s'.ctx.events = s.ctx.events ∧
      s'.transient = { s.transient.countTransaction chain.env res.logs with
        gasUsed := s.transient.gasUsed + res.gasUsed } ∧
      s'.gasMeter.consumed = s'.transient.gasUsed := by
  obtain ⟨_, s₁, hrefund, h₁⟩ := bind_ok.mp h
  obtain ⟨st, hpaid, rfl⟩ := ChainM.onStore_ok.mp (mapError_ok.mp hrefund)
  simp only [ChainM.modifyTransient, run_modify_bind] at h₁
  obtain ⟨total, s₂, hadd, h₂⟩ := bind_ok.mp h₁
  obtain ⟨rfl, rfl⟩ := addTransientGasUsed_ok (mapError_ok.mp hadd)
  cases h₂
  exact ⟨rfl, hpaid, rfl, rfl, rfl⟩

/-- **What success means**, for a transaction. -/
theorem applyTransaction_applied (h : (applyTransaction chain evm txData).run s = .ok res s') :
    ∃ sender tmpCtx, TransactionApplied chain evm txData sender res tmpCtx s s' := by
  obtain ⟨_, -, h₁⟩ := fromExcept_bind_ok.mp h
  simp only [run_get_bind] at h₁
  obtain ⟨sender, s₂, hsender, h₂⟩ := bind_ok.mp h₁
  obtain ⟨hsigned, rfl⟩ := fromExcept_ok.mp (mapError_ok.mp hsender)
  obtain ⟨⟨res₁, tmpCtx⟩, s₃, hbranch, h₃⟩ := bind_ok.mp h₂
  obtain ⟨hmessage, rfl⟩ := ChainM.onBranch_ok (mapError_ok.mp hbranch)
  by_cases hfailed : res₁.failed = true
  · rw [if_neg (not_not.mpr hfailed)] at h₃
    obtain ⟨rfl, hrefund, hevents, hcounted, hmeter⟩ := applyTransaction_rest_ok h₃
    exact ⟨sender, tmpCtx,
      { signed := hsigned
        message := hmessage
        refund := by rwa [MsgEthereumTxResponse.merged, if_pos hfailed]
        events := by rw [hevents, if_pos hfailed, List.append_nil]
        counted := hcounted
        meter := hmeter }⟩
  · rw [if_pos hfailed] at h₃
    obtain ⟨rfl, hrefund, hevents, hcounted, hmeter⟩ := applyTransaction_rest_ok h₃
    exact ⟨sender, tmpCtx,
      { signed := hsigned
        message := hmessage
        refund := by rwa [MsgEthereumTxResponse.merged, if_neg hfailed]
        events := by rw [hevents, if_neg hfailed]
        counted := hcounted
        meter := hmeter }⟩

/-- **An applied transaction.** -/
theorem applyTransaction_ok (h : (applyTransaction chain evm txData).run s = .ok res s') :
    ∃ sender tmpCtx, Applied chain evm txData sender res tmpCtx s s' := by
  obtain ⟨sender, tmpCtx, happlied⟩ := applyTransaction_applied h
  exact ⟨sender, tmpCtx,
    { signed := happlied.signed
      message := applyMessageWithConfig_ok happlied.message
      refund := happlied.refund
      counted := by rw [happlied.counted] }⟩

end TacEvm
