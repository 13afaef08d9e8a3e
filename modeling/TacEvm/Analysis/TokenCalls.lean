import TacEvm.Analysis.CommitReload
import TacEvm.Analysis.SlotTracking
import TacEvm.Analysis.TransitionSpec
import TacEvm.Model.Erc20Conversion

/-!
# Calls of a token

`StandardErc20` says what is asked of a contract that behaves as a standard token. From that follows
what a committed call leaves in the stores.
-/

namespace TacEvm

open FallibleState StateDB TokenAbi Function

variable {Ω : Type} {env : Env}

variable (env) in
/-- The slots of an account, as the EVM reads them. -/
def StateDB.slots (s : StateDB Ω) (a : Address) : Hash → Hash := fun k => (s.getState env a k).1

theorem StateDB.slots_eq (s : StateDB Ω) (a : Address) :
    s.slots env a = fun k => ((s.observe env).objects a).elim 0 fun v => v.state k :=
  funext fun k => s.getState_eq a k

variable {s : StateDB Ω} {a : Address}

theorem objects_setState {v : ObjectView} (hv : (s.observe env).objects a = some v)
    (key value : Hash) :
    ((s.setState env a key value).observe env).objects a = some (v.setState key value) := by
  obtain ⟨o, hobj, rfl⟩ := Option.map_eq_some_iff.mp hv
  have hview := o.view_getState env s.ctx.store a key
  have hread := o.getState_snd s.ctx.store a key
  unfold setState
  rw [getOrNewStateObject_eq, hobj]
  dsimp only
  split
  · rename_i hsame
    have hvalue : (o.view env s.ctx.store a).state key = value := hread.symm.trans hsame
    rw [observe_of_live (stateObjects_setStateObject_self _ _)]
    show some ((o.getState s.ctx.store a key).1.view env s.ctx.store a) = _
    rw [hview, ← hvalue, ObjectView.setState, update_eq_self]
  · rw [observe_of_live (stateObjects_setStateObject_self _ _)]
    show some (((o.getState s.ctx.store a key).1.setState key value).view env s.ctx.store a) = _
    rw [StateObject.view_setState, hview]

variable {ctx : Context Ω} {tx : TxConfig}

/-- Without changes, slots and code hashes of the store are read. -/
theorem reads_store
    (hobjects : (s.observe env).objects = ((new ctx tx).observe env).objects)
    (ha : ctx.store.sequence a ≠ none) :
    s.slots env a = ctx.store.getState a ∧
      (s.getCodeHash env a).1 = ctx.store.getCodeHash env a := by
  obtain ⟨seq, hseq⟩ := Option.ne_none_iff_exists'.mp ha
  rw [slots_eq, getCodeHash_eq, hobjects, observe_new, loadedView_eq, hseq]
  exact ⟨rfl, rfl⟩

/-- An account that was there still is. -/
theorem Moves.objects_isSome (ha : ctx.store.sequence a ≠ none)
    (h : Moves env (new ctx tx) s) : ∃ v, (s.observe env).objects a = some v := by
  have hinit : ∃ v, ((new ctx tx).observe env).objects a = some v := by
    obtain ⟨seq, hseq⟩ := Option.ne_none_iff_exists'.mp ha
    rw [observe_new, loadedView_eq, hseq]
    exact ⟨_, rfl⟩
  have hset : ∀ (w : Observation) (b : Address) (v' : ObjectView),
      (∃ v, w.objects a = some v) → ∃ v, (w.setObject b (some v')).objects a = some v := by
    intro w b v' hw
    by_cases hab : a = b
    · subst hab
      exact ⟨v', update_self _ _ _⟩
    · rw [show (w.setObject b (some v')).objects a = w.objects a from
        update_of_ne hab _ _]
      exact hw
  obtain ⟨-, -, ⟨-, hall⟩, -⟩ := Moves.invariant_new
    (Φ := fun w _ => ∃ v, w.objects a = some v) hinit (fun w log es w' hchange hw => by
      cases hchange with
      | create hobj hload => exact hset _ _ _ hw
      | reset hobj => exact hset _ _ _ hw
      | balance amount hobj hdvd => exact hset _ _ _ hw
      | nonce nonce hobj => exact hset _ _ _ hw
      | code code hobj hcode => exact hset _ _ _ hw
      | storage key value hobj => exact hset _ _ _ hw
      | suicide hobj => exact hset _ _ _ hw
      | _ => exact hw) h
  exact hall

/-- A write to the access list. -/
def Write.IsAccess : Write → Prop
  | .addAddressToAccessList _ => True
  | .addSlotToAccessList _ _ => True
  | _ => False

theorem Write.IsAccess.objects_step {w : Write} (hw : w.IsAccess) {s' : StateDB Ω}
    (h : w.step env s = some s') : (s'.observe env).objects = (s.observe env).objects := by
  cases w with
  | addAddressToAccessList addr =>
    cases h
    unfold StateDB.addAddressToAccessList
    generalize s.accessList.addAddress addr = r
    obtain ⟨al, changed⟩ := r
    cases changed <;> rfl
  | addSlotToAccessList addr slot =>
    obtain ⟨⟨al, addrMod, slotMod⟩, -, rfl⟩ := Option.map_eq_some_iff.mp h
    cases addrMod with
    | false =>
      cases slotMod <;> rfl
    | true =>
      cases slotMod <;> rfl
  | _ => cases hw

theorem objects_runAccess {ws : List Write} (hws : ∀ w ∈ ws, w.IsAccess) {s' : StateDB Ω}
    (h : s.runOps env (ws.map Op.write) = some s') :
    (s'.observe env).objects = (s.observe env).objects := by
  induction ws generalizing s with
  | nil =>
    cases h
    rfl
  | cons w ws ih =>
    obtain ⟨hw, hrest⟩ := List.forall_mem_cons.mp hws
    obtain ⟨s₁, hstep, hrun⟩ := Option.bind_eq_some_iff.mp h
    exact (ih hrest hrun).trans (hw.objects_step hstep)

theorem prepareAccessList_ops (berlin : Bool) (sender : Address) (dst : Option Address)
    (list : EthAccessList) :
    ∃ ws : List Write, (∀ w ∈ ws, w.IsAccess) ∧
      (if berlin then prepareAccessList (Ω := Ω) sender dst list else []) =
        (ws.map Op.write).map Action.op := by
  cases berlin with
  | false => exact ⟨[], by simp, rfl⟩
  | true =>
    refine ⟨_, ?_, by rw [if_pos rfl, prepareAccessList, List.map_map]; rfl⟩
    intro w hw
    simp only [List.mem_append, List.mem_cons, List.mem_map, List.mem_flatMap] at hw
    obtain (rfl | ⟨b, -, rfl⟩) | ⟨el, -, rfl | ⟨slot, -, rfl⟩⟩ := hw
    all_goals trivial

section Commit

variable {ctx ctx' : Context Ω} {tx : TxConfig} {db : StateDB Ω} {ops : List Op}

variable (hrun : (new ctx tx).runOps env ops = some db)
include hrun

variable (hcommit : db.commit env = (none, ctx'))
include hcommit

theorem runOps_committed :
    CommittedSoFar env db.stateObjects ctx.store db.journal.sortedDirties ctx'.store := by
  have hr : Reached env ctx db := run_reached hrun
  exact hr.commitWithCtx_ok (runOps_commit_ok hrun hr.sameCtx hcommit)

theorem rest_commit : ctx'.store.rest = ctx.store.rest := by
  rw [(runOps_committed hrun hcommit).store]
  exact (rest_commitAll _ _).2

/-- **A commit stores the slots and the code hash.** -/
theorem account_commit {a : Address} (ha : ctx.store.sequence a ≠ none)
    (halive : (db.hasSuicided env a).1 = false)
    (hcode : (db.getCodeHash env a).1 = ctx.store.getCodeHash env a) :
    ctx'.store.getState a = db.slots env a ∧ ctx'.store.sequence a ≠ none ∧
      ctx'.store.getCodeHash env a = ctx.store.getCodeHash env a := by
  have hdone := runOps_committed hrun hcommit
  have hmoves : Moves env (new ctx tx) db := run_moves hrun
  have hr := hmoves.reached
  obtain ⟨v, hv⟩ := hmoves.objects_isSome ha
  rw [slots_eq, hv]
  by_cases hdirty : a ∈ db.journal.dirties
  · obtain ⟨o, ho⟩ := hr.tracked.live_of_dirty hdirty
    have hs : o.suicided = false := by
      rw [← halive]
      exact (hasSuicided_of_live ho).symm
    have hstate := hdone.accountState_dirty hdirty ho
    have hview : v = o.view env ctx.store a := by
      rw [observe_of_live ho, hr.sameCtx] at hv
      exact (Option.some.inj hv).symm
    rw [getCodeHash_eq, hv] at hcode
    refine ⟨funext fun k => ?_, ?_, ?_⟩
    · have hcommitted := hmoves.committed hv k
      rw [hview] at hcommitted ⊢
      exact getState_of_commitAccount hstate hs hcommitted
    · rw [sequence_of_commitAccount hstate hs]
      exact Option.some_ne_none _
    · rw [getCodeHash_of_commitAccount hstate hs, ← hcode, hview]
      rfl
  · have hstate := hdone.accountState_clean hdirty
    have hsequence : ctx'.store.sequence a = ctx.store.sequence a :=
      congrArg AccountState.sequence hstate
    have hstorage : ctx'.store.storage a = ctx.store.storage a :=
      congrArg AccountState.storage hstate
    have hhash : ctx'.store.codeHash a = ctx.store.codeHash a :=
      congrArg AccountState.codeHash hstate
    refine ⟨funext fun k => ?_, by rwa [hsequence], by unfold Store.getCodeHash; rw [hhash]⟩
    -- a slot that was written would make the account dirty
    have hwritten : ¬ SlotWritten a k db.journal.entries := by
      intro hwritten
      obtain ⟨prevalue, hentry⟩ := mem_of_slotWritten hwritten
      exact hdirty ((hr.tracked.mem_dirties a).mpr ⟨_, hentry, rfl⟩)
    have hread := hmoves.slotsUntouched a v hv k hwritten
    show ctx'.store.getState a k = v.state k
    rw [hread]
    unfold Store.getState
    rw [hstorage]

end Commit

/-- The balances after a transfer, also to oneself. -/
def moveTokens (balance : Address → ℕ) (src dst : Address) (amount : ℕ) : Address → ℕ :=
  let debited := update balance src (balance src - amount)
  update debited dst (debited dst + amount)

section MoveTokens

variable {balance : Address → ℕ} {src dst : Address} {amount : ℕ}

theorem moveTokens_dst (h : src ≠ dst) :
    moveTokens balance src dst amount dst = balance dst + amount := by
  simp [moveTokens, update_of_ne h.symm]

theorem moveTokens_src (h : src ≠ dst) :
    moveTokens balance src dst amount src = balance src - amount := by
  simp [moveTokens, update_of_ne h]

theorem moveTokens_self (h : amount ≤ balance src) :
    moveTokens balance src src amount src = balance src := by
  simp [moveTokens, Nat.sub_add_cancel h]

theorem le_moveTokens {a : Address} (h : a ≠ src) :
    balance a ≤ moveTokens balance src dst amount a := by
  by_cases ha : a = dst
  · subst ha
    rw [moveTokens_dst h.symm]
    omega
  · simp [moveTokens, update_of_ne ha, update_of_ne h]

end MoveTokens

variable (env) in
/-- A `transfer` moves the amount, or returns false. -/
structure TokenTransfer (contract : Address) (balance : (Hash → Hash) → Address → ℕ)
    (src dst : Address) (amount : ℕ) (outcome : Outcome Ω) (db db' : StateDB Ω) : Prop where
  /-- No precompile is called. -/
  plain : ∃ ops : List Op, outcome.actions = ops.map Action.op
  alive : (db'.hasSuicided env contract).1 = false
  codeHash : (db'.getCodeHash env contract).1 = (db.getCodeHash env contract).1
  returned : ∃ moved, unpackBool outcome.ret = .ok moved ∧
    if moved then
      amount ≤ balance (db.slots env contract) src ∧
        balance (db'.slots env contract) =
          moveTokens (balance (db.slots env contract)) src dst amount
    else balance (db'.slots env contract) = balance (db.slots env contract)

/-- A contract that behaves as a standard token. -/
structure StandardErc20 (env : Env) (evm : Evm Ω) (contract : Address) where
  codeHash : Hash
  /-- The balances, as a function of the slots. -/
  balance : (Hash → Hash) → Address → ℕ
  balanceOf : ∀ (msg : Message) (gas : UInt64) (db : StateDB Ω) (account : Address),
    msg.recipient = some contract → msg.data = packBalanceOf account →
    (db.getCodeHash env contract).1 = codeHash → (evm.call msg gas db).vmErr.getD "" = "" →
    unpackUint256 (evm.call msg gas db).ret = .ok (balance (db.slots env contract) account)
  transfer : ∀ (msg : Message) (gas : UInt64) (db db' : StateDB Ω) (receiver : Address)
    (amount : ℕ), amount < 2 ^ 256 → msg.recipient = some contract →
    msg.data = packTransfer receiver amount →
    (db.getCodeHash env contract).1 = codeHash → (evm.call msg gas db).vmErr.getD "" = "" →
    db.run env (evm.call msg gas db).actions = some db' →
    TokenTransfer env contract balance msg.sender receiver amount (evm.call msg gas db) db db'

theorem packTransfer_emod (receiver : Address) (amount : ℤ) :
    packTransfer receiver amount = packTransfer receiver ((amount % 2 ^ 256).toNat : ℕ) := by
  have hnonneg : 0 ≤ amount % 2 ^ 256 := Int.emod_nonneg _ (by norm_num)
  unfold packTransfer packUint256
  rw [Int.toNat_of_nonneg hnonneg, Int.emod_emod_of_dvd _ (dvd_refl _)]

section Calls

variable {chain : Chain} {evm : Evm Ω} {contract : Address} {msg : Message} {commit : Bool}
  {txConfig : TxConfig} {res : MsgEthereumTxResponse} {ctx ctx' : Context Ω}

theorem MessageApplied.called {intrinsicGas : UInt64} {db : StateDB Ω} {outcome : Outcome Ω}
    (h : MessageApplied chain evm msg commit txConfig res ctx ctx' intrinsicGas db outcome)
    (hrecipient : msg.recipient = some contract) :
    ∃ (ws : List Write) (s₁ : StateDB Ω),
      (new ctx txConfig).runOps chain.env (ws.map Op.write) = some s₁ ∧
      (s₁.observe chain.env).objects = ((new ctx txConfig).observe chain.env).objects ∧
      outcome = evm.call msg (msg.gas - intrinsicGas) s₁ ∧
      s₁.run chain.env outcome.actions = some db := by
  obtain ⟨s₁, hprepare, hcase⟩ := execute_cases h.run
  obtain ⟨ws, haccess, hws⟩ := @prepareAccessList_ops Ω chain.rules.isBerlin msg.sender
    msg.recipient msg.accessList
  rw [hws] at hprepare
  refine ⟨ws, s₁, hprepare, objects_runAccess haccess hprepare, ?_⟩
  rcases hcase with ⟨hnone, -⟩ | ⟨-, houtcome, hrun⟩
  · rw [hrecipient] at hnone
    cases hnone
  · exact ⟨houtcome, hrun⟩

namespace StandardErc20

variable (token : StandardErc20 chain.env evm contract)

/-- The contract is there, with its code. -/
structure Deployed (st : Store Ω) : Prop where
  account : st.sequence contract ≠ none
  codeHash : st.getCodeHash chain.env contract = token.codeHash

/-- The balances in a store. -/
def balances (st : Store Ω) : Address → ℕ := token.balance (st.getState contract)

variable {token}

/-- **A query returns the balance in the store.** -/
theorem query_applied {account : Address} (hdeployed : token.Deployed ctx.store)
    (h : (applyMessageWithConfig chain evm msg commit txConfig).run ctx = .ok res ctx')
    (hrecipient : msg.recipient = some contract)
    (hdata : msg.data = packBalanceOf account) (hok : res.failed = false) :
    unpackUint256 res.ret = .ok (token.balances ctx.store account) := by
  obtain ⟨intrinsicGas, db, outcome, happlied⟩ := applyMessageWithConfig_applied h
  obtain ⟨ws, s₁, -, hobjects, houtcome, -⟩ := happlied.called hrecipient
  obtain ⟨hslots, hhash⟩ := reads_store hobjects hdeployed.account
  have herr : outcome.vmErr.getD "" = "" := by
    rw [← happlied.vmError]
    simpa [MsgEthereumTxResponse.failed] using hok
  rw [houtcome] at herr
  have hquery := token.balanceOf msg _ s₁ account hrecipient hdata
    (hhash.trans hdeployed.codeHash) herr
  rw [happlied.ret, houtcome, hquery, hslots]
  rfl

/-- What a committed call of `transfer` leaves in the stores. -/
structure TransferCommitted (token : StandardErc20 chain.env evm contract)
    (src dst : Address) (amount : ℕ) (ret : Bytes) (st st' : Store Ω) : Prop where
  deployed : token.Deployed st'
  rest : st'.rest = st.rest
  supply : ∀ d, d ≠ chain.env.evmDenom → st'.supply d = st.supply d
  returned : ∃ moved, unpackBool ret = .ok moved ∧
    if moved then
      amount ≤ token.balances st src ∧
        token.balances st' = moveTokens (token.balances st) src dst amount
    else token.balances st' = token.balances st

/-- **A committed transfer.** -/
theorem transfer_applied {receiver : Address} {amount : ℤ}
    (hdeployed : token.Deployed ctx.store)
    (h : (applyMessageWithConfig chain evm msg true txConfig).run ctx = .ok res ctx')
    (hrecipient : msg.recipient = some contract)
    (hdata : msg.data = packTransfer receiver amount) (hok : res.failed = false) :
    token.TransferCommitted msg.sender receiver (amount % 2 ^ 256).toNat res.ret ctx.store
      ctx'.store := by
  obtain ⟨intrinsicGas, db, outcome, happlied⟩ := applyMessageWithConfig_applied h
  obtain ⟨ws, s₁, hprepare, hobjects, houtcome, hrun⟩ := happlied.called hrecipient
  obtain ⟨hslots, hhash⟩ := reads_store hobjects hdeployed.account
  have herr : outcome.vmErr.getD "" = "" := by
    rw [← happlied.vmError]
    simpa [MsgEthereumTxResponse.failed] using hok
  have hlt : (amount % 2 ^ 256).toNat < 2 ^ 256 := by
    have := Int.emod_lt_of_pos amount (show (0 : ℤ) < 2 ^ 256 by norm_num)
    omega
  rw [packTransfer_emod] at hdata
  rw [houtcome] at herr hrun
  obtain ⟨⟨ops, hops⟩, halive, hcode, hreturned⟩ := token.transfer msg _ s₁ db receiver _ hlt
    hrecipient hdata (hhash.trans hdeployed.codeHash) herr hrun
  -- the whole run, the access list first
  have hall : (new ctx txConfig).runOps chain.env (ws.map Op.write ++ ops) = some db := by
    unfold runOps at hprepare ⊢
    rw [List.map_append, run_append, hprepare, Option.bind_some, ← hops]
    exact hrun
  have hcommit := happlied.committed rfl
  obtain ⟨hstate, hexists, hstored⟩ := account_commit hall hcommit hdeployed.account halive
    (hcode.trans hhash)
  have hbefore : token.balance (s₁.slots chain.env contract) = token.balances ctx.store := by
    rw [hslots]
    rfl
  have hafter : token.balance (db.slots chain.env contract) = token.balances ctx'.store := by
    rw [← hstate]
    rfl
  rw [hbefore, hafter, ← houtcome, ← happlied.ret] at hreturned
  exact
    { deployed := ⟨hexists, hstored.trans hdeployed.codeHash⟩
      rest := rest_commit hall hcommit
      supply := (runOps_committed hall hcommit).supplyOther
      returned := hreturned }

end StandardErc20

end Calls

end TacEvm
