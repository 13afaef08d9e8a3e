import TacEvm.Analysis.GasTotals
import TacEvm.Analysis.SettledNonce
import TacEvm.Analysis.TransitionSpec

/-!
# Nonces over a transaction of several messages

The ante handler increments the sequence of a sender once for every message. A message that creates
a contract sets it to its own nonce and the next one, so the increments for later messages are lost.
`noncesCounted_iff` says when the sequences are right in the end.
-/

namespace TacEvm

open FallibleState StateDB Devnet

variable {Ω : Type} {chain : Chain} {evm : Evm Ω} {a : Address}

/-- What an action may be if the account `a` runs no code. -/
structure Action.LeavesNonce (a : Address) (creates : Prop) (act : Action Ω) : Prop where
  spares : act.Spares a fun _ => creates
  effect : ∀ c, act = .call c → ∀ st, (c.effect st).sequence a = st.sequence a

/-- The account `a` runs no code while a transaction is applied. -/
def RunsNoCode (chain : Chain) (evm : Evm Ω) (a : Address) (txData : TxData)
    (s : ChainState Ω) : Prop :=
  ∀ sender res tmpCtx db outcome, chain.sender txData = .ok sender →
    Executed chain evm (txData.asMessage sender chain.getBaseFee)
      (loadTxConfig chain s (chain.txHash txData)) res { store := s.ctx.store, events := [] }
      tmpCtx db outcome →
    ∀ act ∈ outcome.actions, act.LeavesNonce a (sender = a ∧ txData.getTo = none)

namespace FullySettled

variable {N : UInt64 → Prop} {s s' : StateDB Ω} {env : Env}

theorem setNonce (h : FullySettled a N s) {b : Address} {n : UInt64} (hn : b = a → N n) :
    FullySettled a N (s.setNonce env b n) :=
  ⟨h.objects.setNonce hn, h.stores.steps (setNonce_steps b n)⟩

theorem prepareAccessList (h : FullySettled a N s) {sender : Address} {dst : Option Address}
    {list : EthAccessList} {berlin : Bool}
    (hrun : s.run env (if berlin then TacEvm.prepareAccessList sender dst list else []) =
      some s') : FullySettled a N s' := by
  have hwrites : ∀ act ∈ (if berlin then TacEvm.prepareAccessList (Ω := Ω) sender dst list
      else []), ∃ w : Write, act = .op (.write w) ∧ (Action.op (Ω := Ω) (.write w)).Spares a N := by
    intro act hact
    split at hact
    · obtain ⟨w, hw, rfl⟩ := List.mem_map.mp hact
      refine ⟨w, rfl, ?_⟩
      simp only [List.mem_append, List.mem_cons, List.mem_map, List.mem_flatMap] at hw
      obtain (rfl | ⟨b, -, rfl⟩) | ⟨el, -, rfl | ⟨slot, -, rfl⟩⟩ := hw
      all_goals trivial
    · cases hact
  refine h.run ?_ ?_ hrun
  · intro act hact
    obtain ⟨w, rfl, hspares⟩ := hwrites act hact
    exact hspares
  · intro c hc
    obtain ⟨w, heq, -⟩ := hwrites _ hc
    cases heq

theorem runsNoCode (h : FullySettled a N s) {creates : Prop} {as : List (Action Ω)}
    (has : ∀ act ∈ as, act.LeavesNonce a creates) (hN : creates → ∀ n, N n)
    (hrun : s.run env as = some s') : FullySettled a N s' := by
  refine h.run ?_ ?_ hrun
  · intro act hact
    exact (has act hact).spares.mono fun n hcreates => hN hcreates n
  · intro c hc st hst
    obtain ⟨n, hseq, hn⟩ := hst
    exact ⟨n, ((has _ hc).effect c rfl st).trans hseq, hn⟩

end FullySettled

namespace Executed

variable {msg : Message} {txConfig : TxConfig} {res : MsgEthereumTxResponse}
  {ctx ctx' : Context Ω} {db : StateDB Ω} {outcome : Outcome Ω} {n : UInt64}

/-- Only the nonce of a creator changes. -/
theorem sequence_kept (h : Executed chain evm msg txConfig res ctx ctx' db outcome)
    (hcode : ∀ act ∈ outcome.actions, act.LeavesNonce a (msg.sender = a ∧ msg.recipient = none))
    (hother : ¬ (msg.sender = a ∧ msg.recipient = none)) (hseq : ctx.store.sequence a = some n) :
    ctx'.store.sequence a = some n := by
  obtain ⟨_, -, hrun⟩ := h.run
  obtain ⟨s₁, hprepare, hrest⟩ := execute_cases hrun
  have hstart : FullySettled a (· = n) (new ctx txConfig) := .new txConfig ⟨n, hseq, rfl⟩
  have hprepared := hstart.prepareAccessList hprepare
  have hend : FullySettled a (· = n) db := by
    rcases hrest with ⟨hcreate, s₂, -, hactions, rfl⟩ | ⟨-, -, hactions⟩
    · have hne : ∀ {m : UInt64}, msg.sender = a → m = n := fun hsender =>
        absurd ⟨hsender, hcreate⟩ hother
      have hran := (hprepared.setNonce hne).runsNoCode hcode (fun hown => absurd hown hother)
        hactions
      exact hran.setNonce hne
    · exact hprepared.runsNoCode hcode (fun hown => absurd hown hother) hactions
  obtain ⟨m, hcommitted, rfl⟩ := hend.commit chain.env
  rw [h.commit] at hcommitted
  exact hcommitted

theorem setNonce_live (env : Env) (s : StateDB Ω) (a : Address) (n : UInt64) :
    ∃ o, (s.setNonce env a n).stateObjects a = some o ∧ o.account.nonce = n ∧
      a ∈ (s.setNonce env a n).journal.dirties := by
  refine ⟨(s.getOrNewStateObject env a).1.setNonce n, ?_, rfl, ?_⟩
  · exact stateObjects_setStateObject_self a _
  · exact Finmap.mem_insert.mpr (.inl rfl)

/-- A creation leaves the nonce after that of its message. -/
theorem sequence_created (h : Executed chain evm msg txConfig res ctx ctx' db outcome)
    (hcode : ∀ act ∈ outcome.actions, act.LeavesNonce a (msg.sender = a ∧ msg.recipient = none))
    (hsender : msg.sender = a) (hcreate : msg.recipient = none)
    (hseq : ctx.store.sequence a = some n) :
    ctx'.store.sequence a = some (msg.nonce + 1) := by
  obtain ⟨_, -, hrun⟩ := h.run
  obtain ⟨s₁, hprepare, ⟨-, s₂, -, hactions, hdb⟩ | ⟨hcall, -⟩⟩ := execute_cases hrun
  · -- none of its versions destroyed itself
    have hstart : FullySettled a (fun _ => True) (new ctx txConfig) :=
      .new txConfig ⟨n, hseq, trivial⟩
    have hset : FullySettled a (fun _ => True) (s₁.setNonce chain.env msg.sender msg.nonce) :=
      (hstart.prepareAccessList hprepare).setNonce fun _ => trivial
    have hran := hset.runsNoCode hcode (fun _ _ => trivial) hactions
    have hend : FullySettled a (fun _ => True)
        (s₂.setNonce chain.env msg.sender (msg.nonce + 1)) := hran.setNonce fun _ => trivial
    obtain ⟨o, hlive, hnonce, hdirty⟩ := setNonce_live chain.env s₂ a (msg.nonce + 1)
    rw [hsender] at hdb hend
    rw [← hdb] at hend hlive hdirty
    -- and what is committed for it is its live object
    have hmoves : Moves chain.env (new ctx txConfig) db := by
      rw [hdb]
      exact (((run_moves hprepare).trans (setNonce_steps _ _).moves).trans
        (run_moves hactions)).trans (setNonce_steps _ _).moves
    have hcommit := commit_ok h.commit
    have hstate := (hmoves.reached.commitWithCtx_ok hcommit).accountState_dirty hdirty hlive
    have hcommitted : ctx'.store.sequence a = some o.account.nonce := by
      have hsequence := congrArg AccountState.sequence hstate
      rw [commitAccount, (hend.objects.object o hlive).2] at hsequence
      exact hsequence
    rw [hcommitted, hnonce]
  · exact absurd hcreate hcall

end Executed

/-- Whether a transaction is a creation that did not fail. -/
def Created (p : TxData × MsgEthereumTxResponse) : Prop := p.1.getTo = none ∧ p.2.failed = false

instance (p : TxData × MsgEthereumTxResponse) : Decidable (Created p) :=
  inferInstanceAs (Decidable (_ ∧ _))

/-- Whether a transaction is signed by an account. -/
def Chain.signs (chain : Chain) (a : Address) (txData : TxData) : Bool :=
  match chain.sender txData with
  | .ok sender => decide (sender = a)
  | .error _ => false

variable {txData : TxData}

variable {sender : Address}

theorem Chain.signs_of_sender (h : chain.sender txData = .ok sender) :
    chain.signs a txData = decide (sender = a) := by
  rw [signs, h]

variable {s s' : ChainState Ω} {n : UInt64}

/-- **The sequence of an account after one transaction.** -/
theorem Applied.sequence {res : MsgEthereumTxResponse} {tmpCtx : Context Ω}
    (h : Applied chain evm txData sender res tmpCtx s s') (hcode : RunsNoCode chain evm a txData s)
    (hseq : s.ctx.store.sequence a = some n) :
    s'.ctx.store.sequence a = some
      (if chain.signs a txData ∧ Created (txData, res) then txData.getNonce + 1 else n) := by
  obtain ⟨-, -, hrefund⟩ := refundGas_ok h.refund
  obtain ⟨db, outcome, hexecuted⟩ := h.message
  have hactions := hcode sender res tmpCtx db outcome h.signed hexecuted
  rw [hrefund, Bank.sequence_sent, chain.signs_of_sender h.signed, MsgEthereumTxResponse.merged]
  cases hfailed : res.failed with
  | true =>
    have hnot : ¬ (decide (sender = a) = true ∧ Created (txData, res)) := by
      rintro ⟨-, -, hok⟩
      rw [hfailed] at hok
      cases hok
    rw [if_neg hnot]
    exact hseq
  | false =>
    show tmpCtx.store.sequence a = _
    by_cases hown : sender = a ∧ txData.getTo = none
    · rw [if_pos ⟨decide_eq_true hown.1, hown.2, hfailed⟩]
      exact hexecuted.sequence_created hactions hown.1 hown.2 hseq
    have hnot : ¬ (decide (sender = a) = true ∧ Created (txData, res)) := by
      rintro ⟨hsender, hcreate, -⟩
      exact hown ⟨of_decide_eq_true hsender, hcreate⟩
    rw [if_neg hnot]
    exact hexecuted.sequence_kept hactions hown hseq

/-- The transactions are applied, and none of the accounts runs code. -/
inductive Delivered (chain : Chain) (evm : Evm Ω) (accounts : Address → Prop) :
    List TxData → List MsgEthereumTxResponse → ChainState Ω → ChainState Ω → Prop
  | nil (s : ChainState Ω) : Delivered chain evm accounts [] [] s s
  | cons {txData : TxData} {txs : List TxData} {res : MsgEthereumTxResponse}
      {rs : List MsgEthereumTxResponse} {s s₁ s' : ChainState Ω}
      (head : (applyTransaction chain evm txData).run s = .ok res s₁)
      (code : ∀ a, accounts a → RunsNoCode chain evm a txData s)
      (tail : Delivered chain evm accounts txs rs s₁ s') :
      Delivered chain evm accounts (txData :: txs) (res :: rs) s s'

/-- The nonce an account is left with. -/
def sequenceAfter (chain : Chain) (a : Address) (n : UInt64)
    (ps : List (TxData × MsgEthereumTxResponse)) : UInt64 :=
  ps.foldl (fun n p => if chain.signs a p.1 ∧ Created p then p.1.getNonce + 1 else n) n

variable {accounts : Address → Prop} {txs : List TxData} {rs : List MsgEthereumTxResponse}

theorem Delivered.length (h : Delivered chain evm accounts txs rs s s') :
    rs.length = txs.length := by
  induction h with
  | nil s => rfl
  | cons head code tail ih => rw [List.length_cons, List.length_cons, ih]

theorem Delivered.sequence (h : Delivered chain evm accounts txs rs s s') (ha : accounts a)
    (hseq : s.ctx.store.sequence a = some n) :
    s'.ctx.store.sequence a = some (sequenceAfter chain a n (txs.zip rs)) := by
  induction h generalizing n with
  | nil s => exact hseq
  | cons head code tail ih =>
    obtain ⟨sender, tmpCtx, happlied⟩ := applyTransaction_ok head
    exact ih (happlied.sequence (code a ha) hseq)

theorem sequenceAfter_of_none {ps : List (TxData × MsgEthereumTxResponse)}
    (h : ∀ p ∈ ps, ¬ (chain.signs a p.1 ∧ Created p)) : sequenceAfter chain a n ps = n := by
  induction ps with
  | nil => rfl
  | cons p ps ih =>
    rw [sequenceAfter, List.foldl_cons, if_neg (h p List.mem_cons_self)]
    exact ih fun q hq => h q (List.mem_cons_of_mem p hq)

variable {pre post : List (TxData × MsgEthereumTxResponse)} {p : TxData × MsgEthereumTxResponse}

theorem sequenceAfter_of_last (hp : chain.signs a p.1 ∧ Created p)
    (hpost : ∀ q ∈ post, ¬ (chain.signs a q.1 ∧ Created q)) :
    sequenceAfter chain a n (pre ++ p :: post) = p.1.getNonce + 1 := by
  rw [sequenceAfter, List.foldl_append, List.foldl_cons, if_pos hp]
  exact sequenceAfter_of_none hpost

theorem sequenceAfter_cases (chain : Chain) (a : Address)
    (ps : List (TxData × MsgEthereumTxResponse)) :
    (∀ p ∈ ps, ¬ (chain.signs a p.1 ∧ Created p)) ∨
      ∃ pre p post, ps = pre ++ p :: post ∧ (chain.signs a p.1 ∧ Created p) ∧
        ∀ q ∈ post, ¬ (chain.signs a q.1 ∧ Created q) := by
  induction ps with
  | nil => exact .inl fun p hp => by cases hp
  | cons p ps ih =>
    rcases ih with hnone | ⟨pre, q, post, rfl, hq, hpost⟩
    · by_cases hp : chain.signs a p.1 ∧ Created p
      · exact .inr ⟨[], p, ps, rfl, hp, hnone⟩
      · refine .inl fun q hq => ?_
        rcases List.mem_cons.mp hq with rfl | hq
        · exact hp
        · exact hnone q hq
    · exact .inr ⟨p :: pre, q, post, rfl, hq, hpost⟩

variable {mode : Mode} {tx : CosmosTx} {utils utils' : DecoratorUtils}

variable {m : Signed}

/-- A nonce grows just with its own messages. -/
theorem Accepted.sequence {msg : Msg} (h : Accepted chain mode tx msg m utils utils' s s')
    (a : Address) :
    (s'.ctx.store.sequence a).getD 0 = (s.ctx.store.sequence a).getD 0 +
        UInt64.ofNat (if m.sender = a then 1 else 0) ∧
      (s'.ctx.store.sequence a = none → s.ctx.store.sequence a = none ∧ m.sender ≠ a) := by
  rw [h.store]
  by_cases ha : m.sender = a
  · subst ha
    have hself : ∀ (st : Store Ω) seq, (st.setSequence m.sender seq).sequence m.sender = seq := by
      intro st seq
      simp [Store.setSequence]
    rw [hself, ← h.nonce]
    simp
  · have hother : ∀ (st : Store Ω) seq, (st.setSequence m.sender seq).sequence a =
        st.sequence a := by
      intro st seq
      simp [Store.setSequence, Ne.symm ha]
    have haccount : (s.ctx.store.withAccount m.sender).sequence a = s.ctx.store.sequence a := by
      unfold Store.withAccount
      split
      · exact hother _ _
      · rfl
    rw [hother, Bank.sequence_sent, haccount]
    simp [ha]

variable {msgs : List Msg} {ms : List Signed}

theorem AcceptedRun.sequence
    (h : AcceptedRun chain mode tx msgs ms utils utils' s s') (a : Address) :
    (s'.ctx.store.sequence a).getD 0 = (s.ctx.store.sequence a).getD 0 +
        UInt64.ofNat (ms.countP fun m => m.sender = a) ∧
      (s'.ctx.store.sequence a = none →
        s.ctx.store.sequence a = none ∧ ∀ m ∈ ms, m.sender ≠ a) := by
  induction h with
  | nil utils s => simp
  | @cons msg msgs m ms utils utils₁ utils' s s₁ s' head tail ih =>
    obtain ⟨hfirst, hnone⟩ := head.sequence a
    refine ⟨?_, ?_⟩
    · rw [ih.1, hfirst, UInt64.add_assoc, ← UInt64.ofNat_add, List.countP_cons, Nat.add_comm]
      simp
    · intro hmissing
      obtain ⟨hmissing₁, hothers⟩ := ih.2 hmissing
      obtain ⟨hmissing₀, hsender⟩ := hnone hmissing₁
      exact ⟨hmissing₀, List.forall_mem_cons.mpr ⟨hsender, hothers⟩⟩

theorem AcceptedRun.nonce (h : AcceptedRun chain mode tx msgs ms utils utils' s s')
    {pre post : List Signed} (hms : ms = pre ++ m :: post) :
    m.txData.getNonce = (s.ctx.store.sequence m.sender).getD 0 +
      UInt64.ofNat (pre.countP fun q => q.sender = m.sender) := by
  induction h generalizing pre with
  | nil utils s => simp at hms
  | @cons msg msgs q ms utils utils₁ utils' s s₁ s' head tail ih =>
    cases pre with
    | nil =>
      cases hms
      simp [head.nonce]
    | cons q' pre =>
      cases hms
      rw [ih rfl, (head.sequence m.sender).1, UInt64.add_assoc, ← UInt64.ofNat_add,
        List.countP_cons, Nat.add_comm]
      simp

theorem AcceptedRun.signed (h : AcceptedRun chain mode tx msgs ms utils utils' s s') :
    ∀ m ∈ ms, chain.sender m.txData = .ok m.sender := by
  induction h with
  | nil utils s => simp
  | cons head tail ih => exact List.forall_mem_cons.mpr ⟨head.signed, ih⟩

theorem countP_signs (h : ∀ m ∈ ms, chain.sender m.txData = .ok m.sender) (a : Address) :
    (ms.map Signed.txData).countP (chain.signs a) = ms.countP fun m => m.sender = a := by
  rw [List.countP_map]
  refine List.countP_congr fun m hm => ?_
  rw [Function.comp_apply, chain.signs_of_sender (h m hm)]

/-- Whether an account signed one of the messages. -/
def CosmosTx.HasSender (tx : CosmosTx) (chain : Chain) (a : Address) : Prop :=
  ∃ txData ∈ tx.txDatas, chain.signs a txData = true

/-- The sequence of an account that may not exist yet. -/
def ChainState.nonce (s : ChainState Ω) (a : Address) : UInt64 :=
  (s.ctx.store.sequence a).getD 0

/-- What accepting a transaction does to sequences. -/
structure CountedTx (chain : Chain) (tx : CosmosTx) (s s' : ChainState Ω) : Prop where
  sequence : ∀ a, tx.HasSender chain a → s'.ctx.store.sequence a =
    some (s.nonce a + UInt64.ofNat (tx.txDatas.countP (chain.signs a)))
  nonce : ∀ pre txData post a, tx.txDatas = pre ++ txData :: post → chain.signs a txData = true →
    txData.getNonce = s.nonce a + UInt64.ofNat (pre.countP (chain.signs a))

/-- An accepted transaction counts the nonces of its signers. -/
theorem anteHandle_counted {priority : ℤ} (h : (anteHandle chain mode tx).run s = .ok priority s') :
    CountedTx chain tx s s' := by
  obtain ⟨ms, utils, haccepted⟩ := anteHandle_ok h
  obtain ⟨utils₀, s₀, s₁, hrun, rfl, -, -, -, hctx, -⟩ := haccepted.run
  have hdatas : tx.txDatas = ms.map Signed.txData := hrun.txDatas
  have hsigned := hrun.signed
  have hstart : ∀ a, (s₀.ctx.store.sequence a).getD 0 = s.nonce a := by
    intro a
    rw [hctx]
    rfl
  refine ⟨?_, ?_⟩
  · rintro a ⟨txData, hmem, hsigns⟩
    obtain ⟨hnonce, hmissing⟩ := hrun.sequence a
    rw [hstart, ← countP_signs hsigned, ← hdatas] at hnonce
    show s₁.ctx.store.sequence a = _
    cases hseq : s₁.ctx.store.sequence a with
    | some n =>
      rw [hseq] at hnonce
      exact congrArg some hnonce
    | none =>
      rw [hdatas] at hmem
      obtain ⟨m, hm, rfl⟩ := List.mem_map.mp hmem
      rw [chain.signs_of_sender (hsigned m hm)] at hsigns
      exact absurd (of_decide_eq_true hsigns) ((hmissing hseq).2 m hm)
  · intro pre txData post a hsplit hsigns
    rw [hdatas] at hsplit
    obtain ⟨msPre, msRest, rfl, rfl, hrest⟩ := List.map_eq_append_iff.mp hsplit
    obtain ⟨m, msPost, rfl, rfl, rfl⟩ := List.map_eq_cons_iff.mp hrest
    have hm : m ∈ msPre ++ m :: msPost := List.mem_append_right _ List.mem_cons_self
    rw [chain.signs_of_sender (hsigned m hm)] at hsigns
    have hsender : m.sender = a := of_decide_eq_true hsigns
    rw [hrun.nonce rfl, hstart, hsender,
      countP_signs fun q hq => hsigned q (List.mem_append_left _ hq)]

theorem add_ofNat_cancel {i j : ℕ} (hi : i < 2 ^ 64) (hj : j < 2 ^ 64)
    (h : n + UInt64.ofNat i = n + UInt64.ofNat j) : i = j := by
  have hnat : (UInt64.ofNat i).toNat = (UInt64.ofNat j).toNat := by
    rw [(UInt64.add_right_inj n).mp h]
  rwa [UInt64.toNat_ofNat', UInt64.toNat_ofNat', Nat.mod_eq_of_lt hi, Nat.mod_eq_of_lt hj] at hnat

/-- Every sequence counts its messages, and none is accepted again, now or after `more` messages. -/
structure NoncesCounted (chain : Chain) (tx : CosmosTx) (s s' : ChainState Ω) : Prop where
  sequence : ∀ a, tx.HasSender chain a → s'.ctx.store.sequence a =
    some (s.nonce a + UInt64.ofNat (tx.txDatas.countP (chain.signs a)))
  replay : ∀ txData ∈ tx.txDatas, ∀ (later : Chain) (mode : Mode) (tx' : CosmosTx) (place : ℕ)
    (utils utils' : DecoratorUtils) (ethMsg : MsgEthereumTx) (indexed : Msg × ℕ)
    (t t' : ChainState Ω) (sender : Address) (more : ℕ),
      unpackEthMsg indexed.1 = .ok (ethMsg, txData) → chain.sender txData = .ok sender →
      later.sender txData = .ok sender →
      t.ctx.store.sequence sender = (s'.ctx.store.sequence sender).map (· + UInt64.ofNat more) →
      tx.txDatas.countP (chain.signs sender) + more < 2 ^ 64 →
      (anteHandleMsg later mode tx' place utils indexed).run t ≠ .ok utils' t'

/-- Successful creations come last for their sender, or another follows. -/
def CreationsCovered (chain : Chain) (ps : List (TxData × MsgEthereumTxResponse)) : Prop :=
  ∀ a pre p post, ps = pre ++ p :: post → chain.signs a p.1 = true ∧ Created p →
    (∃ q ∈ post, chain.signs a q.1 = true) → ∃ r ∈ post, chain.signs a r.1 = true ∧ Created r

variable {s₁ : ChainState Ω}

theorem CountedTx.split (h : CountedTx chain tx s s₁)
    (hsplit : tx.txDatas = (pre ++ p :: post).map Prod.fst) (hp : chain.signs a p.1 = true) :
    p.1.getNonce + 1 = s.nonce a + UInt64.ofNat ((pre.map Prod.fst).countP (chain.signs a) + 1) ∧
      tx.txDatas.countP (chain.signs a) = (pre.map Prod.fst).countP (chain.signs a) + 1 +
        (post.map Prod.fst).countP (chain.signs a) := by
  rw [List.map_append, List.map_cons] at hsplit
  constructor
  · rw [h.nonce _ _ _ a hsplit hp, UInt64.ofNat_add, UInt64.add_assoc]
    rfl
  · rw [hsplit, List.countP_append, List.countP_cons, hp]
    simp only [if_true]
    omega

theorem CosmosTx.countP_lt (chain : Chain) (h : tx.msgs.length < 2 ^ 63) (a : Address) :
    tx.txDatas.countP (chain.signs a) < 2 ^ 64 := by
  have hcount : tx.txDatas.countP (chain.signs a) ≤ tx.txDatas.length := List.countP_le_length
  have hlength : tx.txDatas.length ≤ tx.msgs.length := List.length_filterMap_le _ _
  omega

theorem CountedTx.nonce_ne {more : ℕ} (h : CountedTx chain tx s s₁)
    (hmore : tx.txDatas.countP (chain.signs a) + more < 2 ^ 64) (hmem : txData ∈ tx.txDatas)
    (hsigns : chain.signs a txData = true) :
    s.nonce a + UInt64.ofNat (tx.txDatas.countP (chain.signs a)) + UInt64.ofNat more ≠
      txData.getNonce := by
  obtain ⟨pre, post, hsplit⟩ := List.append_of_mem hmem
  have hcount : tx.txDatas.countP (chain.signs a) = pre.countP (chain.signs a) +
      (post.countP (chain.signs a) + 1) := by
    rw [hsplit, List.countP_append, List.countP_cons, if_pos hsigns]
  rw [h.nonce pre txData post a hsplit hsigns, UInt64.add_assoc, ← UInt64.ofNat_add]
  intro heq
  have hsame := add_ofNat_cancel hmore (by omega) heq
  omega

/-- **When nonces are counted**, and replays refused: if and only if every successful creation is
the last message of its sender or followed by another one. -/
theorem noncesCounted_iff {mode : Mode} {tx : CosmosTx} {priority : ℤ}
    {rs : List MsgEthereumTxResponse} {s s₁ s₂ : ChainState Ω}
    (hlength : tx.msgs.length < 2 ^ 63)
    (hante : (anteHandle chain mode tx).run s = .ok priority s₁)
    (hrun : Delivered chain evm (tx.HasSender chain) tx.txDatas rs s₁ s₂) :
    NoncesCounted chain tx s s₂ ↔ CreationsCovered chain (tx.txDatas.zip rs) := by
  have hcounted := anteHandle_counted hante
  have hfst := (List.map_fst_zip hrun.length.ge).symm
  have hfinal : ∀ a, tx.HasSender chain a → s₂.ctx.store.sequence a = some (sequenceAfter chain a
      (s.nonce a + UInt64.ofNat (tx.txDatas.countP (chain.signs a))) (tx.txDatas.zip rs)) :=
    fun a ha => hrun.sequence ha (hcounted.sequence a ha)
  constructor
  · intro h a pre p post hsplit hp hlater
    by_contra hnone
    have hpost : ∀ q ∈ post, ¬ (chain.signs a q.1 = true ∧ Created q) := fun q hq hcreated =>
      hnone ⟨q, hq, hcreated⟩
    have hsender : tx.HasSender chain a := by
      refine ⟨p.1, ?_, hp.1⟩
      rw [hfst, hsplit]
      exact List.mem_map_of_mem (List.mem_append_right _ List.mem_cons_self)
    obtain ⟨hnonce, hcount⟩ := hcounted.split (hsplit ▸ hfst) hp.1
    have hlt := CosmosTx.countP_lt chain hlength a
    -- the sequence is the nonce after `p`, and it counts all messages
    have hlast : sequenceAfter chain a
        (s.nonce a + UInt64.ofNat (tx.txDatas.countP (chain.signs a))) (tx.txDatas.zip rs) =
        p.1.getNonce + 1 := by
      rw [hsplit]
      exact sequenceAfter_of_last hp hpost
    have heq := Option.some.inj ((h.sequence a hsender).symm.trans (hfinal a hsender))
    rw [hlast, hnonce] at heq
    have hsame := add_ofNat_cancel hlt (by omega) heq
    obtain ⟨q, hq, hqsigns⟩ := hlater
    have hpos := List.countP_pos_iff.mpr ⟨q.1, List.mem_map_of_mem hq, hqsigns⟩
    omega
  · intro hcovered
    have hsequence : ∀ a, tx.HasSender chain a → s₂.ctx.store.sequence a =
        some (s.nonce a + UInt64.ofNat (tx.txDatas.countP (chain.signs a))) := by
      intro a ha
      rw [hfinal a ha]
      rcases sequenceAfter_cases chain a (tx.txDatas.zip rs) with
        hnone | ⟨pre, p, post, hsplit, hp, hpost⟩
      · rw [sequenceAfter_of_none hnone]
      obtain ⟨hnonce, hcount⟩ := hcounted.split (hsplit ▸ hfst) hp.1
      have hzero : (post.map Prod.fst).countP (chain.signs a) = 0 := by
        by_contra hne
        obtain ⟨d, hd, hsigns⟩ := List.countP_pos_iff.mp (Nat.pos_of_ne_zero hne)
        obtain ⟨q, hq, rfl⟩ := List.mem_map.mp hd
        obtain ⟨r, hr, hrcreated⟩ := hcovered a pre p post hsplit hp ⟨q, hq, hsigns⟩
        exact hpost r hr hrcreated
      rw [hcount, hzero, Nat.add_zero, hsplit, sequenceAfter_of_last hp hpost, hnonce]
    refine ⟨hsequence, ?_⟩
    intro txData hmem later mode' tx' place utils utils' ethMsg indexed t t' sender more hunpack
      hsender hlater hseq hmore haccept
    obtain ⟨m, haccepted, -⟩ := anteHandleMsg_ok haccept
    obtain ⟨_, hunpacked⟩ := haccepted.unpacked
    have htxData : m.txData = txData := by
      rw [hunpack] at hunpacked
      exact (congrArg Prod.snd (Except.ok.inj hunpacked)).symm
    have hsame : m.sender = sender := by
      have hsigned := haccepted.signed
      rw [htxData, hlater] at hsigned
      exact (Except.ok.inj hsigned).symm
    have hsigns : chain.signs sender txData = true := by
      rw [chain.signs_of_sender hsender]
      exact decide_eq_true rfl
    have hnonce := haccepted.nonce
    rw [hsame, htxData, hseq, hsequence sender ⟨txData, hmem, hsigns⟩] at hnonce
    exact hcounted.nonce_ne hmore hmem hsigns hnonce

theorem Devnet.runsNoCode (chain : Chain) (a : Address) (txData : TxData) (s : ChainState Unit) :
    RunsNoCode chain Devnet.evm a txData s := by
  intro sender res tmpCtx db outcome _ hexecuted act hact
  obtain ⟨_, -, hrun⟩ := hexecuted.run
  obtain ⟨s₁, -, ⟨-, s₂, rfl, -⟩ | ⟨-, rfl, -⟩⟩ := execute_cases hrun
  · cases hact
  · cases hact

theorem Devnet.delivered_two (tx : CosmosTx) {d₁ d₂ : TxData} {s : ChainState Unit}
    {p : MsgEthereumTxResponse × MsgEthereumTxResponse → ChainState Unit → Prop}
    [∀ r, DecidablePred (p r)] (htx : tx.txDatas = [d₁, d₂])
    (h : okWith ((do
      let _ ← anteHandle chain18 .deliver tx
      let res₁ ← applyTransaction chain18 Devnet.evm d₁
      let res₂ ← applyTransaction chain18 Devnet.evm d₂
      return (res₁, res₂)).run s) (fun r s' => p r s') = true) :
    ∃ priority s₁ rs s₂, (anteHandle chain18 .deliver tx).run s = .ok priority s₁ ∧
      Delivered chain18 Devnet.evm (tx.HasSender chain18) tx.txDatas [rs.1, rs.2] s₁ s₂ ∧
      p rs s₂ := by
  obtain ⟨rs, s₂, hrun, hp⟩ := exists_of_okWith (p := p) h
  obtain ⟨priority, s₁, hante, hrest⟩ := bind_ok.mp hrun
  obtain ⟨res₁, s₃, hfirst, hrest⟩ := bind_ok.mp hrest
  obtain ⟨res₂, s₄, hsecond, hreturn⟩ := bind_ok.mp hrest
  cases hreturn
  refine ⟨priority, s₁, (res₁, res₂), s₂, hante, ?_, hp⟩
  rw [htx]
  exact .cons hfirst (fun a _ => Devnet.runsNoCode _ a _ _)
    (.cons hsecond (fun a _ => Devnet.runsNoCode _ a _ _) (.nil _))

/-- A call and then a creation of the same sender. -/
theorem noncesCounted_devnet :
    ∃ s₂ : ChainState Unit, NoncesCounted chain18
      (cosmosTx [legacyTx 0 21000 [1], legacyTx 1 21000 []] 42000 42000)
      (chainState 100000) s₂ := by
  obtain ⟨priority, s₁, rs, s₂, hante, hrun, -⟩ := delivered_two
    (cosmosTx [legacyTx 0 21000 [1], legacyTx 1 21000 []] 42000 42000)
    (s := chainState 100000) (p := fun _ _ => True) rfl (by decide +kernel)
  refine ⟨s₂, (noncesCounted_iff (by decide) hante hrun).mpr ?_⟩
  rintro a pre p post hsplit ⟨-, hcreated⟩ ⟨q, hq, -⟩
  -- the creation is the last message: behind it there is nothing, and the other is a call
  have hpairs : [(legacyTx 0 21000 [1], rs.1), (legacyTx 1 21000 [], rs.2)] =
      pre ++ p :: post := hsplit
  match pre, hpairs with
  | [], hpairs =>
    cases hpairs
    exact absurd (show (legacyTx 0 21000 [1]).getTo = none from hcreated.1) (by decide)
  | [_], hpairs =>
    cases hpairs
    cases hq
  | _ :: _ :: pre, hpairs =>
    have hlength := congrArg List.length hpairs
    simp at hlength

/-- The sequence is `1` in the end, and the call is accepted again. -/
theorem noncesCounted_replayed :
    ∃ priority s₁ rs s₂, (anteHandle chain18 .deliver
        (cosmosTx [legacyTx 0 21000 [], legacyTx 1 21000 [1]] 42000
          42000)).run (chainState 100000) = .ok priority s₁ ∧
      Delivered chain18 Devnet.evm
        ((cosmosTx [legacyTx 0 21000 [], legacyTx 1 21000 [1]] 42000 42000).HasSender chain18)
        [legacyTx 0 21000 [], legacyTx 1 21000 [1]] rs s₁ s₂ ∧
      s₂.ctx.store.sequence 0xA1 = some 1 ∧
      (∃ priority' s₃, (anteHandle chain18 .deliver
        (cosmosTx [legacyTx 1 21000 [1]] 21000 21000)).run s₂ = .ok priority' s₃) ∧
      ¬ NoncesCounted chain18
        (cosmosTx [legacyTx 0 21000 [], legacyTx 1 21000 [1]] 42000 42000)
        (chainState 100000) s₂ := by
  obtain ⟨priority, s₁, rs, s₂, hante, hrun, hsequence, hreplay⟩ := delivered_two
    (cosmosTx [legacyTx 0 21000 [], legacyTx 1 21000 [1]] 42000 42000)
    (s := chainState 100000)
    (p := fun _ s₂ => s₂.ctx.store.sequence 0xA1 = some 1 ∧
      okWith ((anteHandle chain18 .deliver
        (cosmosTx [legacyTx 1 21000 [1]] 21000 21000)).run s₂)
        (fun _ _ => decide True) = true) rfl (by decide +kernel)
  obtain ⟨priority', s₃, hagain, -⟩ := exists_of_okWith (p := fun _ _ => True) hreplay
  refine ⟨priority, s₁, _, s₂, hante, hrun, hsequence, ⟨priority', s₃, hagain⟩, ?_⟩
  intro hcounted
  have htwo := hcounted.sequence 0xA1 ⟨legacyTx 0 21000 [], List.mem_cons_self, rfl⟩
  rw [hsequence] at htwo
  revert htwo
  decide

end TacEvm
