import TacEvm.Analysis.StoreInvariant
import TacEvm.Model.Ics20
import TacEvm.Model.Staking

/-!
# The authority of a contract

The methods that spend something ask for a grant of the origin to the caller. The approval methods
ask for nothing and take the origin as granter, so that any contract can make the grant it needs.
-/

namespace TacEvm

open FallibleState KeeperM Devnet

variable {Ω : Type} {env : Env} {cosmos : Cosmos Ω}

/-! ## Methods without a grant -/

section Methods

variable {st : Store Ω} {c : Frame}

/-- The origin has granted nothing to the caller. -/
def Ungranted (c : Frame) (st : Store Ω) : Prop :=
  ∀ msgType, st.grants c.origin c.caller msgType = none

theorem Ungranted.getAuthorization (h : Ungranted c st) (msgType : String) :
    st.getAuthorization env c.caller c.origin msgType = none := by
  unfold Store.getAuthorization
  rw [h msgType]
  rfl

namespace Staking

theorem grantingDelegator_ok {delegator d : Address} (h : grantingDelegator delegator c = .ok d) :
    d = c.origin := by
  unfold grantingDelegator at h
  split at h
  · cases h
  split at h
  · cases h
    rfl
  split at h
  · cases h
  · rename_i horigin
    cases h
    exact (not_not.mp horigin).symm

theorem executeMsg_leaves (h : Ungranted c st) (hcaller : c.caller ≠ c.origin)
    (msg : StakingMsg) : Leaves (Eq st) (executeMsg env cosmos msg c) st := by
  have hcheck : Authorization.checkAuthzAndAllowanceForGranter env c.caller c.origin msg.amount
      msg.msgTypeURL st =
        .error (Authorization.errAuthzDoesNotExistOrExpired (.str msg.msgTypeURL) c.caller) := by
    unfold Authorization.checkAuthzAndAllowanceForGranter
    rw [h.getAuthorization]
  refine (check_leaves _ rfl).bind fun delegator st' hrun => ?_
  obtain ⟨hdelegator, rfl⟩ := check_ok.mp hrun
  rw [grantingDelegator_ok hdelegator, if_neg hcaller]
  exact Leaves.of_error (bind_run_of_error (read_run_of_error hcheck)) rfl

/-- The approval methods of both precompiles. -/
def approvalMethods : List String :=
  ["approve", "revoke", "increaseAllowance", "decreaseAllowance"]

/-- **Staking without a grant** fails, but for approvals and queries. -/
theorem handleMethod_leaves (abi : Abi Ω Call.name) (h : Ungranted c st)
    (hcaller : c.caller ≠ c.origin) {call : Call} (hname : call.name ∉ approvalMethods) :
    Leaves (Eq st) (handleMethod env cosmos abi call c) st := by
  have hmsg : ∀ (msg : Denom → StakingMsg) (f : Denom → KeeperM Ω BalanceChanges),
      (∀ denom, Leaves (Eq st) (f denom) st) →
      Leaves (Eq st) (read cosmos.bondDenom >>= fun denom =>
        executeMsg env cosmos (msg denom) c >>= fun _ => f denom) st := by
    intro msg f hf
    refine (read_leaves _ rfl).seq ?_
    rintro denom _ rfl
    refine (executeMsg_leaves h hcaller (msg denom)).seq ?_
    rintro _ _ rfl
    exact hf denom
  cases call with
  | approve grantee amount typeURLs => exact absurd (by simp [approvalMethods, Call.name]) hname
  | revoke grantee typeURLs => exact absurd (by simp [approvalMethods, Call.name]) hname
  | createValidator description commission minSelfDelegation validator pubkey value =>
    refine (read_leaves _ rfl).seq ?_
    rintro denom _ rfl
    refine (check_leaves _ rfl).seq ?_
    rintro msg _ rfl
    refine (ensure_leaves _ rfl).bind fun _ st' hrun => ?_
    exact absurd (ensure_ok.mp hrun).1 hcaller
  | editValidator description validator commissionRate minSelfDelegation =>
    refine (check_leaves _ rfl).seq ?_
    rintro msg _ rfl
    refine (ensure_leaves _ rfl).bind fun _ st' hrun => ?_
    exact absurd (ensure_ok.mp hrun).1 hcaller
  | delegate delegator validator amount =>
    refine hmsg (fun denom => .delegate delegator validator ⟨denom, amount⟩) _ fun denom => ?_
    split
    · exact .pure rfl
    · exact .pure rfl
  | undelegate delegator validator amount =>
    exact hmsg (fun denom => .undelegate delegator validator ⟨denom, amount⟩) _
      fun denom => .pure rfl
  | redelegate delegator src dst amount =>
    exact hmsg (fun denom => .beginRedelegate delegator src dst ⟨denom, amount⟩) _
      fun denom => .pure rfl
  | cancelUnbondingDelegation delegator validator amount height =>
    exact hmsg (fun denom => .cancelUnbondingDelegation delegator validator ⟨denom, amount⟩
      (height.bmod (2 ^ 64))) _ fun denom => .pure rfl
  | query name =>
    refine (read_leaves _ rfl).seq ?_
    rintro _ _ rfl
    exact .pure rfl
  | _ =>
    exact absurd (by simp [approvalMethods, Call.name]) hname

end Staking

namespace Ics20

/-- **Transfers without a grant** fail before anything is sent. -/
theorem transfer_leaves (h : Ungranted c st) (hcaller : c.caller ≠ c.origin) (msg : MsgTransfer) :
    Leaves (Eq st) (transfer env cosmos msg c) st := by
  have hcheck : checkAndAcceptAuthorizationIfNeeded env cosmos msg c st =
      .error (Authorization.errAuthzDoesNotExistOrExpired (.addr c.caller) c.origin) := by
    unfold checkAndAcceptAuthorizationIfNeeded
    rw [if_neg hcaller, h.getAuthorization]
  refine (check_leaves _ rfl).seq ?_
  rintro _ _ rfl
  refine (read_leaves _ rfl).seq ?_
  rintro _ _ rfl
  refine (ensure_leaves _ rfl).seq ?_
  rintro _ _ rfl
  exact Leaves.of_error (bind_run_of_error (read_run_of_error hcheck)) rfl

theorem handleMethod_leaves (abi : Abi Ω Call.name) (h : Ungranted c st)
    (hcaller : c.caller ≠ c.origin) {call : Call}
    (hname : call.name ∉ Staking.approvalMethods) :
    Leaves (Eq st) (handleMethod env cosmos abi call c) st := by
  cases call with
  | revoke grantee => exact absurd (by simp [Staking.approvalMethods, Call.name]) hname
  | transfer msg => exact transfer_leaves h hcaller msg
  | query name =>
    refine (read_leaves _ rfl).seq ?_
    rintro _ _ rfl
    exact .pure rfl
  | unknown name => exact .throw rfl
  | _ =>
    exact absurd (by simp [Staking.approvalMethods, Call.name]) hname

end Ics20

end Methods

/-! ## Calls without a grant -/

variable (env cosmos) in
/-- A call of one of the two precompiles, not by the origin `O`. -/
structure ContractCall (staking : Abi Ω Staking.Call.name) (ics20 : Abi Ω Ics20.Call.name)
    (O : Address) (c : PrecompileCall Ω) : Prop where
  precompile : c.precompile = Staking.precompile env cosmos staking ∨
    c.precompile = Ics20.precompile env cosmos ics20
  origin : c.frame.origin = O
  caller : c.frame.caller ≠ O

/-- The calldata selects an approval method. -/
def PrecompileCall.Approves (c : PrecompileCall Ω) : Prop :=
  ∃ m, c.precompile.selectMethod c.frame = .ok m ∧ m.name ∈ Staking.approvalMethods

section Calls

variable {staking : Abi Ω Staking.Call.name} {ics20 : Abi Ω Ics20.Call.name} {O : Address}

/-- **Calls without a grant** leave the store, unless they approve. -/
theorem ContractCall.effect_eq {c : PrecompileCall Ω}
    (hc : ContractCall env cosmos staking ics20 O c) (happroves : ¬ c.Approves) {st : Store Ω}
    (h : Ungranted c.frame st) : c.effect st = st := by
  have hcaller : c.frame.caller ≠ c.frame.origin := by
    rw [hc.origin]
    exact hc.caller
  unfold PrecompileCall.effect
  cases hprepare : c.precompile.prepare c.frame with
  | error e => rfl
  | ok handler =>
    dsimp only
    obtain ⟨m, bz, hselect, hunpack⟩ := Precompile.prepare_ok hprepare
    have hname : m.name ∉ Staking.approvalMethods := fun hm => happroves ⟨m, hselect, hm⟩
    rcases hc.precompile with hp | hp
    · rw [hp] at hunpack
      obtain ⟨call, hcall, rfl⟩ := except_map_ok.mp hunpack
      rw [← staking.unpack_name m bz call hcall] at hname
      rw [Handler.of_store]
      exact (Staking.handleMethod_leaves staking h hcaller hname).symm
    · rw [hp] at hunpack
      obtain ⟨call, hcall, rfl⟩ := except_map_ok.mp hunpack
      rw [← ics20.unpack_name m bz call hcall] at hname
      rw [Handler.of_store]
      exact (Ics20.handleMethod_leaves ics20 h hcaller hname).symm

variable (env) in
/-- The grants and coins of `O` and the delegations are left. -/
structure AuthorityKept (O : Address) (ctx : Context Ω) (tx : TxConfig) (as : List (Action Ω))
    (s : StateDB Ω) : Prop where
  grants : (s.commit env).2.store.grants O = ctx.store.grants O
  modules : (s.commit env).2.store.rest = ctx.store.rest
  coins : (StateDB.new ctx tx).forCalls env
    (fun s c _ => ∀ denom, (c.effect (s.flushedStore env c)).balance O denom =
      (s.flushedStore env c).balance O denom) as

/-- **No authority from being called.** Calls by contracts without a grant of `O` and without
approvals touch no grant, delegation or coin of `O`. -/
theorem authority_kept {ctx : Context Ω} {tx : TxConfig} {as : List (Action Ω)} {s : StateDB Ω}
    (hrun : (StateDB.new ctx tx).run env as = some s)
    (hcalls : ∀ c, Action.call c ∈ as → ContractCall env cosmos staking ics20 O c)
    (hgrants : ∀ c, Action.call c ∈ as → ∀ msgType,
      ctx.store.grants O c.frame.caller msgType = none)
    (happroves : ∀ c, Action.call c ∈ as → ¬ c.Approves) :
    AuthorityKept env O ctx tx as s := by
  let P : Store Ω → Prop := fun st => st.grants O = ctx.store.grants O ∧ st.rest = ctx.store.rest
  have hP : AboutModules P := by
    intro st st' hsame hst
    exact ⟨by rw [hsame.grants]; exact hst.1, by rw [hsame.rest]; exact hst.2⟩
  have hungranted : ∀ c, Action.call c ∈ as → ∀ st, P st → Ungranted c.frame st := by
    intro c hc st hst msgType
    rw [(hcalls c hc).origin, hst.1]
    exact hgrants c hc msgType
  have heffect : ∀ c, Action.call c ∈ as → ∀ st, P st → c.effect st = st := fun c hc st hst =>
    (hcalls c hc).effect_eq (happroves c hc) (hungranted c hc st hst)
  have hkept : ∀ c, Action.call c ∈ as → ∀ st, P st → P (c.effect st) := by
    intro c hc st hst
    rw [heffect c hc st hst]
    exact hst
  have hinit : StoresSatisfy P (StateDB.new ctx tx) := StoresSatisfy.new ⟨rfl, rfl⟩
  have hfinal : P (s.commit env).2.store := (hinit.run hP hkept hrun).commit hP
  refine ⟨hfinal.1, hfinal.2, ?_⟩
  refine StateDB.forCalls_of_invariant (StoresSatisfy P) ?_ ?_ hinit
  · intro a ha s s' hs hstep
    exact hs.action (fun _ _ => hP.commitKeeps _) (fun c hc => hkept c (hc ▸ ha)) hstep
  · intro c hc s s' hs denom
    have hflushed : P (s.flushedStore env c) :=
      (StoresSatisfy.flush (hs.entered c) (hP.commitKeeps _)).cache
    rw [heffect c hc _ hflushed]

end Calls

/-- The contract `0xC1` calls the staking precompile for `0xA1`. -/
def Devnet.contractCall (calls : List Staking.Call) (place : UInt8) :
    PrecompileCall Delegations where
  kind := .call
  precompile := Staking.precompile env18 (Devnet.cosmos env18) (abi Staking.Call.name calls)
  frame := { frame 0xC1 (calldata place) with origin := 0xA1 }

/-- Without a grant the contract cannot delegate for the origin. -/
theorem authority_kept_devnet :
    ∃ s, (StateDB.new (ctx stakingStore) txConfig).run
        env18
        [.call (contractCall [.delegate 0xA1 "val" 5] 0)] = some s ∧
      AuthorityKept env18 0xA1 (ctx stakingStore)
        txConfig [.call (contractCall [.delegate 0xA1 "val" 5] 0)] s := by
  have hcall : ∀ c, Action.call c ∈ [Action.call (contractCall [.delegate 0xA1 "val" 5] 0)] →
      c = contractCall [.delegate 0xA1 "val" 5] 0 := by
    intro c hc
    cases List.mem_singleton.mp hc
    rfl
  refine ⟨_, rfl, @authority_kept _ _ (Devnet.cosmos env18)
    (abi Staking.Call.name [.delegate 0xA1 "val" 5]) (abi Ics20.Call.name [])
    _ _ _ _ _ rfl ?_ ?_ ?_⟩
  · intro c hc
    rw [hcall c hc]
    exact ⟨.inl rfl, rfl, by decide⟩
  · intro c hc msgType
    rw [hcall c hc]
    rfl
  intro c hc
  rw [hcall c hc]
  rintro ⟨m, hselect, hm⟩
  have hdelegate : m = { name := "delegate", type := .function } := by
    have hok := hselect
    cases hok
    rfl
  subst hdelegate
  revert hm
  decide

/-- The contract grants itself what it needs, and delegates five coins. -/
theorem authority_taken :
    stakingStore.grants 0xA1 = (fun _ _ => none) ∧
    ∃ s, (StateDB.new (ctx stakingStore) txConfig).run
        env18
        ([0, 1].map fun place => .call (contractCall
          [.approve 0xC1 7 ["/cosmos.staking.v1beta1.MsgDelegate"], .delegate 0xA1 "val" 5]
          place)) = some s ∧
      (s.commit env18).1 = none ∧
      (s.commit env18).2.store.grants 0xA1 0xC1
        "/cosmos.staking.v1beta1.MsgDelegate" ≠ none ∧
      (s.commit env18).2.store.rest = [(0xA1, "val", 5)] ∧
      (s.commit env18).2.store.balance 0xA1 "utac" = 5 :=
  ⟨rfl, exists_of_any (by decide +kernel)⟩

end TacEvm
