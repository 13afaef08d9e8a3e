import TacEvm.Analysis.Authority
import TacEvm.Analysis.StakingAllowance

/-!
# The account of a staking grant

`Spends` is what one call of a contract does to the grants of the origin. Over a run the grant of a
type is what `remaining` says of the amounts moved under it (`Accounted`).
-/

namespace TacEvm.Staking

open FallibleState

/-- A call of the precompile: by whom and in which block. -/
structure Invocation where
  env : Env
  frame : Frame
  call : Call

/-- The message of a call, with the coin of a denom. -/
def Call.stakingMsg (denom : Denom) : Call → Option StakingMsg
  | delegate delegator validator amount => some (.delegate delegator validator ⟨denom, amount⟩)
  | undelegate delegator validator amount => some (.undelegate delegator validator ⟨denom, amount⟩)
  | redelegate delegator src dst amount => some (.beginRedelegate delegator src dst ⟨denom, amount⟩)
  | cancelUnbondingDelegation delegator validator amount height =>
    some (.cancelUnbondingDelegation delegator validator ⟨denom, amount⟩ (height.bmod (2 ^ 64)))
  | _ => none

/-- The type of the message of a call, and its amount. -/
def Call.spends : Call → Option (AuthorizationType × ℤ)
  | delegate _ _ amount => some (.delegate, amount)
  | undelegate _ _ amount => some (.undelegate, amount)
  | redelegate _ _ _ amount => some (.redelegate, amount)
  | cancelUnbondingDelegation _ _ amount _ => some (.cancelUnbondingDelegation, amount)
  | _ => none

theorem Call.stakingMsg_of_spends {call : Call} {T : AuthorizationType} {x : ℤ}
    (h : call.spends = some (T, x)) (denom : Denom) :
    ∃ msg, call.stakingMsg denom = some msg ∧ msg.authorizationType = T ∧
      msg.amount = ⟨denom, x⟩ := by
  cases call <;> cases h <;> exact ⟨_, rfl, rfl, rfl⟩

variable {Ω : Type} {env : Env} {cosmos : Cosmos Ω} {abi : Abi Ω Call.name}
  {st st' : Store Ω} {c : Frame} {call : Call} {T : AuthorizationType} {x : ℤ}

/-- A method that spends executes one message. -/
theorem handleMethod_executeMsg {r : BalanceChanges} (hspends : call.spends = some (T, x))
    (h : (handleMethod env cosmos abi call c).run st = .ok r st') :
    ∃ denom msg, call.stakingMsg denom = some msg ∧
      (executeMsg env cosmos msg c).run st = .ok () st' := by
  cases call with
  | delegate delegator validator amount =>
    obtain ⟨denom, -, h₁⟩ := KeeperM.read_bind_ok.mp h
    obtain ⟨_, st₁, hexecute, h₂⟩ := bind_ok.mp h₁
    have hst : st' = st₁ := by
      split at h₂
      · cases h₂
        rfl
      · cases h₂
        rfl
    subst hst
    exact ⟨denom, _, rfl, hexecute⟩
  | approve grantee amount typeURLs => cases hspends
  | revoke grantee typeURLs => cases hspends
  | increaseAllowance grantee amount typeURLs => cases hspends
  | decreaseAllowance grantee amount typeURLs => cases hspends
  | createValidator description commission minSelfDelegation validator pubkey value => cases hspends
  | editValidator description validator commissionRate minSelfDelegation => cases hspends
  | query name => cases hspends
  | _ =>
    obtain ⟨denom, -, h₁⟩ := KeeperM.read_bind_ok.mp h
    obtain ⟨_, st₁, hexecute, h₂⟩ := bind_ok.mp h₁
    cases h₂
    exact ⟨denom, _, rfl, hexecute⟩

/-- What is assumed of `x/staking`: it leaves the grants, and changes the stake of the delegator
only. -/
structure StakesLocally (cosmos : Cosmos Ω) {β : Type} (stake : Store Ω → Address → β) :
    Prop where
  grants : ∀ msg st st', (cosmos.stakingMsg msg).run st = .ok () st' → st'.grants = st.grants
  delegator : ∀ msg st st', (cosmos.stakingMsg msg).run st = .ok () st' →
    ∀ a, a ≠ msg.delegatorAddress → stake st' a = stake st a
  setGrant : ∀ (st : Store Ω) (granter grantee : Address) (msgType : String) (g : Option Grant)
    (a : Address), stake (st.setGrant granter grantee msgType g) a = stake st a

/-- What is left of a limit when an amount was moved. -/
def remaining (a : StakeAuthorization) (limit : Coin) (expiration : Option ℤ) (moved : ℤ) :
    Option Grant :=
  if limit.amount = moved then none
  else some ⟨.stake (limited a limit (limit.amount - moved)), expiration⟩

/-- **What a call does to the grants**: one is reduced by its amount. -/
structure Spends (env : Env) (granter grantee : Address) (T : AuthorizationType) (x : ℤ)
    (st st' : Store Ω) (a : StakeAuthorization) (expiration : Option ℤ) : Prop where
  grant : st.grants granter grantee T.msgTypeURL = some ⟨.stake a, expiration⟩
  live : ¬ expiration.any (· < env.blockTime) = true
  unlimited : a.maxTokens = none → st'.grants = st.grants
  limited : ∀ limit, a.maxTokens = some limit → x ≤ limit.amount ∧
    st'.grants = (st.setGrant granter grantee T.msgTypeURL (remaining a limit expiration x)).grants

variable {granter grantee : Address} {a : StakeAuthorization} {expiration : Option ℤ}

theorem Spends.others (h : Spends env granter grantee T x st st' a expiration) {o s : Address}
    {u : String} (hother : ¬ (o = granter ∧ s = grantee ∧ u = T.msgTypeURL)) :
    st'.grants o s u = st.grants o s u := by
  cases hlimit : a.maxTokens with
  | none => rw [h.unlimited hlimit]
  | some limit => rw [(h.limited limit hlimit).2, Store.setGrant_other hother]

theorem checkAuthzAndAllowanceForGranter_ok {amount : Coin} {msgURL : String}
    (h : Authorization.checkAuthzAndAllowanceForGranter env grantee granter amount msgURL st =
      .ok (a, expiration)) :
    st.getAuthorization env grantee granter msgURL = some (.stake a, expiration) := by
  unfold Authorization.checkAuthzAndAllowanceForGranter at h
  split at h
  · cases h
  · rename_i b expiration' hget
    split at h
    · cases h
      exact hget
    · split at h
      · cases h
      · cases h
        exact hget
  · cases h

theorem grantingDelegator_delegator {delegator d : Address}
    (h : grantingDelegator delegator c = .ok d) : delegator = c.caller ∨ delegator = c.origin := by
  unfold grantingDelegator at h
  split at h
  · cases h
  split at h
  · rename_i hcaller
    exact .inl hcaller.symm
  · split at h
    · cases h
    · rename_i horigin
      exact .inr (not_not.mp horigin).symm

/-- What `Accept` answers, by the limit. -/
theorem accept_ok {msg : StakingMsg} {resp : AcceptResponse} (h : a.accept msg = .ok resp) :
    (a.maxTokens = none ∧ resp.delete = false ∧ resp.updated = some (.stake a)) ∨
      ∃ limit, a.maxTokens = some limit ∧ msg.amount.amount ≤ limit.amount ∧
        if limit.amount = msg.amount.amount then resp.delete = true
        else resp.delete = false ∧ resp.updated =
          some (.stake (limited a limit (limit.amount - msg.amount.amount))) := by
  unfold StakeAuthorization.accept at h
  dsimp only at h
  split at h
  · cases h
  split at h
  · cases h
  split at h
  · rename_i hnone
    cases h
    exact .inl ⟨hnone, rfl, rfl⟩
  rename_i limit hlimit
  refine .inr ⟨limit, hlimit, ?_⟩
  split at h
  · cases h
  split at h
  · cases h
  rename_i hle
  split at h
  · rename_i heq
    cases h
    rw [if_pos heq]
    exact ⟨not_lt.mp hle, rfl⟩
  · rename_i hne
    cases h
    rw [if_neg hne]
    exact ⟨not_lt.mp hle, rfl, rfl⟩

/-- What is left of the authorization of a message. -/
theorem updateStakingAuthorization_ok {msg : StakingMsg}
    (htype : a.authorizationType = msg.authorizationType)
    (hgrant : st.grants granter grantee msg.msgTypeURL = some ⟨.stake a, expiration⟩)
    (h : (updateStakingAuthorization env grantee granter a expiration msg).run st = .ok () st') :
    (a.maxTokens = none ∧ st' = st) ∨
      ∃ limit, a.maxTokens = some limit ∧ msg.amount.amount ≤ limit.amount ∧
        st' = st.setGrant granter grantee msg.msgTypeURL
          (remaining a limit expiration msg.amount.amount) := by
  have hurl : a.authorizationType.msgTypeURL = msg.msgTypeURL := by
    rw [htype]
    rfl
  obtain ⟨resp, hresp, h₁⟩ := KeeperM.check_bind_ok.mp h
  rcases accept_ok hresp with ⟨hnone, hdelete, hupdated⟩ | ⟨limit, hlimit, hle, houtcome⟩
  · rw [hdelete, hupdated] at h₁
    obtain ⟨-, rfl⟩ := Authz.saveGrant_ok.mp h₁
    refine .inl ⟨hnone, ?_⟩
    show st.setGrant granter grantee a.authorizationType.msgTypeURL _ = st
    rw [hurl]
    exact Store.setGrant_eq_self hgrant
  · refine .inr ⟨limit, hlimit, hle, ?_⟩
    unfold remaining
    by_cases hall : limit.amount = msg.amount.amount
    · rw [if_pos hall] at houtcome ⊢
      rw [houtcome] at h₁
      exact (Authz.deleteGrant_ok.mp h₁).2
    rw [if_neg hall] at houtcome ⊢
    rw [houtcome.1, houtcome.2] at h₁
    obtain ⟨-, rfl⟩ := Authz.saveGrant_ok.mp h₁
    show st.setGrant granter grantee a.authorizationType.msgTypeURL _ = _
    rw [hurl]

/-- A grant is filed under its own type. -/
def Filed (st : Store Ω) (granter grantee : Address) : Prop :=
  ∀ (T : AuthorizationType) (a : StakeAuthorization) (expiration : Option ℤ),
    st.grants granter grantee T.msgTypeURL = some ⟨.stake a, expiration⟩ → a.authorizationType = T

section Step

variable {β : Type} {stake : Store Ω → Address → β}

/-- **One message** under a grant. -/
theorem executeMsg_spends (hlocal : StakesLocally cosmos stake) {msg : StakingMsg}
    (hcaller : c.caller ≠ c.origin) (hfiled : Filed st c.origin c.caller)
    (h : (executeMsg env cosmos msg c).run st = .ok () st') :
    (∃ a expiration, Spends env c.origin c.caller msg.authorizationType msg.amount.amount st st' a
      expiration) ∧
    ∀ account, account ≠ c.caller → account ≠ c.origin → stake st' account = stake st account := by
  obtain ⟨granter, hgranter, h₁⟩ := KeeperM.check_bind_ok.mp h
  rw [if_neg hcaller] at h₁
  obtain ⟨⟨a, expiration⟩, hcheck, h₂⟩ := KeeperM.read_bind_ok.mp h₁
  obtain ⟨_, st₁, hmsg, hupdate⟩ := bind_ok.mp h₂
  obtain rfl := grantingDelegator_ok hgranter
  obtain ⟨hgrant, hlive⟩ :=
    Store.getAuthorization_eq_some.mp (checkAuthzAndAllowanceForGranter_ok hcheck)
  have hgrants := hlocal.grants msg st st₁ hmsg
  have hgrant₁ : st₁.grants c.origin c.caller msg.msgTypeURL = some ⟨.stake a, expiration⟩ := by
    rw [hgrants]
    exact hgrant
  have hstake : ∀ account, account ≠ c.caller → account ≠ c.origin →
      stake st₁ account = stake st account := by
    intro account hnotCaller hnotOrigin
    refine hlocal.delegator msg st st₁ hmsg account fun heq => ?_
    rcases grantingDelegator_delegator hgranter with hdelegator | hdelegator
    · exact hnotCaller (heq.trans hdelegator)
    · exact hnotOrigin (heq.trans hdelegator)
  have htype := hfiled msg.authorizationType a expiration hgrant
  rcases updateStakingAuthorization_ok htype hgrant₁ hupdate with
    ⟨hnone, rfl⟩ | ⟨limit, hlimit, hle, rfl⟩
  · refine ⟨⟨a, expiration, hgrant, hlive, fun _ => hgrants, fun limit hlimit => ?_⟩, hstake⟩
    rw [hnone] at hlimit
    cases hlimit
  refine ⟨⟨a, expiration, hgrant, hlive, fun hnone => ?_, fun limit' hlimit' => ?_⟩, ?_⟩
  · rw [hnone] at hlimit
    cases hlimit
  · rw [hlimit] at hlimit'
    cases hlimit'
    refine ⟨hle, ?_⟩
    unfold Store.setGrant
    rw [hgrants]
    rfl
  · intro account hnotCaller hnotOrigin
    rw [hlocal.setGrant, hstake account hnotCaller hnotOrigin]

end Step

theorem msgTypeURL_injective {T T' : AuthorizationType} (h : T.msgTypeURL = T'.msgTypeURL) :
    T = T' := by
  have h' := congrArg convertMsgToAuthz h
  rw [convertMsgToAuthz_msgTypeURL, convertMsgToAuthz_msgTypeURL] at h'
  exact Option.some.inj h'

theorem remaining_limited {limit : Coin} {moved : ℤ} :
    remaining (limited a limit (limit.amount - moved)) { limit with amount := limit.amount - moved }
      expiration x = remaining a limit expiration (moved + x) := by
  have hzero : limit.amount - moved = x ↔ limit.amount = moved + x := by omega
  have hleft : limit.amount - moved - x = limit.amount - (moved + x) := by omega
  unfold remaining limited
  rw [hleft]
  by_cases h : limit.amount - moved = x
  · rw [if_pos h, if_pos (hzero.mp h)]
  · rw [if_neg h, if_neg (mt hzero.mpr h)]

theorem Spends.filed (h : Spends env granter grantee T x st st' a expiration)
    (hfiled : Filed st granter grantee) : Filed st' granter grantee := by
  intro T' b expiration' hgrant
  by_cases hT : T' = T
  · subst hT
    cases hlimit : a.maxTokens with
    | none =>
      rw [h.unlimited hlimit] at hgrant
      exact hfiled T' b expiration' hgrant
    | some limit =>
      rw [(h.limited limit hlimit).2, Store.setGrant_self] at hgrant
      unfold remaining at hgrant
      split at hgrant
      · cases hgrant
      · cases hgrant
        exact hfiled T' a expiration h.grant
  · rw [h.others fun hsame => hT (msgTypeURL_injective hsame.2.2)] at hgrant
    exact hfiled T' b expiration' hgrant

namespace Invocation

/-- A call by a contract that sends a message for an origin. -/
structure By (contract origin : Address) (i : Invocation) : Prop where
  caller : i.frame.caller = contract
  origin : i.frame.origin = origin
  spends : i.call.spends.isSome

/-- The amount a call moves under the grant of a type. -/
def movedUnder (T : AuthorizationType) (i : Invocation) : Option ℤ :=
  i.call.spends.bind fun use => if use.1 = T then some use.2 else none

variable (cosmos abi) in
def exec (i : Invocation) : KeeperM Ω Unit :=
  discard (handleMethod i.env cosmos abi i.call i.frame)

theorem movedUnder_self {i : Invocation} (h : i.call.spends = some (T, x)) :
    i.movedUnder T = some x := by
  unfold movedUnder
  rw [h]
  exact if_pos rfl

theorem movedUnder_other {i : Invocation} {T' : AuthorizationType}
    (h : i.call.spends = some (T', x)) (hT : T' ≠ T) : i.movedUnder T = none := by
  unfold movedUnder
  rw [h]
  exact if_neg hT

end Invocation

/-- The amounts that calls move under the grant of a type. -/
def amountsMoved (T : AuthorizationType) (calls : List Invocation) : List ℤ :=
  calls.filterMap (·.movedUnder T)

variable {calls : List Invocation} {i : Invocation}

theorem amountsMoved_concat_self (h : i.call.spends = some (T, x)) :
    amountsMoved T (calls ++ [i]) = amountsMoved T calls ++ [x] := by
  simp [amountsMoved, Invocation.movedUnder_self h]

theorem amountsMoved_concat_other {T' : AuthorizationType} (h : i.call.spends = some (T', x))
    (hT : T' ≠ T) : amountsMoved T (calls ++ [i]) = amountsMoved T calls := by
  simp [amountsMoved, Invocation.movedUnder_other h hT]

/-- **The accounts after some calls**: the moved amounts are gone. -/
structure Accounted (contract origin : Address) (start : Store Ω) (calls : List Invocation)
    (st : Store Ω) : Prop where
  filed : Filed st origin contract
  unused : ∀ T, amountsMoved T calls = [] →
    st.grants origin contract T.msgTypeURL = start.grants origin contract T.msgTypeURL
  used : ∀ T a limit expiration, amountsMoved T calls ≠ [] →
    start.grants origin contract T.msgTypeURL = some ⟨.stake a, expiration⟩ →
    a.maxTokens = some limit → (amountsMoved T calls).sum ≤ limit.amount ∧
      st.grants origin contract T.msgTypeURL =
        remaining a limit expiration (amountsMoved T calls).sum

/-- **One call keeps the accounts.** -/
theorem Accounted.step {contract origin : Address} {start : Store Ω}
    (hacc : Accounted contract origin start calls st) (hi : i.call.spends = some (T, x))
    (h : Spends env origin contract T x st st' a expiration) :
    Accounted contract origin start (calls ++ [i]) st' where
  filed := h.filed hacc.filed
  unused := by
    intro T' hnone
    by_cases hT : T = T'
    · subst hT
      rw [amountsMoved_concat_self hi] at hnone
      cases List.append_ne_nil_of_right_ne_nil _ (List.cons_ne_nil x []) hnone
    · rw [amountsMoved_concat_other hi hT] at hnone
      rw [h.others fun hsame => hT (msgTypeURL_injective hsame.2.2).symm]
      exact hacc.unused T' hnone
  used := by
    intro T' b limit expiration' hused hstart hlimit
    by_cases hT : T = T'
    · subst hT
      rw [amountsMoved_concat_self hi, List.sum_append, List.sum_singleton]
      by_cases hfirst : amountsMoved T calls = []
      · -- the first call under the grant finds it as it was at the start
        have hgrant := h.grant
        rw [hacc.unused T hfirst, hstart] at hgrant
        cases hgrant
        obtain ⟨hle, hgrants⟩ := h.limited limit hlimit
        rw [hfirst, List.sum_nil, zero_add, hgrants, Store.setGrant_self]
        exact ⟨hle, rfl⟩
      · obtain ⟨-, hleft⟩ := hacc.used T b limit expiration' hfirst hstart hlimit
        have hgrant := h.grant
        rw [hleft] at hgrant
        unfold remaining at hgrant
        split at hgrant
        · cases hgrant
        cases hgrant
        obtain ⟨hle, hgrants⟩ := h.limited _ rfl
        rw [hgrants, Store.setGrant_self]
        dsimp only at hle
        exact ⟨by omega, remaining_limited⟩
    · rw [amountsMoved_concat_other hi hT] at hused ⊢
      rw [h.others fun hsame => hT (msgTypeURL_injective hsame.2.2).symm]
      exact hacc.used T' b limit expiration' hused hstart hlimit

section Run

variable {β : Type} {stake : Store Ω → Address → β} {contract origin : Address}

/-- A call of the contract spends a grant. -/
theorem Invocation.By.spends_ok {i : Invocation} (hi : i.By contract origin)
    (hother : contract ≠ origin) (hlocal : StakesLocally cosmos stake)
    (hfiled : Filed st origin contract) (h : (i.exec cosmos abi).run st = .ok () st') :
    ∃ T x a expiration, i.call.spends = some (T, x) ∧
      Spends i.env origin contract T x st st' a expiration ∧
      ∀ account, account ≠ contract → account ≠ origin → stake st' account = stake st account := by
  obtain ⟨⟨T, x⟩, hspends⟩ := Option.isSome_iff_exists.mp hi.spends
  obtain ⟨r, hrun⟩ := discard_ok.mp h
  obtain ⟨denom, msg, hmsg, hexecute⟩ := handleMethod_executeMsg hspends hrun
  obtain ⟨msg', hmsg', htype, hamount⟩ := Call.stakingMsg_of_spends hspends denom
  rw [hmsg] at hmsg'
  cases hmsg'
  obtain ⟨rfl, rfl, -⟩ := hi
  obtain ⟨⟨a, expiration, hgrants⟩, hstakes⟩ := executeMsg_spends hlocal hother hfiled hexecute
  rw [htype, hamount] at hgrants
  exact ⟨T, x, a, expiration, hspends, hgrants, hstakes⟩

/-- **The run rule**: successful calls keep the accounts. -/
theorem accounted_run (hother : contract ≠ origin) (hlocal : StakesLocally cosmos stake)
    (hfiled : Filed st origin contract) {calls : List Invocation}
    (hcalls : ∀ i ∈ calls, i.By contract origin)
    (hrun : (calls.forM fun i => i.exec cosmos abi).run st = .ok () st') :
    Accounted contract origin st calls st' ∧
      ∀ account, account ≠ contract → account ≠ origin → stake st' account = stake st account := by
  refine forM_ok (fun done s => Accounted contract origin st done s ∧
    ∀ account, account ≠ contract → account ≠ origin → stake s account = stake st account)
    hrun ⟨⟨hfiled, fun _ _ => rfl, fun _ _ _ _ hused => absurd rfl hused⟩, fun _ _ _ => rfl⟩ ?_
  intro done i rest s s' hsplit hinv hi
  obtain ⟨hacc, hstakes⟩ := hinv
  have hmem : i ∈ calls := by
    rw [hsplit]
    simp
  obtain ⟨T, x, a, expiration, hspends, hgrants, hstep⟩ :=
    (hcalls i hmem).spends_ok hother hlocal hacc.filed hi
  refine ⟨hacc.step hspends hgrants, fun account hcontract horigin => ?_⟩
  rw [hstep account hcontract horigin, hstakes account hcontract horigin]

/-- **The accounts of the staking grants.** Every message of a contract has a live grant from the
origin, and touches no other grant or stake; no more is moved than the limit. -/
theorem stakingGrants_accounted (abi : Abi Ω Call.name) (hlocal : StakesLocally cosmos stake)
    (hother : contract ≠ origin) (hfiled : Filed st origin contract) {calls : List Invocation}
    (hcalls : ∀ i ∈ calls, i.By contract origin)
    (hrun : (calls.forM fun i => i.exec cosmos abi).run st = .ok () st') :
    (∀ account, stake st' account ≠ stake st account → account = contract ∨ account = origin) ∧
    ∀ before i after, calls = before ++ i :: after → ∃ T x st₁ st₂,
      i.call.spends = some (T, x) ∧
      (before.forM fun i => i.exec cosmos abi).run st = .ok () st₁ ∧
      (i.exec cosmos abi).run st₁ = .ok () st₂ ∧
      (after.forM fun i => i.exec cosmos abi).run st₂ = .ok () st' ∧
      (∃ a expiration, st₁.grants origin contract T.msgTypeURL = some ⟨.stake a, expiration⟩ ∧
        ¬ expiration.any (· < i.env.blockTime) = true) ∧
      (∀ o s u, ¬ (o = origin ∧ s = contract ∧ u = T.msgTypeURL) →
        st₂.grants o s u = st₁.grants o s u) ∧
      ∀ a limit expiration,
        st.grants origin contract T.msgTypeURL = some ⟨.stake a, expiration⟩ →
        a.maxTokens = some limit →
        (amountsMoved T (before ++ [i])).sum ≤ limit.amount ∧
        st₂.grants origin contract T.msgTypeURL =
          if (amountsMoved T (before ++ [i])).sum = limit.amount then none
          else some ⟨.stake (limited a limit
            (limit.amount - (amountsMoved T (before ++ [i])).sum)), expiration⟩ := by
  constructor
  · intro account hchanged
    by_contra hneither
    obtain ⟨hcontract, horigin⟩ := not_or.mp hneither
    exact hchanged ((accounted_run hother hlocal hfiled hcalls hrun).2 account hcontract horigin)
  intro before i after hsplit
  subst hsplit
  obtain ⟨st₁, hbefore, hrest⟩ := forM_append_ok.mp hrun
  obtain ⟨_, st₂, hcall, hafter⟩ := bind_ok.mp hrest
  have hprior : ∀ j ∈ before, j.By contract origin :=
    fun j hj => hcalls j (List.mem_append_left _ hj)
  obtain ⟨hacc, -⟩ := accounted_run hother hlocal hfiled hprior hbefore
  obtain ⟨T, x, a, expiration, hspends, hgrants, -⟩ :=
    (hcalls i (List.mem_append_right _ List.mem_cons_self)).spends_ok hother hlocal hacc.filed hcall
  have hused : amountsMoved T (before ++ [i]) ≠ [] := by
    rw [amountsMoved_concat_self hspends]
    exact List.append_ne_nil_of_right_ne_nil _ (List.cons_ne_nil x [])
  refine ⟨T, x, st₁, st₂, hspends, hbefore, hcall, hafter,
    ⟨a, expiration, hgrants.grant, hgrants.live⟩, fun o s u => hgrants.others, ?_⟩
  intro b limit expiration' hstart hlimit
  obtain ⟨hle, hleft⟩ :=
    (hacc.step hspends hgrants).used T b limit expiration' hused hstart hlimit
  refine ⟨hle, hleft.trans ?_⟩
  unfold remaining
  simp only [eq_comm]

end Run

namespace Devnet

/-- The stake of an account: its delegations. -/
def stakeOf (st : Store Devnet.Delegations) (a : Address) : List (String × ℤ) :=
  (st.rest.filter (·.1 = a)).map (·.2)

/-- The contract `0xC1` delegates coins of the origin `0xA1`. -/
def invocation (amount : ℤ) : Invocation where
  env := stakingEnv
  frame := { Devnet.frame 0xC1 [] with origin := 0xA1 }
  call := .delegate 0xA1 "val" amount

theorem stakingMsg_ok {msg : StakingMsg} {st st' : Store Devnet.Delegations}
    (h : (stakingCosmos.stakingMsg msg).run st = .ok () st') :
    st'.grants = st.grants ∧ ∀ a, a ≠ msg.delegatorAddress → stakeOf st' a = stakeOf st a := by
  cases msg with
  | delegate delegator validator coin =>
    obtain ⟨_, st₁, hsend, hrecord⟩ := bind_ok.mp h
    obtain ⟨-, -, rfl⟩ := Bank.sendCoins_ok hsend
    cases hrecord
    refine ⟨rfl, fun a ha => ?_⟩
    have hne : ¬ delegator = a := fun heq => ha heq.symm
    simp [stakeOf, hne]
    rfl
  | undelegate delegator validator coin =>
    cases h
    refine ⟨rfl, fun a ha => ?_⟩
    have hne : ¬ delegator = a := fun heq => ha heq.symm
    simp [stakeOf, hne]
  | _ =>
    cases h
    exact ⟨rfl, fun a _ => rfl⟩

theorem stakesLocally : StakesLocally stakingCosmos stakeOf where
  grants := fun _ _ _ h => (stakingMsg_ok h).1
  delegator := fun _ _ _ h => (stakingMsg_ok h).2
  setGrant := fun _ _ _ _ _ _ => rfl

theorem authorized_filed (T : AuthorizationType) (limit : ℤ) :
    Filed (authorized T limit) 0xA1 0xC1 := by
  intro T' a expiration hgrant
  by_cases hT : T' = T
  · subst hT
    unfold authorized at hgrant
    rw [Store.setGrant_self] at hgrant
    cases hgrant
    rfl
  · unfold authorized at hgrant
    rw [Store.setGrant_other fun hsame => hT (msgTypeURL_injective hsame.2.2)] at hgrant
    cases hgrant

def invocations : List Invocation := [invocation 3, invocation 4]

theorem invocations_by : ∀ i ∈ invocations, i.By 0xC1 0xA1 := by
  intro i hi
  simp only [invocations, List.mem_cons, List.not_mem_nil, or_false] at hi
  rcases hi with rfl | rfl
  · exact ⟨rfl, rfl, rfl⟩
  · exact ⟨rfl, rfl, rfl⟩

end Devnet

open Staking.Devnet

/-- A limit of seven is used up by three and four coins. -/
theorem stakingGrants_accounted_devnet :
    ∃ st', (invocations.forM fun i => i.exec stakingCosmos
        (Devnet.abi Call.name [])).run (authorized .delegate 7) = .ok () st' ∧
      st'.grants 0xA1 0xC1 AuthorizationType.delegate.msgTypeURL = none ∧
      ∀ account, stakeOf st' account ≠ stakeOf (authorized .delegate 7) account →
        account = 0xC1 ∨ account = 0xA1 := by
  obtain ⟨st', hrun, -⟩ := Devnet.exists_of_okAnd
    (r := (invocations.forM fun i => i.exec stakingCosmos
      (Devnet.abi Call.name [])).run (authorized .delegate 7))
    (p := fun _ => True) (by decide +kernel)
  obtain ⟨hstakes, hsteps⟩ := stakingGrants_accounted _ stakesLocally (by decide)
    (authorized_filed .delegate 7) invocations_by hrun
  obtain ⟨T, x, st₁, st₂, hspends, -, -, hafter, -, -, hleft⟩ :=
    hsteps [invocation 3] (invocation 4) [] rfl
  cases hspends
  cases hafter
  exact ⟨st', hrun, (hleft (authorization .delegate 7) _ none Store.setGrant_self rfl).2, hstakes⟩

end TacEvm.Staking
