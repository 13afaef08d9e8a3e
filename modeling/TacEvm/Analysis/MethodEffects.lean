import Mathlib.Data.FinEnum
import TacEvm.Analysis.Bank
import TacEvm.Library.Ledger
import TacEvm.Model.Devnet
import TacEvm.Model.Distribution
import TacEvm.Model.Staking

/-!
# What methods do to the bank

Whatever a method does with grants, the bank stays as it was; and if the modules behind the
precompiles conserve the EVM coin, so does every method.
-/

namespace TacEvm

open FallibleState KeeperM

variable {Ω : Type} {env : Env}

/-- The same coins. -/
structure SameBank (st st' : Store Ω) : Prop where
  balance : st'.balance = st.balance
  supply : st'.supply = st.supply

instance : IsPreorder (Store Ω) SameBank where
  refl _ := ⟨rfl, rfl⟩
  trans _ _ _ h h' := ⟨h'.balance.trans h.balance, h'.supply.trans h.supply⟩

theorem Authz.saveGrant_sameBank (grantee granter : Address) (a : Authorization)
    (expiration : Option ℤ) :
    Within SameBank (Authz.saveGrant env grantee granter a expiration : KeeperM Ω Unit) := by
  unfold saveGrant
  split
  · exact .throw _
  · exact .modify fun _ => ⟨rfl, rfl⟩

theorem Authz.deleteGrant_sameBank (grantee granter : Address) (msgType : String) :
    Within SameBank (Authz.deleteGrant grantee granter msgType : KeeperM Ω Unit) := by
  intro st _ st' h
  unfold deleteGrant at h
  rw [run_get_bind] at h
  split at h
  · cases h
  · cases h
    exact ⟨rfl, rfl⟩

/-! ## Conserving the EVM coin -/

/-- Nothing of the EVM coin is minted or burnt. -/
structure Conserves (env : Env) (st st' : Store Ω) : Prop where
  supply : st'.supply env.evmDenom = st.supply env.evmDenom
  total : ∑ a, (st'.balance a env.evmDenom : ℤ) = ∑ a, (st.balance a env.evmDenom : ℤ)

instance : IsPreorder (Store Ω) (Conserves env) where
  refl _ := ⟨rfl, rfl⟩
  trans _ _ _ h h' := ⟨h'.supply.trans h.supply, h'.total.trans h.total⟩

theorem SameBank.conserves {st st' : Store Ω} (h : SameBank st st') : Conserves env st st' := by
  constructor
  · rw [h.supply]
  · rw [h.balance]

/-- The coins in the bank, as a ledger. -/
def Store.ledger (st : Store Ω) : Address → Denom → ℤ := fun a d => st.balance a d

/-- A payment of one coin. -/
def Coin.payment (coin : Coin) (src dst : Address) : Ledger.Payment Address Denom where
  src := src
  dst := dst
  amount := fun d => if d = coin.denom then coin.amount else 0

theorem Bank.sent_settles {src dst : Address} {d : Denom} {n : ℕ} {st : Store Ω}
    (h : n ≤ st.balance src d) :
    Ledger.Settles [Coin.payment ⟨d, n⟩ src dst] st.ledger (Bank.sent st src dst d n).ledger := by
  intro a e
  simp only [Store.ledger, Bank.sent, Coin.payment, Ledger.net_cons, Ledger.net_nil,
    Ledger.Payment.net, Store.balance_setBankBalance]
  by_cases he : e = d
  · subst he
    by_cases hdst : a = dst
    · subst hdst
      by_cases hsrc : a = src
      · subst hsrc
        simp
        omega
      · simp [hsrc]
    · by_cases hsrc : a = src
      · subst hsrc
        simp [hdst]
        omega
      · simp [hdst, hsrc]
  · simp [he]

theorem Bank.sendCoins_settles {src dst : Address} {d : Denom} {amt : ℤ} {st st' : Store Ω}
    (h : (Bank.sendCoins env src dst d amt).run st = .ok () st') :
    0 < amt ∧ st'.supply = st.supply ∧
      Ledger.Settles [Coin.payment ⟨d, amt⟩ src dst] st.ledger st'.ledger := by
  obtain ⟨hpos, hle, rfl⟩ := Bank.sendCoins_ok h
  have hamt : ((amt.toNat : ℕ) : ℤ) = amt := Int.toNat_of_nonneg hpos.le
  have hsent := @Bank.sent_settles Ω src dst d amt.toNat st (by omega)
  rw [hamt] at hsent
  exact ⟨hpos, rfl, hsent⟩

theorem Bank.sendCoins_conserves (src dst : Address) (d : Denom) (amt : ℤ) :
    Within (Conserves env) (Bank.sendCoins env src dst d amt : KeeperM Ω Unit) := by
  intro st _ st' h
  obtain ⟨-, hsupply, hsettles⟩ := Bank.sendCoins_settles h
  exact ⟨congrFun hsupply _, hsettles.sum_eq env.evmDenom⟩

/-- The modules behind the two precompiles conserve the EVM coin. -/
structure Cosmos.Conserving (cosmos : Cosmos Ω) (env : Env) : Prop where
  createValidator : ∀ msg, Within (Conserves env) (cosmos.createValidator msg)
  editValidator : ∀ msg, Within (Conserves env) (cosmos.editValidator msg)
  stakingMsg : ∀ msg, Within (Conserves env) (cosmos.stakingMsg msg)
  withdrawDelegationRewards : ∀ delegator validator,
    Within (Conserves env) (cosmos.withdrawDelegationRewards delegator validator)
  withdrawValidatorCommission : ∀ validator,
    Within (Conserves env) (cosmos.withdrawValidatorCommission validator)
  fundCommunityPool : ∀ depositor coins,
    Within (Conserves env) (cosmos.fundCommunityPool depositor coins)
  setWithdrawAddress : ∀ delegator withdrawer,
    Within (Conserves env) (cosmos.setWithdrawAddress delegator withdrawer)

theorem Devnet.cosmos_conserving (env : Env) : (Devnet.cosmos env).Conserving env where
  createValidator := fun _ => Bank.sendCoins_conserves _ _ _ _
  editValidator := fun _ => .pure _
  stakingMsg := fun msg => by
    cases msg with
    | delegate delegator validator coin =>
      exact (Bank.sendCoins_conserves _ _ _ _).bind fun _ => .modify fun _ => ⟨rfl, rfl⟩
    | undelegate delegator validator coin => exact .modify fun _ => ⟨rfl, rfl⟩
    | _ => exact .pure _
  withdrawDelegationRewards := fun _ _ => .pure _
  withdrawValidatorCommission := fun _ => .pure _
  fundCommunityPool := fun _ _ => .forM fun _ _ => Bank.sendCoins_conserves _ _ _ _
  setWithdrawAddress := fun _ _ => .pure _

variable {cosmos : Cosmos Ω}

namespace Staking

theorem grantOrDeleteStakingAuthz_sameBank (grantee granter : Address) (coin : Option Coin)
    (authzType : AuthorizationType) :
    Within SameBank (grantOrDeleteStakingAuthz env cosmos grantee granter coin authzType) := by
  have hcreate : ∀ limit, Within SameBank
      (createStakingAuthz env cosmos grantee granter limit authzType) := by
    intro limit
    refine (read_within _).bind fun validators => ?_
    refine (ensure_within _).bind fun _ => ?_
    refine (ensure_within _).bind fun _ => ?_
    exact Authz.saveGrant_sameBank _ _ _ _
  unfold grantOrDeleteStakingAuthz
  cases coin with
  | none => exact hcreate none
  | some coin =>
    dsimp only
    split
    · exact hcreate _
    · exact Authz.deleteGrant_sameBank _ _ _

theorem existingStakeAuthz_sameBank (grantee granter : Address) (typeURL : String) :
    Within SameBank (existingStakeAuthz env grantee granter typeURL : KeeperM Ω _) := by
  refine (read_within _).bind fun a => ?_
  obtain ⟨a, expiration⟩ := a
  cases a with
  | stake a => exact .pure _
  | _ => exact .throw _

theorem decreaseAllowanceOf_sameBank (grantee granter : Address) (coin : Option Coin)
    (stakeAuthz : StakeAuthorization) (expiration : Option ℤ) :
    Within SameBank
      (decreaseAllowanceOf env grantee granter coin stakeAuthz expiration : KeeperM Ω Unit) := by
  unfold decreaseAllowanceOf
  cases stakeAuthz.maxTokens with
  | none => exact .pure _
  | some limit =>
    cases coin with
    | none => exact .throw _
    | some coin =>
      dsimp only
      split
      · exact .throw _
      · exact Authz.saveGrant_sameBank _ _ _ _

theorem increaseAllowanceOf_sameBank (grantee granter : Address) (coin : Option Coin)
    (msgURL : String) :
    Within SameBank (increaseAllowanceOf env grantee granter coin msgURL : KeeperM Ω Unit) := by
  refine (existingStakeAuthz_sameBank grantee granter msgURL).bind fun a => ?_
  obtain ⟨stakeAuthz, expiration⟩ := a
  dsimp only
  cases stakeAuthz.maxTokens with
  | none => exact .pure _
  | some limit =>
    cases coin with
    | none => exact .throw _
    | some coin =>
      dsimp only
      split
      · exact .throw _
      · exact Authz.saveGrant_sameBank _ _ _ _

theorem updateStakingAuthorization_sameBank (grantee granter : Address)
    (stakeAuthz : StakeAuthorization) (expiration : Option ℤ) (msg : StakingMsg) :
    Within SameBank
      (updateStakingAuthorization env grantee granter stakeAuthz expiration msg :
        KeeperM Ω Unit) := by
  refine (check_within _).bind fun response => ?_
  cases response.delete with
  | true => exact Authz.deleteGrant_sameBank _ _ _
  | false =>
    cases response.updated with
    | none => exact .throw _
    | some updated => exact Authz.saveGrant_sameBank _ _ _ _

theorem executeMsg_conserves (h : cosmos.Conserving env) (msg : StakingMsg) (c : Frame) :
    Within (Conserves env) (executeMsg env cosmos msg c) := by
  refine (check_within _).bind fun delegator => ?_
  split
  · exact h.stakingMsg msg
  · refine (read_within _).bind fun a => ?_
    obtain ⟨stakeAuthz, expiration⟩ := a
    refine (h.stakingMsg msg).bind fun _ => ?_
    exact (updateStakingAuthorization_sameBank _ _ _ _ _).mono fun _ _ => SameBank.conserves

/-- **Staking conserves the EVM coin**, if the module does. -/
theorem handleMethod_conserves (h : cosmos.Conserving env) (abi : Abi Ω Call.name) (call : Call)
    (c : Frame) : Within (Conserves env) (handleMethod env cosmos abi call c) := by
  cases call with
  | approve grantee amount typeURLs =>
    refine (read_within _).bind fun bondDenom => ?_
    refine (check_within _).bind fun coin => ?_
    refine .bind (Within.forM fun typeURL _ => ?_) fun _ => .pure _
    cases convertMsgToAuthz typeURL with
    | none => exact .throw _
    | some authzType =>
      exact (grantOrDeleteStakingAuthz_sameBank _ _ _ _).mono fun _ _ => SameBank.conserves
  | revoke grantee typeURLs =>
    refine (check_within _).bind fun _ => ?_
    refine .bind (Within.forM fun typeURL _ => ?_) fun _ => .pure _
    cases convertMsgToAuthz typeURL with
    | none => exact .throw _
    | some authzType =>
      exact (Authz.deleteGrant_sameBank _ _ _).mono fun _ _ => SameBank.conserves
  | increaseAllowance grantee amount typeURLs =>
    refine (read_within _).bind fun bondDenom => ?_
    refine (check_within _).bind fun coin => ?_
    refine .bind (Within.forM fun typeURL _ => ?_) fun _ => .pure _
    have hincrease : Within (Conserves env)
        (increaseAllowanceOf env grantee c.origin coin typeURL : KeeperM Ω Unit) :=
      (increaseAllowanceOf_sameBank _ _ _ _).mono fun _ _ => SameBank.conserves
    split
    · exact hincrease
    · exact hincrease
    · exact hincrease
    · exact .throw _
  | decreaseAllowance grantee amount typeURLs =>
    refine (read_within _).bind fun bondDenom => ?_
    refine (check_within _).bind fun coin => ?_
    refine .bind (Within.forM fun typeURL _ => ?_) fun _ => .pure _
    cases convertMsgToAuthz typeURL with
    | none => exact .throw _
    | some authzType =>
      have hdecrease : Within SameBank
          ((existingStakeAuthz env grantee c.origin typeURL : KeeperM Ω _) >>= fun a =>
            decreaseAllowanceOf env grantee c.origin coin a.1 a.2) :=
        (existingStakeAuthz_sameBank _ _ _).bind fun _ => decreaseAllowanceOf_sameBank _ _ _ _ _
      exact hdecrease.mono fun _ _ => SameBank.conserves
  | createValidator description commission minSelfDelegation validator pubkey value =>
    refine (read_within _).bind fun bondDenom => ?_
    refine (check_within _).bind fun msg => ?_
    refine (ensure_within _).bind fun _ => ?_
    refine (ensure_within _).bind fun _ => ?_
    exact (h.createValidator msg).bind fun _ => .pure _
  | editValidator description validator commissionRate minSelfDelegation =>
    refine (check_within _).bind fun msg => ?_
    refine (ensure_within _).bind fun _ => ?_
    refine (ensure_within _).bind fun _ => ?_
    exact (h.editValidator msg).bind fun _ => .pure _
  | delegate delegator validator amount =>
    refine (read_within _).bind fun bondDenom => ?_
    refine (executeMsg_conserves h _ c).bind fun _ => ?_
    split
    · exact .pure _
    · exact .pure _
  | query name => exact (read_within _).bind fun _ => .pure _
  | _ =>
    refine (read_within _).bind fun bondDenom => ?_
    exact (executeMsg_conserves h _ c).bind fun _ => .pure _

end Staking

namespace Distribution

theorem withdrawnEntries_within {R : Store Ω → Store Ω → Prop} [IsPreorder (Store Ω) R]
    (addr : Address) (coins : Coins) (c : Frame) :
    Within R (withdrawnEntries env cosmos addr coins c) := by
  unfold withdrawnEntries
  split
  · exact .pure _
  · exact (read_within _).bind fun _ => .pure _

theorem withdrawAll_conserves (h : cosmos.Conserving env) (delegator : Address)
    (validators : List String) :
    Within (Conserves env) (withdrawAll cosmos delegator validators) := by
  induction validators with
  | nil => exact .pure _
  | cons validator validators ih =>
    refine (h.withdrawDelegationRewards delegator validator).bind fun coins => ?_
    exact ih.bind fun rest => .pure _

/-- **Distribution conserves the EVM coin**, if the module does. -/
theorem handleMethod_conserves (h : cosmos.Conserving env) (abi : Abi Ω Call.name) (call : Call)
    (c : Frame) : Within (Conserves env) (handleMethod env cosmos abi call c) := by
  cases call with
  | claimRewards delegator maxRetrieve =>
    refine (ensure_within _).bind fun _ => ?_
    refine (read_within _).bind fun maxVals => ?_
    refine (ensure_within _).bind fun _ => ?_
    refine (ensure_within _).bind fun _ => ?_
    refine (read_within _).bind fun validators => ?_
    refine (withdrawAll_conserves h delegator validators).bind fun coins => ?_
    exact withdrawnEntries_within _ _ _
  | setWithdrawAddress delegator withdrawer =>
    refine (ensure_within _).bind fun _ => ?_
    refine (ensure_within _).bind fun _ => ?_
    exact (h.setWithdrawAddress delegator withdrawer).bind fun _ => .pure _
  | withdrawDelegatorRewards delegator validator =>
    refine (ensure_within _).bind fun _ => ?_
    refine (ensure_within _).bind fun _ => ?_
    refine (h.withdrawDelegationRewards delegator validator).bind fun coins => ?_
    exact withdrawnEntries_within _ _ _
  | withdrawValidatorCommission validator =>
    refine (check_within _).bind fun account => ?_
    refine (ensure_within _).bind fun _ => ?_
    refine (h.withdrawValidatorCommission validator).bind fun coins => ?_
    exact withdrawnEntries_within _ _ _
  | fundCommunityPool depositor amount =>
    refine (check_within _).bind fun baseDenom => ?_
    refine (ensure_within _).bind fun _ => ?_
    refine (ensure_within _).bind fun _ => ?_
    refine (h.fundCommunityPool depositor _).bind fun _ => ?_
    split
    · exact .pure _
    · exact .pure _
  | query name => exact (read_within _).bind fun _ => .pure _

end Distribution

end TacEvm
