import TacEvm.Analysis.Bank
import TacEvm.Analysis.SpendLimits
import TacEvm.Model.Devnet

/-!
# The allowances of the ERC20 precompiles

Every method that changes an allowance sets one spend limit, to the value that an ERC20 token would
set it to, so a run of such calls is one of the token (`allowances_refine`). `approve` need not
succeed, though (`approve_total_iff`).
-/

namespace TacEvm.Erc20

open FallibleState SendAuthorization KeeperM KeyedList

variable {Ω : Type} {env : Env} {st st' : Store Ω} {owner spender : Address} {denom : Denom}
  {a : SendAuthorization} {x : ℤ}

variable (env) in
/-- `SaveGrant` refuses the expiration. -/
def SendAuthorization.CannotSave (a : SendAuthorization) : Prop :=
  a.expiration.any (· ≤ env.blockTime) = true

theorem saveSendAuthorization_ok :
    (saveSendAuthorization env spender owner a).run st = .ok () st' ↔
      a.spendLimit ≠ [] ∧ (∀ coin ∈ a.spendLimit, 0 < coin.amount) ∧ a.allowList.Nodup ∧
        ¬ a.CannotSave env ∧ st' = st.setGrant owner spender sendMsgURL (some a.grant) := by
  unfold saveSendAuthorization
  rw [ensure_bind_ok, ensure_bind_ok, ensure_bind_ok, Authz.saveGrant_ok, List.all_eq_true]
  simp only [decide_eq_true_eq]
  rfl

theorem setLimit_of_pos (hx : 0 < x) :
    a.setLimit denom x = some { a with
      spendLimit := put Coin.denom a.spendLimit { denom := denom, amount := x } } := by
  unfold setLimit
  rw [Coins.setAmount_of_ne hx.ne', if_neg put_ne_nil]

theorem updateAuthorization_ok (hvalid : a.spendLimit.Valid) (hx : 0 < x) :
    (updateAuthorization env denom spender owner x a).run st = .ok () st' ↔
      a.allowList.Nodup ∧ ¬ a.CannotSave env ∧
        st' = st.setGrant owner spender sendMsgURL ((a.setLimit denom x).map grant) := by
  unfold updateAuthorization
  rw [saveSendAuthorization_ok, setLimit_of_pos hx]
  rw [Coins.updateOrAddCoin_eq_put]
  constructor
  · rintro ⟨-, -, hnodup, hsave, rfl⟩
    exact ⟨hnodup, hsave, rfl⟩
  · rintro ⟨hnodup, hsave, rfl⟩
    have hput : Coins.Valid (put Coin.denom a.spendLimit ⟨denom, x⟩) := hvalid.put hx
    exact ⟨put_ne_nil, hput.positive, hnodup, hsave, rfl⟩

theorem createAuthorization_ok (hx : 0 < x) :
    (createAuthorization env denom spender owner x).run st = .ok () st' ↔
      x < 2 ^ 256 ∧ st' = st.setGrant owner spender sendMsgURL
        (((fresh env).setLimit denom x).map grant) := by
  have hyear : 0 < defaultExpirationDuration := by decide
  unfold createAuthorization
  rw [ensure_bind_ok, saveSendAuthorization_ok, setLimit_of_pos hx, abs_of_pos hx]
  constructor
  · rintro ⟨hlt, -, -, -, -, rfl⟩
    exact ⟨hlt, rfl⟩
  rintro ⟨hlt, rfl⟩
  refine ⟨hlt, List.cons_ne_nil _ _, List.forall_mem_singleton.mpr hx, List.nodup_nil, ?_, rfl⟩
  unfold SendAuthorization.CannotSave
  rw [Option.any_some, decide_eq_true_eq]
  omega

/-- `removeSpendLimitOrDeleteAuthorization` sets a limit to zero. -/
theorem removeSpendLimit_ok (hvalid : a.spendLimit.Valid)
    (hgrant : st.grants owner spender sendMsgURL ≠ none) :
    (removeSpendLimitOrDeleteAuthorization env denom spender owner a).run st = .ok () st' ↔
      0 < a.spendLimit.amountOf denom ∧ (a.setLimit denom 0 ≠ none → ¬ a.CannotSave env) ∧
        st' = st.setGrant owner spender sendMsgURL ((a.setLimit denom 0).map grant) := by
  have hfilter : a.spendLimit.filter (fun coin => coin.denom ≠ denom) =
      drop Coin.denom a.spendLimit denom := rfl
  unfold removeSpendLimitOrDeleteAuthorization
  rw [ensure_bind_ok, hvalid.any_denom_iff, hfilter]
  unfold setLimit
  rw [Coins.setAmount_zero]
  refine and_congr_right fun _ => ?_
  by_cases hnil : drop Coin.denom a.spendLimit denom = []
  · rw [if_pos ((hvalid.drop denom).all_zero_iff.mpr hnil), if_pos hnil, Authz.deleteGrant_ok]
    exact ⟨fun h => ⟨fun hne => absurd rfl hne, h.2⟩, fun h => ⟨hgrant, h.2⟩⟩
  · rw [if_neg fun hall => hnil ((hvalid.drop denom).all_zero_iff.mp hall), if_neg hnil,
      Authz.saveGrant_ok]
    exact ⟨fun h => ⟨fun _ => h.1, h.2⟩, fun h => ⟨h.1 (Option.some_ne_none _), h.2⟩⟩

theorem bind_return_ok {α : Type} {code : KeeperM Ω Unit} {result r : α} :
    (code >>= fun _ => pure result).run st = .ok r st' ↔ r = result ∧ code.run st = .ok () st' := by
  rw [bind_ok]
  constructor
  · rintro ⟨⟨⟩, st₁, hcode, hreturn⟩
    cases hreturn
    exact ⟨rfl, hcode⟩
  · rintro ⟨rfl, hcode⟩
    exact ⟨(), st', hcode, rfl⟩

section Approvals

variable {pair : TokenPair} {c : Frame} {r : BalanceChanges}

theorem approve_of_none (hspender : spender ≠ c.caller)
    (hnone : st.getAuthorization env spender c.caller sendMsgURL = none) (hx : 0 ≤ x) :
    (approve env pair spender x c).run st = .ok r st' ↔
      r = [] ∧ ((x = 0 ∧ st' = st) ∨ (0 < x ∧ x < 2 ^ 256 ∧
        st' = st.setGrant c.caller spender sendMsgURL
          (((fresh env).setLimit pair.denom x).map grant))) := by
  unfold approve
  rw [ensure_bind_ok, and_iff_right hspender, run_get_bind, hnone]
  dsimp only
  rw [if_neg (not_lt.mpr hx)]
  rcases hx.eq_or_lt with rfl | hpos
  · rw [if_neg (lt_irrefl _), run_pure, EStateM.Result.ok.injEq]
    constructor
    · rintro ⟨rfl, rfl⟩
      exact ⟨rfl, .inl ⟨rfl, rfl⟩⟩
    · rintro ⟨rfl, ⟨-, rfl⟩ | ⟨hpos, -⟩⟩
      · exact ⟨rfl, rfl⟩
      · exact absurd hpos (lt_irrefl _)
  · rw [if_pos hpos, bind_return_ok, createAuthorization_ok hpos]
    refine and_congr_right fun _ => ⟨fun h => .inr ⟨hpos, h⟩, ?_⟩
    rintro (⟨rfl, -⟩ | ⟨-, h⟩)
    · exact absurd hpos (lt_irrefl _)
    · exact h

variable (env) in
/-- A limit is set to zero only if there is one, and can be saved. -/
structure CanApprove (a : SendAuthorization) (denom : Denom) (x : ℤ) : Prop where
  found : x = 0 → 0 < a.spendLimit.amountOf denom
  nodup : x ≠ 0 → a.allowList.Nodup
  saved : a.setLimit denom x ≠ none → ¬ a.CannotSave env

/-- An approval that finds an authorization changes its limit. -/
theorem approve_of_live (hspender : spender ≠ c.caller)
    (hlive : liveAuthorization env c.caller spender st = some a) (hvalid : a.spendLimit.Valid)
    (hx : 0 ≤ x) :
    (approve env pair spender x c).run st = .ok r st' ↔
      r = [] ∧ CanApprove env a pair.denom x ∧
        st' = st.setGrant c.caller spender sendMsgURL ((a.setLimit pair.denom x).map grant) := by
  have hgrant : st.grants c.caller spender sendMsgURL ≠ none := by
    rw [(liveAuthorization_eq_some.mp hlive).1]
    exact Option.some_ne_none _
  unfold approve
  rw [ensure_bind_ok, and_iff_right hspender, run_get_bind, getAuthorization_send.mpr hlive]
  rw [check_bind_ok]
  simp only [asSendAuthorization, Except.ok.injEq, exists_eq_left']
  rcases hx.eq_or_lt with rfl | hpos
  · rw [if_pos le_rfl, bind_return_ok, removeSpendLimit_ok hvalid hgrant]
    refine and_congr_right fun _ => ⟨?_, ?_⟩
    · rintro ⟨hfound, hsaved, heq⟩
      exact ⟨⟨fun _ => hfound, fun hne => absurd rfl hne, hsaved⟩, heq⟩
    · rintro ⟨hcan, heq⟩
      exact ⟨hcan.found rfl, hcan.saved, heq⟩
  · rw [if_neg (not_le.mpr hpos), bind_return_ok, updateAuthorization_ok hvalid hpos]
    refine and_congr_right fun _ => ⟨?_, ?_⟩
    · rintro ⟨hnodup, hsaved, heq⟩
      exact ⟨⟨fun hzero => absurd hzero hpos.ne', fun _ => hnodup, fun _ => hsaved⟩, heq⟩
    rintro ⟨hcan, heq⟩
    have hleft : a.setLimit pair.denom x ≠ none := by
      rw [setLimit_of_pos hpos]
      exact Option.some_ne_none _
    exact ⟨hcan.nodup hpos.ne', hcan.saved hleft, heq⟩

/-! ## What the methods set -/

theorem setsLimit_of_live (hlive : liveAuthorization env owner spender st = some a)
    (h : st'.grants = (st.setGrant owner spender sendMsgURL ((a.setLimit denom x).map
      grant)).grants) : SetsLimit env owner spender denom x st st' := by
  have hbase : baseAuthorization env owner spender st = a := by
    unfold baseAuthorization
    rw [hlive]
    rfl
  refine .set (fun hnone => ?_) (by rw [hbase, h])
  rw [hnone] at hlive
  cases hlive

theorem setsLimit_of_fresh (hnone : liveAuthorization env owner spender st = none) (hx : x ≠ 0)
    (h : st'.grants = (st.setGrant owner spender sendMsgURL
      (((fresh env).setLimit denom x).map grant)).grants) :
    SetsLimit env owner spender denom x st st' := by
  have hbase : baseAuthorization env owner spender st = .fresh env := by
    unfold baseAuthorization
    rw [hnone]
    rfl
  exact .set (fun _ => hx) (by rw [hbase, h])

theorem sendLimit_of_none (hnone : liveAuthorization env owner spender st = none) :
    sendLimit env owner spender st denom = 0 := by
  unfold sendLimit
  rw [hnone]
  rfl

theorem sendLimit_of_live (hlive : liveAuthorization env owner spender st = some a) :
    sendLimit env owner spender st denom = a.spendLimit.amountOf denom := by
  unfold sendLimit
  rw [hlive]
  rfl

/-- **`approve` sets the limit to the amount.** -/
theorem approve_sets (hvalid : ValidLimits st) (hx : 0 ≤ x)
    (h : (approve env pair spender x c).run st = .ok r st') :
    SetsLimit env c.caller spender pair.denom x st st' := by
  have hspender : spender ≠ c.caller := by
    exact (ensure_bind_ok.mp h).1
  cases hget : st.getAuthorization env spender c.caller sendMsgURL with
  | none =>
    have hlive := liveAuthorization_of_none hget
    rcases ((approve_of_none hspender hget hx).mp h).2 with ⟨hzero, rfl⟩ | ⟨hpos, -, rfl⟩
    · exact .unchanged hlive hzero rfl
    · exact setsLimit_of_fresh hlive hpos.ne' rfl
  | some p =>
    have hrun := h
    unfold approve at hrun
    rw [ensure_bind_ok, run_get_bind, hget] at hrun
    obtain ⟨a, ha, -⟩ := check_bind_ok.mp hrun.2
    rw [asSendAuthorization_ok.mp ha] at hget
    have hlive := getAuthorization_send.mp hget
    obtain ⟨-, -, rfl⟩ := (approve_of_live hspender hlive (hvalid.live hlive) hx).mp h
    exact setsLimit_of_live hlive rfl

/-- **`increaseAllowance` adds to the limit**, and there is no overflow. -/
theorem increaseAllowance_sets (hvalid : ValidLimits st)
    (h : (increaseAllowance env pair spender x c).run st = .ok r st') :
    sendLimit env c.caller spender st pair.denom + x < 2 ^ 256 ∧
      SetsLimit env c.caller spender pair.denom
        (sendLimit env c.caller spender st pair.denom + x) st st' := by
  unfold increaseAllowance at h
  rw [ensure_bind_ok, ensure_bind_ok, run_get_bind] at h
  obtain ⟨-, hpos, h⟩ := h
  cases hget : st.getAuthorization env spender c.caller sendMsgURL with
  | none =>
    have hlive := liveAuthorization_of_none hget
    rw [hget] at h
    obtain ⟨-, hcreate⟩ := bind_return_ok.mp h
    obtain ⟨hlt, rfl⟩ := (createAuthorization_ok hpos).mp hcreate
    rw [sendLimit_of_none hlive, zero_add]
    exact ⟨hlt, setsLimit_of_fresh hlive hpos.ne' rfl⟩
  | some p =>
    rw [hget] at h
    obtain ⟨a, ha, hupdate⟩ := check_bind_ok.mp h
    rw [asSendAuthorization_ok.mp ha] at hget
    have hlive := getAuthorization_send.mp hget
    have hlimit := hvalid.live hlive
    obtain ⟨hlt, hsave⟩ := ensure_bind_ok.mp hupdate
    have hnonneg := hlimit.amountOf_nonneg pair.denom
    obtain ⟨-, hsaved⟩ := bind_return_ok.mp hsave
    obtain ⟨-, -, rfl⟩ := (updateAuthorization_ok hlimit (by omega)).mp hsaved
    rw [sendLimit_of_live hlive]
    exact ⟨hlt, setsLimit_of_live hlive rfl⟩

/-- **`decreaseAllowance` takes from the limit**, which is at least as large. -/
theorem decreaseAllowance_sets (hvalid : ValidLimits st)
    (h : (decreaseAllowance env pair spender x c).run st = .ok r st') :
    x ≤ sendLimit env c.caller spender st pair.denom ∧
      SetsLimit env c.caller spender pair.denom
        (sendLimit env c.caller spender st pair.denom - x) st st' := by
  unfold decreaseAllowance at h
  rw [ensure_bind_ok, ensure_bind_ok, bind_ok] at h
  obtain ⟨-, hpos, ⟨a, limit⟩, st₁, hread, h⟩ := h
  obtain ⟨hread, rfl⟩ := read_ok.mp (mapError_ok.mp hread)
  obtain ⟨hlive, rfl⟩ := getAuthzExpirationAndAllowance_ok.mp hread
  have hlimit := hvalid.live hlive
  rw [sendLimit_of_live hlive]
  dsimp only at h
  split at h
  · rename_i hless
    obtain ⟨-, hsaved⟩ := bind_return_ok.mp h
    obtain ⟨-, -, rfl⟩ := (updateAuthorization_ok hlimit (by omega)).mp hsaved
    exact ⟨hless.le, setsLimit_of_live hlive rfl⟩
  split at h
  · rename_i hequal
    obtain ⟨-, hremoved⟩ := bind_return_ok.mp h
    have hgrant : st₁.grants c.caller spender sendMsgURL ≠ none := by
      rw [(liveAuthorization_eq_some.mp hlive).1]
      exact Option.some_ne_none _
    obtain ⟨-, -, rfl⟩ := (removeSpendLimit_ok hlimit hgrant).mp hremoved
    rw [← hequal, sub_self]
    exact ⟨le_rfl, setsLimit_of_live hlive rfl⟩
  · split at h
    · cases h
    · cases h

end Approvals

/-! ## Transfers under an allowance -/

/-- `Accept` of the SDK takes the coin off the limit. -/
def SubtractsSpent (cosmos : Cosmos Ω) : Prop :=
  ∀ (limit : Coins) (allowList : List String) (dst : Address) (coin : Coin)
    (resp : AcceptResponse), limit.Valid → 0 < coin.amount →
    cosmos.acceptSend limit allowList dst coin = .ok resp →
    coin.amount ≤ limit.amountOf coin.denom ∧
      ∃ left : Coins, left.Valid ∧
        (∀ d, left.amountOf d = limit.amountOf d - if d = coin.denom then coin.amount else 0) ∧
        if left = [] then resp.delete = true
        else resp.delete = false ∧ resp.updated = some (.send left allowList)

section Transfers

variable {cosmos : Cosmos Ω} {pair : TokenPair} {c : Frame} {r : BalanceChanges}
  {src dst : Address}

theorem send_grants {coin : Coin} (h : (Bank.send env cosmos src dst coin).run st = .ok () st') :
    st'.grants = st.grants := by
  obtain ⟨_, st₁, hvalid, h₁⟩ := bind_ok.mp h
  obtain ⟨-, rfl⟩ := Bank.validateAmount_ok hvalid
  obtain ⟨_, -, h₂⟩ := read_bind_ok.mp h₁
  obtain ⟨-, h₃⟩ := ensure_bind_ok.mp h₂
  obtain ⟨-, -, rfl⟩ := Bank.sendCoins_ok h₃
  rfl

theorem left_eq_setAmount {limit left : Coins} {coin : Coin} (hlimit : limit.Valid)
    (hleft : left.Valid) (hle : coin.amount ≤ limit.amountOf coin.denom)
    (h : ∀ d, left.amountOf d = limit.amountOf d - if d = coin.denom then coin.amount else 0) :
    left = limit.setAmount coin.denom (limit.amountOf coin.denom - coin.amount) := by
  refine hleft.ext (hlimit.setAmount (by omega)) fun d => ?_
  rw [h, hlimit.amountOf_setAmount]
  by_cases hd : d = coin.denom
  · rw [if_pos hd, if_pos hd, hd]
  · rw [if_neg hd, if_neg hd, sub_zero]

/-- A transfer takes its amount off the limit. -/
theorem dispatchSend_sets (haccept : SubtractsSpent cosmos) (hvalid : ValidLimits st) {coin : Coin}
    (h : (Authz.dispatchSend env cosmos spender owner dst coin).run st = .ok () st')
    (hlive : liveAuthorization env owner spender st = some a) (hpos : 0 < coin.amount) :
    coin.amount ≤ a.spendLimit.amountOf coin.denom ∧
      SetsLimit env owner spender coin.denom (a.spendLimit.amountOf coin.denom - coin.amount)
        st st' := by
  have hgrant := (liveAuthorization_eq_some.mp hlive).1
  have hlimit := hvalid.live hlive
  obtain ⟨g, hg, h₁⟩ := read_bind_ok.mp h
  have hga : g = a.grant := by
    unfold Authz.sendGrant at hg
    rw [hgrant] at hg
    dsimp only at hg
    split at hg
    · cases hg
    · cases hg
      rfl
  subst hga
  obtain ⟨resp, hresp, h₂⟩ := check_bind_ok.mp h₁
  obtain ⟨hle, left, hleft, hamounts, houtcome⟩ := haccept _ _ _ _ _ hlimit hpos hresp
  have hset := left_eq_setAmount hlimit hleft hle hamounts
  obtain ⟨_, st₁, hupdate, h₃⟩ := bind_ok.mp h₂
  obtain ⟨-, hsend⟩ := ensure_bind_ok.mp h₃
  refine ⟨hle, setsLimit_of_live hlive ?_⟩
  rw [send_grants hsend]
  unfold Authz.updateSendGrant at hupdate
  unfold setLimit
  rw [← hset]
  by_cases hnil : left = []
  · rw [if_pos hnil] at houtcome ⊢
    rw [if_pos houtcome] at hupdate
    rw [(Authz.deleteGrant_ok.mp hupdate).2]
    rfl
  · rw [if_neg hnil] at houtcome ⊢
    rw [houtcome.1, houtcome.2, if_neg Bool.false_ne_true] at hupdate
    cases hupdate
    rfl

/-- **`transferFrom` takes from the limit of the caller**, which is at least as large. -/
theorem transferFrom_sets (haccept : SubtractsSpent cosmos) (hvalid : ValidLimits st)
    (hcaller : c.caller ≠ src)
    (h : (transferFrom env cosmos pair src dst x c).run st = .ok r st') :
    x ≤ sendLimit env src c.caller st pair.denom ∧
      SetsLimit env src c.caller pair.denom (sendLimit env src c.caller st pair.denom - x)
        st st' := by
  obtain ⟨_, st₁, hamount, h₁⟩ := bind_ok.mp h
  obtain ⟨hpos, rfl⟩ := Bank.validateAmount_ok hamount
  obtain ⟨_, st₂, hsend, h₂⟩ := bind_ok.mp h₁
  have hst : st' = st₂ := by
    split at h₂
    · cases h₂
      rfl
    · cases h₂
      rfl
  subst hst
  unfold sendCoin at hsend
  rw [if_neg hcaller] at hsend
  obtain ⟨_, st₃, hread, hdispatch⟩ := bind_ok.mp hsend
  obtain ⟨hread, rfl⟩ := read_ok.mp (mapError_ok.mp hread)
  obtain ⟨⟨a, limit⟩, hok, -⟩ := except_map_ok.mp hread
  obtain ⟨hlive, -⟩ := getAuthzExpirationAndAllowance_ok.mp hok
  rw [sendLimit_of_live hlive]
  exact dispatchSend_sets haccept hvalid (mapError_ok.mp hdispatch) hlive hpos

end Transfers

/-- A call of an ERC20 precompile: its pair, caller and block. -/
structure Invocation where
  env : Env
  pair : TokenPair
  frame : Frame
  call : Call

/-- Whose allowance a call is about, and its new value, if any. -/
structure AllowanceUse where
  owner : Address
  spender : Address
  value : ℤ → Option ℤ

namespace Invocation

/-- What an ERC20 token does with an allowance. -/
def allowanceUse (i : Invocation) : Option AllowanceUse :=
  match i.call with
  | .approve spender x => some ⟨i.frame.caller, spender, fun _ => some x⟩
  | .increaseAllowance spender x =>
    some ⟨i.frame.caller, spender, fun old => if old + x < 2 ^ 256 then some (old + x) else none⟩
  | .decreaseAllowance spender x =>
    some ⟨i.frame.caller, spender, fun old => if x ≤ old then some (old - x) else none⟩
  | .transferFrom src _ x =>
    some ⟨src, i.frame.caller, fun old => if x ≤ old then some (old - x) else none⟩
  | _ => none

/-- The amount of a call, which is an unsigned number. -/
def amount (i : Invocation) : ℤ :=
  match i.call with
  | .approve _ x => x
  | .increaseAllowance _ x => x
  | .decreaseAllowance _ x => x
  | .transferFrom _ _ x => x
  | .transfer _ x => x
  | .query _ => 0
  | .unknown _ => 0

/-- A call that uses an allowance of another account. -/
structure Uses (i : Invocation) (u : AllowanceUse) : Prop where
  use : i.allowanceUse = some u
  other : u.owner ≠ u.spender
  amount_nonneg : 0 ≤ i.amount
  amount_lt : i.amount < 2 ^ 256

variable (cosmos : Cosmos Ω) (abi : Abi Ω Call.name)

def exec (i : Invocation) : KeeperM Ω Unit :=
  discard (handleMethod i.env cosmos abi i.pair i.call i.frame)

variable {cosmos abi} {i : Invocation} {u : AllowanceUse}

/-- **Every call sets one limit**, to the value of an ERC20 token. -/
theorem Uses.sets (hu : i.Uses u) (haccept : SubtractsSpent cosmos) (hvalid : ValidLimits st)
    (h : (i.exec cosmos abi).run st = .ok () st') :
    ∃ x, u.value (sendLimit i.env u.owner u.spender st i.pair.denom) = some x ∧ 0 ≤ x ∧
      SetsLimit i.env u.owner u.spender i.pair.denom x st st' := by
  obtain ⟨r, hrun⟩ := discard_ok.mp h
  obtain ⟨env, pair, frame, call⟩ := i
  have huse := hu.use
  have hnonneg := hu.amount_nonneg
  cases call with
  | approve spender x =>
    cases huse
    exact ⟨x, rfl, hnonneg, approve_sets hvalid hnonneg hrun⟩
  | increaseAllowance spender x =>
    cases huse
    obtain ⟨hlt, hsets⟩ := increaseAllowance_sets hvalid hrun
    have hlimit := hvalid.sendLimit_nonneg env frame.caller spender pair.denom
    exact ⟨_, if_pos hlt, add_nonneg hlimit hnonneg, hsets⟩
  | decreaseAllowance spender x =>
    cases huse
    obtain ⟨hle, hsets⟩ := decreaseAllowance_sets hvalid hrun
    exact ⟨_, if_pos hle, sub_nonneg.mpr hle, hsets⟩
  | transferFrom src dst x =>
    cases huse
    obtain ⟨hle, hsets⟩ := transferFrom_sets haccept hvalid hu.other.symm hrun
    exact ⟨_, if_pos hle, sub_nonneg.mpr hle, hsets⟩
  | _ => cases huse

variable (i u) in
/-- A call does to the allowances what an ERC20 token does. -/
structure Refines (st st' : Store Ω) : Prop where
  value : u.value (allowance i.env i.pair u.owner u.spender st) =
    some (allowance i.env i.pair u.owner u.spender st')
  others : ∀ (pair : TokenPair) (o s : Address), ¬ (o = u.owner ∧ s = u.spender) →
    allowance i.env pair o s st' = allowance i.env pair o s st
  denoms : ∀ d, d ≠ i.pair.denom →
    sendLimit i.env u.owner u.spender st' d = sendLimit i.env u.owner u.spender st d
  allowList : ∀ a a', liveAuthorization i.env u.owner u.spender st = some a →
    liveAuthorization i.env u.owner u.spender st' = some a' → a'.allowList = a.allowList

/-- **One call.** -/
theorem Uses.refines (hu : i.Uses u) (haccept : SubtractsSpent cosmos) (hvalid : ValidLimits st)
    (h : (i.exec cosmos abi).run st = .ok () st') : i.Refines u st st' ∧ ValidLimits st' := by
  obtain ⟨x, hx, hnonneg, hsets⟩ := hu.sets haccept hvalid h
  refine ⟨⟨?_, ?_, ?_, ?_⟩, hsets.valid hvalid hnonneg⟩
  · rw [allowance_eq i.pair hu.other, allowance_eq i.pair hu.other, hx,
      hsets.sendLimit_eq hvalid.base, if_pos rfl]
  · intro pair o s hother
    by_cases hos : o = s
    · unfold allowance
      rw [if_pos hos, if_pos hos]
    · rw [allowance_eq pair hos, allowance_eq pair hos, hsets.sendLimit_other hother]
  · intro d hd
    rw [hsets.sendLimit_eq hvalid.base, if_neg hd]
  · intro a a' hlive hlive'
    exact (hsets.kept hlive hlive').1

end Invocation

/-- **The allowances are those of an ERC20 token.** Every call sets the allowance it is about to the
value of the token, and nothing else. -/
theorem allowances_refine {cosmos : Cosmos Ω} (abi : Abi Ω Call.name)
    (haccept : SubtractsSpent cosmos) (hvalid : ValidLimits st) {calls : List Invocation}
    (hcalls : ∀ i ∈ calls, ∃ u, i.Uses u)
    (hrun : (calls.forM fun i => i.exec cosmos abi).run st = .ok () st') :
    ∀ before i after, calls = before ++ i :: after → ∃ u st₁ st₂,
      (before.forM fun i => i.exec cosmos abi).run st = .ok () st₁ ∧
      (i.exec cosmos abi).run st₁ = .ok () st₂ ∧
      (after.forM fun i => i.exec cosmos abi).run st₂ = .ok () st' ∧
      i.Uses u ∧ i.Refines u st₁ st₂ := by
  intro before i after hsplit
  subst hsplit
  obtain ⟨st₁, hbefore, hrest⟩ := forM_append_ok.mp hrun
  obtain ⟨_, st₂, hcall, hafter⟩ := bind_ok.mp hrest
  obtain ⟨u, hu⟩ := hcalls i (List.mem_append_right _ List.mem_cons_self)
  have hvalid₁ : ValidLimits st₁ := by
    refine forM_ok (fun _ st => ValidLimits st) hbefore hvalid ?_
    intro done j rest s s' hlist hs hj
    have hmem : j ∈ before ++ i :: after := by
      rw [hlist]
      simp
    obtain ⟨v, hv⟩ := hcalls j hmem
    exact (hv.refines haccept hs hj).2
  exact ⟨u, st₁, st₂, hbefore, hcall, hafter, hu, (hu.refines haccept hvalid₁ hcall).1⟩

namespace Devnet

/-- An `Accept` that takes the coin off the limit. -/
def acceptSend (limit : Coins) (allowList : List String) (_ : Address) (coin : Coin) :
    Except Err AcceptResponse :=
  let left := limit.setAmount coin.denom (limit.amountOf coin.denom - coin.amount)
  if limit.amountOf coin.denom < coin.amount then
    .error (.new "requested amount is more than spend limit")
  else if left = [] then .ok { accept := true, delete := true, updated := none }
  else .ok { accept := true, delete := false, updated := some (.send left allowList) }

def cosmos : Cosmos Devnet.Delegations :=
  { TacEvm.Devnet.cosmos TacEvm.Devnet.env18 with acceptSend := acceptSend }

theorem subtractsSpent : SubtractsSpent cosmos := by
  intro limit allowList dst coin resp hlimit hpos h
  have hok : acceptSend limit allowList dst coin = .ok resp := h
  unfold acceptSend at hok
  dsimp only at hok
  split at hok
  · cases hok
  rename_i hle
  refine ⟨not_lt.mp hle, limit.setAmount coin.denom (limit.amountOf coin.denom - coin.amount),
    hlimit.setAmount (sub_nonneg.mpr (not_lt.mp hle)), fun d => ?_, ?_⟩
  · rw [hlimit.amountOf_setAmount]
    by_cases hd : d = coin.denom
    · rw [if_pos hd, if_pos hd, hd]
    · rw [if_neg hd, if_neg hd, sub_zero]
  · split at hok
    · rename_i hnil
      cases hok
      rw [if_pos hnil]
    · rename_i hleft
      cases hok
      rw [if_neg hleft]
      exact ⟨rfl, rfl⟩

def pair : TokenPair where
  erc20Address := 0xCE
  denom := "utac"
  enabled := true
  contractOwner := .module

def invocation (caller : Address) (call : Call) : Invocation where
  env := Devnet.env18
  pair := pair
  frame := Devnet.frame caller []
  call := call

/-- `0xB2` may spend ten, fifteen, twelve coins of `0xA1`, and sends four. -/
def invocations : List Invocation :=
  [invocation 0xA1 (.approve 0xB2 10), invocation 0xA1 (.increaseAllowance 0xB2 5),
    invocation 0xA1 (.decreaseAllowance 0xB2 3), invocation 0xB2 (.transferFrom 0xA1 0xD3 4)]

theorem invocations_use : ∀ i ∈ invocations, ∃ u, i.Uses u := by
  intro i hi
  simp only [invocations, List.mem_cons, List.not_mem_nil, or_false] at hi
  rcases hi with rfl | rfl | rfl | rfl
  all_goals exact ⟨_, rfl, by decide, by decide, by decide⟩

end Devnet

open Erc20.Devnet

/-- On the small chain eight coins of the allowance are left. -/
theorem allowances_refine_devnet : ∃ (st₁ st₂ : Store Devnet.Delegations) (u : AllowanceUse),
    (invocation 0xB2 (.transferFrom 0xA1 0xD3 4)).Refines u st₁ st₂ ∧
      allowance Devnet.env18 Devnet.pair 0xA1 0xB2 st₂ = 8 := by
  have hlimits : ValidLimits Devnet.stakingStore := by
    intro owner spender a hgrant
    cases hgrant
  obtain ⟨st', hrun, hleft⟩ := Devnet.exists_of_okAnd
    (r := (invocations.forM fun i => i.exec Devnet.cosmos
      (Devnet.abi Call.name [])).run Devnet.stakingStore)
    (p := fun st => allowance Devnet.env18 Devnet.pair 0xA1 0xB2 st = 8)
    (by decide +kernel)
  obtain ⟨u, st₁, st₂, -, -, hafter, -, hrefines⟩ :=
    allowances_refine _ subtractsSpent hlimits invocations_use hrun
      (invocations.take 3) (invocation 0xB2 (.transferFrom 0xA1 0xD3 4)) [] rfl
  cases hafter
  exact ⟨st₁, st', u, hrefines, hleft⟩

/-! ## When an approval succeeds -/

/-- **`approve` sets the allowance** if and only if a live authorization has a limit of the denom or
the amount is not zero, and what is saved does not expire in this block. -/
theorem approve_total_iff (env : Env) (pair : TokenPair) (spender : Address) (x : ℤ) (c : Frame)
    (st : Store Ω) (hspender : spender ≠ c.caller) (hx : 0 ≤ x) (hmax : x < 2 ^ 256)
    (hstored : ∀ g, st.grants c.caller spender sendMsgURL = some g →
      ∃ a : SendAuthorization, g = a.grant ∧ a.spendLimit.Valid) :
    (∃ st', (approve env pair spender x c).run st = .ok [] st' ∧
        allowance env pair c.caller spender st' = x) ↔
      ∀ a, liveAuthorization env c.caller spender st = some a → CanApprove env a pair.denom x := by
  have hlimit : ∀ a, liveAuthorization env c.caller spender st = some a → a.spendLimit.Valid := by
    intro a hlive
    obtain ⟨b, hb, hvalid⟩ := hstored _ (liveAuthorization_eq_some.mp hlive).1
    rwa [SendAuthorization.grant_injective hb]
  have hbase : (baseAuthorization env c.caller spender st).spendLimit.Valid := by
    unfold baseAuthorization
    cases hlive : liveAuthorization env c.caller spender st with
    | none => exact .nil
    | some a => exact hlimit a hlive
  have hallowance : ∀ st', SetsLimit env c.caller spender pair.denom x st st' →
      allowance env pair c.caller spender st' = x := by
    intro st' hsets
    rw [allowance_eq pair hspender.symm, hsets.sendLimit_eq hbase, if_pos rfl]
  cases hlive : liveAuthorization env c.caller spender st with
  | some a =>
    constructor
    · rintro ⟨st', hrun, -⟩ b hb
      cases hb
      exact ((approve_of_live hspender hlive (hlimit a hlive) hx).mp hrun).2.1
    · intro hcan
      exact ⟨_, (approve_of_live hspender hlive (hlimit a hlive) hx).mpr ⟨rfl, hcan a rfl, rfl⟩,
        hallowance _ (setsLimit_of_live hlive rfl)⟩
  | none =>
    refine ⟨fun _ a ha => (Option.some_ne_none a ha.symm).elim, fun _ => ?_⟩
    have hget : st.getAuthorization env spender c.caller sendMsgURL = none := by
      refine Store.getAuthorization_eq_none.mpr fun g hg => ?_
      obtain ⟨a, rfl, -⟩ := hstored g hg
      by_contra hexpired
      rw [liveAuthorization_eq_some.mpr ⟨hg, hexpired⟩] at hlive
      cases hlive
    rcases hx.eq_or_lt with hzero | hpos
    · exact ⟨st, (approve_of_none hspender hget hx).mpr ⟨rfl, .inl ⟨hzero.symm, rfl⟩⟩,
        hallowance _ (.unchanged hlive hzero.symm rfl)⟩
    · exact ⟨_, (approve_of_none hspender hget hx).mpr ⟨rfl, .inr ⟨hpos, hmax, rfl⟩⟩,
        hallowance _ (setsLimit_of_fresh hlive hpos.ne' rfl)⟩

/-- A first approval. -/
theorem approve_total_devnet : ∃ st',
    (approve Devnet.env18 Devnet.pair 0xB2 7
      (Devnet.frame 0xA1 [])).run Devnet.stakingStore = .ok [] st' ∧
      allowance Devnet.env18 Devnet.pair 0xA1 0xB2 st' = 7 := by
  refine (approve_total_iff Devnet.env18 Devnet.pair 0xB2 7
    (Devnet.frame 0xA1 []) Devnet.stakingStore (by decide) (by decide) (by decide)
    ?_).mpr ?_
  · intro g hg
    cases hg
  · intro a ha
    cases ha

namespace Devnet

/-- The account `0xA1` lets `0xB2` send seven of another coin. -/
def otherLimit (expiration : Option ℤ) : SendAuthorization where
  spendLimit := [{ denom := "uatom", amount := 7 }]
  allowList := []
  expiration := expiration

def otherStore (expiration : Option ℤ) : Store Devnet.Delegations :=
  Devnet.stakingStore.setGrant 0xA1 0xB2 sendMsgURL (some (otherLimit expiration).grant)

end Devnet

/-- **The allowance cannot be reset** with another denom only, nor approved where it expires. -/
theorem approve_refused :
    (otherLimit none).spendLimit.Valid ∧
    (approve Devnet.env18 Devnet.pair 0xB2 0
      (Devnet.frame 0xA1 [])).run (otherStore none) =
        .error (errNoAllowanceForToken "utac") (otherStore none) ∧
    (approve Devnet.env18 Devnet.pair 0xB2 5
      (Devnet.frame 0xA1 [])).run (otherStore (some 0)) =
        .error (.errorf "expiration must be after the current block time (%v), got %v"
          [.num 0, .num 0]) (otherStore (some 0)) := by
  refine ⟨⟨List.pairwise_singleton _ _, List.forall_mem_singleton.mpr (by decide)⟩, rfl, rfl⟩

end TacEvm.Erc20
