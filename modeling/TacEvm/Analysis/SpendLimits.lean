import TacEvm.Analysis.Grants
import TacEvm.Library.KeyedList
import TacEvm.Model.Erc20
import Mathlib.Data.String.Basic

/-!
# Spend limits

Every method that changes an allowance sets one limit of a send authorization. `SetsLimit` says so
once for all methods, and what follows for the other limits and authorizations is derived from it.
-/

namespace TacEvm

open FallibleState

/-- Coins in the order of their denoms, with positive amounts. -/
structure Coins.Valid (coins : Coins) : Prop where
  increasing : KeyedList.Increasing Coin.denom coins
  positive : ∀ coin ∈ coins, 0 < coin.amount

namespace Coins

variable {coins : Coins} {coin : Coin} {denom d : Denom}

theorem updateOrAddCoin_eq_put :
    Erc20.updateOrAddCoin coins coin = KeyedList.put Coin.denom coins coin := rfl

theorem Valid.nil : Coins.Valid [] := ⟨List.Pairwise.nil, List.forall_mem_nil _⟩

theorem Valid.put (h : coins.Valid) (hpos : 0 < coin.amount) :
    Coins.Valid (KeyedList.put Coin.denom coins coin) where
  increasing := h.increasing.put coin
  positive := by
    intro c hc
    rcases KeyedList.mem_put hc with rfl | hmem
    · exact hpos
    · exact h.positive c hmem

theorem Valid.drop (h : coins.Valid) (denom : Denom) :
    Coins.Valid (KeyedList.drop Coin.denom coins denom) where
  increasing := h.increasing.drop denom
  positive := fun c hc => h.positive c (List.mem_of_mem_filter hc)

theorem Valid.amountOf_of_mem (h : coins.Valid) (hmem : coin ∈ coins) :
    coins.amountOf coin.denom = coin.amount := h.increasing.total_of_mem hmem

theorem Valid.any_denom_iff (h : coins.Valid) :
    (coins.any fun c => c.denom = d) = true ↔ 0 < coins.amountOf d := by
  rw [List.any_eq_true]
  constructor
  · rintro ⟨c, hc, hd⟩
    rw [← of_decide_eq_true hd, h.amountOf_of_mem hc]
    exact h.positive c hc
  intro hpos
  by_contra hnone
  have hzero : coins.amountOf d = 0 :=
    KeyedList.total_eq_zero fun c hc hd => hnone ⟨c, hc, decide_eq_true hd⟩
  omega

theorem Valid.amountOf_nonneg (h : coins.Valid) (d : Denom) : 0 ≤ coins.amountOf d := by
  by_cases hany : (coins.any fun c => c.denom = d) = true
  · exact (h.any_denom_iff.mp hany).le
  · have hzero : coins.amountOf d = 0 := KeyedList.total_eq_zero fun c hc hd =>
      hany (List.any_eq_true.mpr ⟨c, hc, decide_eq_true hd⟩)
    exact hzero.ge

theorem Valid.all_zero_iff (h : coins.Valid) :
    (coins.all fun c => c.amount = 0) = true ↔ coins = [] := by
  rw [List.all_eq_true]
  constructor
  · intro hzero
    refine List.eq_nil_iff_forall_not_mem.mpr fun c hc => ?_
    exact (h.positive c hc).ne' (of_decide_eq_true (hzero c hc))
  · rintro rfl c hc
    cases hc

theorem Valid.ext {coins' : Coins} (h : coins.Valid) (h' : coins'.Valid)
    (heq : ∀ d, coins.amountOf d = coins'.amountOf d) : coins = coins' := by
  refine h.increasing.ext_total ?_ h'.increasing (fun c hc => (h.positive c hc).ne')
    (fun c hc => (h'.positive c hc).ne') heq
  rintro ⟨denom, amount⟩ ⟨denom', amount'⟩ rfl rfl
  rfl

/-- The set with an amount of a denom, or without it. -/
def setAmount (coins : Coins) (denom : Denom) (x : ℤ) : Coins :=
  if x = 0 then KeyedList.drop Coin.denom coins denom
  else KeyedList.put Coin.denom coins { denom := denom, amount := x }

theorem setAmount_zero : coins.setAmount denom 0 = KeyedList.drop Coin.denom coins denom :=
  if_pos rfl

variable {x : ℤ}

theorem setAmount_of_ne (hx : x ≠ 0) :
    coins.setAmount denom x = KeyedList.put Coin.denom coins { denom := denom, amount := x } :=
  if_neg hx

theorem Valid.setAmount (h : coins.Valid) (hx : 0 ≤ x) : (coins.setAmount denom x).Valid := by
  rcases hx.eq_or_lt with rfl | hpos
  · rw [setAmount_zero]
    exact h.drop denom
  · rw [setAmount_of_ne hpos.ne']
    exact h.put hpos

theorem Valid.amountOf_setAmount (h : coins.Valid) :
    (coins.setAmount denom x).amountOf d = if d = denom then x else coins.amountOf d := by
  by_cases hx : x = 0
  · subst hx
    rw [setAmount_zero]
    exact KeyedList.total_drop denom
  · rw [setAmount_of_ne hx]
    exact h.increasing.total_put

end Coins

namespace Erc20

variable {Ω : Type} {env : Env} {st st' : Store Ω} {owner spender : Address} {denom d : Denom}

/-- The grant with a send authorization. -/
def SendAuthorization.grant (a : SendAuthorization) : Grant :=
  ⟨.send a.spendLimit a.allowList, a.expiration⟩

theorem SendAuthorization.grant_injective : Function.Injective SendAuthorization.grant := by
  rintro ⟨limit, allowList, expiration⟩ ⟨limit', allowList', expiration'⟩ h
  cases h
  rfl

variable (env) in
def SendAuthorization.Expired (a : SendAuthorization) : Prop :=
  a.expiration.any (· < env.blockTime) = true

variable (env owner spender) in
/-- The send authorization that the spender can use. -/
def liveAuthorization (st : Store Ω) : Option SendAuthorization :=
  match st.getAuthorization env spender owner sendMsgURL with
  | some (.send spendLimit allowList, expiration) => some ⟨spendLimit, allowList, expiration⟩
  | _ => none

variable (env owner spender) in
/-- What the spender may spend of a denom. -/
def sendLimit (st : Store Ω) (d : Denom) : ℤ :=
  (liveAuthorization env owner spender st).elim 0 fun a => a.spendLimit.amountOf d

/-- The spend limits in a store are valid sets of coins. -/
def ValidLimits (st : Store Ω) : Prop :=
  ∀ owner spender (a : SendAuthorization),
    st.grants owner spender sendMsgURL = some a.grant → a.spendLimit.Valid

variable {a : SendAuthorization}

theorem getAuthorization_send :
    st.getAuthorization env spender owner sendMsgURL =
        some (.send a.spendLimit a.allowList, a.expiration) ↔
      liveAuthorization env owner spender st = some a := by
  unfold liveAuthorization
  constructor
  · intro h
    rw [h]
  intro h
  split at h
  · rename_i hget
    cases h
    exact hget
  · cases h

theorem liveAuthorization_eq_some :
    liveAuthorization env owner spender st = some a ↔
      st.grants owner spender sendMsgURL = some a.grant ∧ ¬ a.Expired env := by
  rw [← getAuthorization_send, Store.getAuthorization_eq_some]
  rfl

theorem liveAuthorization_of_none
    (h : st.getAuthorization env spender owner sendMsgURL = none) :
    liveAuthorization env owner spender st = none := by
  unfold liveAuthorization
  rw [h]

theorem asSendAuthorization_ok {err : Err} {p : Authorization × Option ℤ} :
    asSendAuthorization err p = .ok a ↔ p = (.send a.spendLimit a.allowList, a.expiration) := by
  obtain ⟨b, expiration⟩ := p
  unfold asSendAuthorization
  split
  · rename_i spendLimit allowList expiration' heq
    cases heq
    constructor
    · intro h
      cases h
      rfl
    · intro h
      cases h
      rfl
  · rename_i hother
    constructor
    · intro h
      cases h
    · intro h
      exact absurd h (hother _ _ _)

theorem getAuthzExpirationAndAllowance_ok {x : ℤ} :
    getAuthzExpirationAndAllowance env spender owner denom st = .ok (a, x) ↔
      liveAuthorization env owner spender st = some a ∧ x = a.spendLimit.amountOf denom := by
  unfold getAuthzExpirationAndAllowance Authorization.checkAuthzExists
  rw [← getAuthorization_send]
  cases hget : st.getAuthorization env spender owner sendMsgURL with
  | none =>
    constructor
    · intro h
      cases h
    · rintro ⟨h, -⟩
      cases h
  | some p =>
    constructor
    · intro h
      obtain ⟨b, hb, hreturn⟩ := except_bind_ok.mp h
      cases hb
      obtain ⟨c, hc, hlimit⟩ := except_bind_ok.mp hreturn
      cases hlimit
      exact ⟨congrArg some (asSendAuthorization_ok.mp hc), rfl⟩
    · rintro ⟨h, rfl⟩
      cases h
      rfl

theorem allowance_eq (pair : TokenPair) (h : owner ≠ spender) :
    allowance env pair owner spender st = sendLimit env owner spender st pair.denom := by
  unfold allowance sendLimit
  rw [if_neg h]
  cases hlive : liveAuthorization env owner spender st with
  | none =>
    split
    · rename_i a x hok
      rw [(getAuthzExpirationAndAllowance_ok.mp hok).1] at hlive
      cases hlive
    · rfl
  | some a =>
    rw [getAuthzExpirationAndAllowance_ok.mpr ⟨hlive, rfl⟩]
    rfl

theorem ValidLimits.live (h : ValidLimits st)
    (hlive : liveAuthorization env owner spender st = some a) : a.spendLimit.Valid :=
  h owner spender a (liveAuthorization_eq_some.mp hlive).1

/-- The authorization with another limit, if there is one left. -/
def SendAuthorization.setLimit (a : SendAuthorization) (denom : Denom) (x : ℤ) :
    Option SendAuthorization :=
  if a.spendLimit.setAmount denom x = [] then none
  else some { a with spendLimit := a.spendLimit.setAmount denom x }

variable (env) in
/-- What a new authorization starts from. -/
def SendAuthorization.fresh : SendAuthorization where
  spendLimit := []
  allowList := []
  expiration := some (env.blockTime + defaultExpirationDuration)

variable (env owner spender) in
/-- The authorization whose limit is set. -/
def baseAuthorization (st : Store Ω) : SendAuthorization :=
  (liveAuthorization env owner spender st).getD (.fresh env)

variable (env owner spender denom) in
/-- **What the methods do to the grants**: one limit is set. -/
inductive SetsLimit (x : ℤ) (st st' : Store Ω) : Prop
  | unchanged (hlive : liveAuthorization env owner spender st = none) (hzero : x = 0)
      (hgrants : st'.grants = st.grants)
  | set (hmade : liveAuthorization env owner spender st = none → x ≠ 0)
      (hgrants : st'.grants = (st.setGrant owner spender sendMsgURL
        (((baseAuthorization env owner spender st).setLimit denom x).map
          SendAuthorization.grant)).grants)

theorem not_expired_fresh : ¬ (SendAuthorization.fresh env).Expired env := by
  have hyear : 0 < defaultExpirationDuration := by decide
  unfold SendAuthorization.Expired SendAuthorization.fresh
  rw [Option.any_some, decide_eq_true_eq]
  omega

variable (env owner spender st) in
theorem not_expired_base : ¬ (baseAuthorization env owner spender st).Expired env := by
  unfold baseAuthorization
  cases hlive : liveAuthorization env owner spender st with
  | none => exact not_expired_fresh
  | some a => exact (liveAuthorization_eq_some.mp hlive).2

theorem ValidLimits.base (h : ValidLimits st) :
    (baseAuthorization env owner spender st).spendLimit.Valid := by
  unfold baseAuthorization
  cases hlive : liveAuthorization env owner spender st with
  | none => exact .nil
  | some a => exact h.live hlive

variable (env owner spender st d) in
theorem amountOf_base :
    (baseAuthorization env owner spender st).spendLimit.amountOf d =
      sendLimit env owner spender st d := by
  unfold baseAuthorization sendLimit
  cases liveAuthorization env owner spender st with
  | none => rfl
  | some a => rfl

variable (env owner spender d) in
theorem ValidLimits.sendLimit_nonneg (h : ValidLimits st) :
    0 ≤ sendLimit env owner spender st d := by
  rw [← amountOf_base]
  exact h.base.amountOf_nonneg d

namespace SendAuthorization

variable {a b : SendAuthorization} {x : ℤ}

theorem setLimit_eq_some (h : a.setLimit denom x = some b) :
    b = { a with spendLimit := a.spendLimit.setAmount denom x } := by
  unfold setLimit at h
  split at h
  · cases h
  · exact (Option.some.inj h).symm

theorem amountOf_setLimit (hvalid : a.spendLimit.Valid) :
    ((a.setLimit denom x).elim 0 fun b => b.spendLimit.amountOf d) =
      if d = denom then x else a.spendLimit.amountOf d := by
  rw [← hvalid.amountOf_setAmount]
  unfold setLimit
  split
  · rename_i hnil
    rw [hnil]
    rfl
  · rfl

end SendAuthorization

namespace SetsLimit

variable {x : ℤ}

theorem live_eq (h : st'.grants = (st.setGrant owner spender sendMsgURL
      (((baseAuthorization env owner spender st).setLimit denom x).map
        SendAuthorization.grant)).grants) :
    liveAuthorization env owner spender st' =
      (baseAuthorization env owner spender st).setLimit denom x := by
  have hgrant : st'.grants owner spender sendMsgURL =
      ((baseAuthorization env owner spender st).setLimit denom x).map SendAuthorization.grant := by
    rw [h, Store.setGrant_self]
  cases hset : (baseAuthorization env owner spender st).setLimit denom x with
  | none =>
    rw [hset] at hgrant
    refine liveAuthorization_of_none ?_
    unfold Store.getAuthorization
    rw [hgrant]
    rfl
  | some b =>
    rw [hset] at hgrant
    refine liveAuthorization_eq_some.mpr ⟨hgrant, ?_⟩
    have hexpired := not_expired_base env st owner spender
    rw [SendAuthorization.setLimit_eq_some hset]
    exact hexpired

variable (h : SetsLimit env owner spender denom x st st')
include h

/-- **One limit was set.** -/
theorem sendLimit_eq
    (hbase : (baseAuthorization env owner spender st).spendLimit.Valid) (d : Denom) :
    sendLimit env owner spender st' d =
      if d = denom then x else sendLimit env owner spender st d := by
  cases h with
  | unchanged hlive hzero hgrants =>
    have hlive' : liveAuthorization env owner spender st' =
        liveAuthorization env owner spender st := by
      unfold liveAuthorization Store.getAuthorization
      rw [hgrants]
    unfold sendLimit
    rw [hlive', hlive, hzero]
    exact (ite_self _).symm
  | set _ hgrants =>
    rw [← amountOf_base env st owner spender d,
      ← SendAuthorization.amountOf_setLimit hbase, ← live_eq hgrants]
    rfl

theorem grants_other {o s : Address} {u : String}
    (hother : ¬ (o = owner ∧ s = spender ∧ u = sendMsgURL)) :
    st'.grants o s u = st.grants o s u := by
  cases h with
  | unchanged _ _ hgrants => rw [hgrants]
  | set _ hgrants => rw [hgrants, Store.setGrant_other hother]

theorem sendLimit_other {o s : Address} (hother : ¬ (o = owner ∧ s = spender)) (d : Denom) :
    sendLimit env o s st' d = sendLimit env o s st d := by
  unfold sendLimit liveAuthorization Store.getAuthorization
  rw [h.grants_other fun heq => hother ⟨heq.1, heq.2.1⟩]

theorem kept {a a' : SendAuthorization} (hlive : liveAuthorization env owner spender st = some a)
    (hlive' : liveAuthorization env owner spender st' = some a') :
    a'.allowList = a.allowList ∧ a'.expiration = a.expiration := by
  cases h with
  | unchanged hnone _ _ =>
    rw [hnone] at hlive
    cases hlive
  | set _ hgrants =>
    rw [live_eq hgrants] at hlive'
    have hbase : baseAuthorization env owner spender st = a := by
      unfold baseAuthorization
      rw [hlive]
      rfl
    rw [SendAuthorization.setLimit_eq_some hlive', hbase]
    exact ⟨rfl, rfl⟩

theorem valid (hvalid : ValidLimits st) (hx : 0 ≤ x) : ValidLimits st' := by
  intro o s a ha
  by_cases hsame : o = owner ∧ s = spender
  · obtain ⟨rfl, rfl⟩ := hsame
    cases h with
    | unchanged _ _ hgrants =>
      rw [hgrants] at ha
      exact hvalid _ _ a ha
    | set _ hgrants =>
      rw [hgrants, Store.setGrant_self] at ha
      obtain ⟨b, hb, heq⟩ := Option.map_eq_some_iff.mp ha
      obtain rfl : b = a := SendAuthorization.grant_injective heq
      rw [SendAuthorization.setLimit_eq_some hb]
      exact hvalid.base.setAmount hx
  · rw [h.grants_other fun heq => hsame ⟨heq.1, heq.2.1⟩] at ha
    exact hvalid o s a ha

end SetsLimit

end Erc20

end TacEvm
