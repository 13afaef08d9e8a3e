import TacEvm.Analysis.CallSpec
import TacEvm.Analysis.MethodEffects
import TacEvm.Model.Erc20
import TacEvm.Model.Ics20

/-!
# The units of balance changes

The balance changes that a method registers are to be the conversion factor times what it moved in
the bank. `UnitsAgree` says for every method when that is so; `BankEffects` is what the modules
behind the precompiles do to the bank.
-/

namespace TacEvm

open FallibleState KeeperM StateDB Bank

variable {Ω : Type} {env : Env}

variable (env) in
/-- The changes are what was moved in the bank, in 18 decimals. -/
structure UnitsConsistent (entries : BalanceChanges) (st st' : Store Ω) : Prop where
  amounts : ∀ e ∈ entries, netChange id entries e.account =
    (st'.ledger e.account env.evmDenom - st.ledger e.account env.evmDenom) * env.conversionFactor
  otherDenom : (∀ a, st'.ledger a env.evmDenom = st.ledger a env.evmDenom) →
    (∃ a d, d ≠ env.evmDenom ∧ st'.ledger a d ≠ st.ledger a d) → entries = []

theorem unitsConsistent_nil (st st' : Store Ω) : UnitsConsistent env [] st st' := by
  constructor
  · intro e he
    cases he
  · intro _ _
    rfl

theorem unitsConsistent_of_yields {x : KeeperM Ω BalanceChanges}
    {entries : BalanceChanges} {st st' : Store Ω} (h : x.run st = .ok entries st')
    (hyields : Yields (· = []) x) : UnitsConsistent env entries st st' := by
  rw [hyields st entries st' h]
  exact unitsConsistent_nil _ _

section Payments

variable {entries : BalanceChanges} {src dst : Address} {n amount : ℤ}
  {st st' : Store Ω}

theorem payment_other {coin : Coin}
    (h : Ledger.Settles [coin.payment src dst] st.ledger st'.ledger) (a : Address) {d : Denom}
    (hd : d ≠ coin.denom) : st'.ledger a d = st.ledger a d := by
  rw [h a d]
  simp [Coin.payment, Ledger.Payment.net, hd]

theorem payment_moved {coin : Coin}
    (h : Ledger.Settles [coin.payment src dst] st.ledger st'.ledger) (a : Address) :
    st'.ledger a coin.denom - st.ledger a coin.denom =
      (if a = dst then coin.amount else 0) - if a = src then coin.amount else 0 := by
  rw [h a coin.denom]
  simp [Coin.payment, Ledger.Payment.net]

/-- A payment is consistent if it is converted, or goes nowhere. -/
theorem unitsConsistent_payment_iff
    (h : Ledger.Settles [Coin.payment ⟨env.evmDenom, n⟩ src dst] st.ledger st'.ledger)
    (hnet : ∀ a, netChange id entries a =
      (if a = dst then amount else 0) - if a = src then amount else 0)
    (hmem : ∃ e ∈ entries, e.account = src) :
    UnitsConsistent env entries st st' ↔ amount = n * env.conversionFactor ∨ src = dst := by
  have hmoved := payment_moved h
  constructor
  · intro hunits
    by_cases hsame : src = dst
    · exact .inr hsame
    left
    obtain ⟨e, he, hsrc⟩ := hmem
    have heq := hunits.amounts e he
    rw [hsrc, hnet, hmoved] at heq
    simp only [hsame, if_false, if_true, zero_sub, neg_mul, neg_inj] at heq
    exact heq
  · intro hor
    refine ⟨fun e _ => ?_, fun _ hother => ?_⟩
    · rw [hnet, hmoved, sub_mul, ite_mul, ite_mul, zero_mul]
      rcases hor with rfl | rfl
      · rfl
      · rw [sub_self, sub_self]
    · obtain ⟨a, d, hd, hne⟩ := hother
      exact absurd (payment_other h a hd) hne

theorem netChange_sub_add (src dst : Address) (amount : ℤ) (a : Address) :
    netChange id [⟨src, amount, .sub⟩, ⟨dst, amount, .add⟩] a =
      (if a = dst then amount else 0) - if a = src then amount else 0 := by
  simp only [netChange_cons, netChange_nil, BalanceChangeEntry.net, id]
  split <;> split <;> omega

theorem unitsConsistent_single_iff {e : BalanceChangeEntry}
    (hother : (∀ a, st'.ledger a env.evmDenom = st.ledger a env.evmDenom) →
      ∀ a d, st'.ledger a d ≠ st.ledger a d → d = env.evmDenom) :
    UnitsConsistent env [e] st st' ↔ e.net id e.account =
      (st'.ledger e.account env.evmDenom - st.ledger e.account env.evmDenom) *
        env.conversionFactor := by
  have hnet : netChange id [e] e.account = e.net id e.account := by simp
  constructor
  · intro h
    rw [← hnet]
    exact h.amounts e (List.mem_singleton_self e)
  intro heq
  refine ⟨fun e' he' => ?_, fun hevm hexists => ?_⟩
  · cases List.mem_singleton.mp he'
    rw [hnet]
    exact heq
  · obtain ⟨a, d, hd, hne⟩ := hexists
    exact absurd (hother hevm a d hne) hd

end Payments

/-! ## What the modules do to the bank -/

/-- Coins withdrawn for `addr` are paid to its withdraw address. -/
structure Withdrawn (cosmos : Cosmos Ω) (distribution addr : Address) (st : Store Ω)
    (coins : Coins) (st' : Store Ω) : Prop where
  nonneg : ∀ d, 0 ≤ coins.amountOf d
  withdrawAddr : cosmos.getDelegatorWithdrawAddr addr st' = cosmos.getDelegatorWithdrawAddr addr st
  paid : ∀ w, cosmos.getDelegatorWithdrawAddr addr st = .ok w →
    Ledger.Settles [⟨distribution, w, coins.amountOf⟩] st.ledger st'.ledger ∧
      ((∃ d, coins.amountOf d ≠ 0) → w ≠ distribution)

/-- What the modules behind the precompiles do to the bank. -/
structure BankEffects (env : Env) (cosmos : Cosmos Ω) where
  /-- The account of `x/distribution`. -/
  distribution : Address
  /-- `SenderChainIsSource`: the token is not a voucher of the channel. -/
  isSource : MsgTransfer → Store Ω → Bool
  rewards : ∀ delegator validator st coins st',
    (cosmos.withdrawDelegationRewards delegator validator).run st = .ok coins st' →
      Withdrawn cosmos distribution delegator st coins st'
  commission : ∀ validator addr st coins st', cosmos.hexAddressFromBech32 validator = .ok addr →
    (cosmos.withdrawValidatorCommission validator).run st = .ok coins st' →
      Withdrawn cosmos distribution addr st coins st'
  fundCommunityPool : ∀ depositor (coin : Coin) st st',
    (cosmos.fundCommunityPool depositor [coin]).run st = .ok () st' →
      0 < coin.amount ∧ Ledger.Settles [coin.payment depositor distribution] st.ledger st'.ledger
  /-- The token is escrowed, or burnt if it is a voucher. -/
  ibcTransfer : ∀ (msg : MsgTransfer) st st', (cosmos.ibcTransfer msg).run st = .ok () st' →
    0 < msg.token.amount ∧
      if isSource msg st then
        Ledger.Settles [msg.token.payment msg.sender
          (cosmos.getEscrowAddress msg.sourcePort msg.sourceChannel)] st.ledger st'.ledger
      else ∀ a d, st'.ledger a d = st.ledger a d -
        if a = msg.sender ∧ d = msg.token.denom then msg.token.amount else 0
  /-- The EVM coin is not the coin of a contract. -/
  nativeERC20 : ∀ token st pair, cosmos.getTokenPair token st = some pair →
    pair.isNativeERC20 = true → pair.denom ≠ env.evmDenom

theorem Coins.amountOf_append (coins coins' : Coins) (d : Denom) :
    Coins.amountOf (coins ++ coins') d = coins.amountOf d + coins'.amountOf d := by
  simp [Coins.amountOf]

section Withdrawals

variable {cosmos : Cosmos Ω} {distribution addr : Address} {st st₁ st' : Store Ω}
  {coins coins' : Coins} {c : Frame}

theorem Withdrawn.nil (cosmos : Cosmos Ω) (distribution addr : Address) (st : Store Ω) :
    Withdrawn cosmos distribution addr st [] st := by
  refine ⟨fun d => le_refl _, rfl, fun w _ => ⟨fun a d => ?_, ?_⟩⟩
  · simp [Ledger.Payment.net, Coins.amountOf]
  · rintro ⟨d, hd⟩
    exact absurd rfl hd

theorem Withdrawn.append (h : Withdrawn cosmos distribution addr st coins st₁)
    (h' : Withdrawn cosmos distribution addr st₁ coins' st') :
    Withdrawn cosmos distribution addr st (coins ++ coins') st' := by
  refine ⟨fun d => ?_, h'.withdrawAddr.trans h.withdrawAddr, fun w hw => ⟨fun a d => ?_, ?_⟩⟩
  · rw [Coins.amountOf_append]
    exact add_nonneg (h.nonneg d) (h'.nonneg d)
  · rw [(h'.paid w (h.withdrawAddr.trans hw)).1 a d, (h.paid w hw).1 a d]
    simp only [Ledger.net_cons, Ledger.net_nil, Ledger.Payment.net, Coins.amountOf_append]
    split <;> split <;> omega
  rintro ⟨d, hd⟩
  rw [Coins.amountOf_append] at hd
  by_cases hzero : coins.amountOf d = 0
  · exact (h'.paid w (h.withdrawAddr.trans hw)).2 ⟨d, by omega⟩
  · exact (h.paid w hw).2 ⟨d, hzero⟩

/-- **Withdrawn coins are registered in 18 decimals.** -/
theorem Withdrawn.unitsConsistent {entries : BalanceChanges}
    (h : Withdrawn cosmos distribution addr st coins st₁)
    (hrun : (Distribution.withdrawnEntries env cosmos addr coins c).run st₁ = .ok entries st') :
    UnitsConsistent env entries st st' := by
  unfold Distribution.withdrawnEntries at hrun
  split at hrun
  · cases hrun
    exact unitsConsistent_nil _ _
  obtain ⟨w, hw, hentries⟩ := read_bind_ok.mp hrun
  cases hentries
  obtain ⟨hpaid, hne⟩ := h.paid w (h.withdrawAddr.symm.trans hw)
  unfold Distribution.entryFor
  dsimp only
  split
  · rename_i hpos
    have hamount : coins.amountOf env.evmDenom ≠ 0 := by
      intro hzero
      rw [hzero, Env.convertAmountTo18Decimals, zero_mul] at hpos
      exact absurd hpos (lt_irrefl 0)
    have hw' : w ≠ distribution := hne ⟨_, hamount⟩
    have hmoved : st₁.ledger w env.evmDenom - st.ledger w env.evmDenom =
        coins.amountOf env.evmDenom := by
      rw [hpaid w env.evmDenom]
      simp [Ledger.Payment.net, hw']
    rw [unitsConsistent_single_iff]
    · simp [BalanceChangeEntry.net, hmoved, Env.convertAmountTo18Decimals]
    · intro hsame
      rw [hsame w, sub_self] at hmoved
      exact absurd hmoved.symm hamount
  · exact unitsConsistent_nil _ _

end Withdrawals

namespace Distribution

variable {cosmos : Cosmos Ω} {st st' : Store Ω} {entries : BalanceChanges} {c : Frame}

theorem withdrawAll_withdrawn (fx : BankEffects env cosmos) {delegator : Address}
    {validators : List String} {coins : Coins}
    (h : (withdrawAll cosmos delegator validators).run st = .ok coins st') :
    Withdrawn cosmos fx.distribution delegator st coins st' := by
  induction validators generalizing st coins with
  | nil =>
    cases h
    exact Withdrawn.nil _ _ _ _
  | cons validator validators ih =>
    obtain ⟨first, st₁, hfirst, hrest⟩ := bind_ok.mp h
    obtain ⟨rest, st₂, hall, hdone⟩ := bind_ok.mp hrest
    cases hdone
    exact (fx.rewards delegator validator st first st₁ hfirst).append (ih hall)

/-- **`fundCommunityPool` registers an amount of the base denom.** -/
theorem fundCommunityPool_units_iff (fx : BankEffects env cosmos) {depositor : Address}
    {amount : ℤ}
    (h : (fundCommunityPool env cosmos depositor amount c).run st = .ok entries st') :
    UnitsConsistent env entries st st' ↔ c.caller = c.origin ∨
      (cosmos.getBaseDenom = .ok env.evmDenom ∧ depositor ≠ fx.distribution) := by
  obtain ⟨baseDenom, hbase, h₁⟩ := check_bind_ok.mp h
  obtain ⟨-, h₂⟩ := ensure_bind_ok.mp h₁
  obtain ⟨-, h₃⟩ := ensure_bind_ok.mp h₂
  obtain ⟨_, st₁, hfund, h₄⟩ := bind_ok.mp h₃
  obtain ⟨hpos, hsettles⟩ := fx.fundCommunityPool depositor _ _ _ hfund
  by_cases hcaller : c.caller = c.origin
  · rw [if_pos hcaller] at h₄
    cases h₄
    simp [hcaller, unitsConsistent_nil]
  have hF := env.int_conversionFactor_pos
  have hconverted : 0 < env.convertAmountTo18Decimals amount := mul_pos hpos hF
  have hentries : entryFor env depositor
      (Coins.amountOf [{ denom := baseDenom, amount := amount }] baseDenom) .sub =
      [⟨depositor, env.convertAmountTo18Decimals amount, .sub⟩] := by
    simp [entryFor, Coins.amountOf, hconverted]
  rw [if_neg hcaller, hentries] at h₄
  cases h₄
  have hbase' : cosmos.getBaseDenom = .ok env.evmDenom ↔ baseDenom = env.evmDenom := by
    rw [hbase, Except.ok.injEq]
  rw [hbase']
  constructor
  · intro hunits
    right
    have hmoved := hunits.amounts _ (List.mem_singleton_self _)
    have hne : st'.ledger depositor env.evmDenom ≠ st.ledger depositor env.evmDenom := by
      intro hsame
      rw [hsame, sub_self, zero_mul] at hmoved
      simp [BalanceChangeEntry.net] at hmoved
      omega
    constructor
    · by_contra hd
      exact hne (payment_other hsettles depositor (Ne.symm hd))
    · rintro rfl
      refine hne ?_
      rw [hsettles]
      simp [Coin.payment, Ledger.Payment.net]
  · rintro (heq | ⟨rfl, hne⟩)
    · exact absurd heq hcaller
    have hmoved := payment_moved hsettles depositor
    rw [unitsConsistent_single_iff, hmoved]
    · simp [BalanceChangeEntry.net, hne, Env.convertAmountTo18Decimals]
    · intro _ a d hd
      by_contra hother
      exact hd (payment_other hsettles a hother)

/-- All methods but `fundCommunityPool` register what they move. -/
theorem handleMethod_units (fx : BankEffects env cosmos) {abi : Abi Ω Call.name} {call : Call}
    (h : (handleMethod env cosmos abi call c).run st = .ok entries st')
    (hcall : ∀ depositor amount, call ≠ .fundCommunityPool depositor amount) :
    UnitsConsistent env entries st st' := by
  cases call with
  | fundCommunityPool depositor amount => exact absurd rfl (hcall depositor amount)
  | claimRewards delegator maxRetrieve =>
    obtain ⟨-, h₁⟩ := ensure_bind_ok.mp h
    obtain ⟨maxVals, -, h₂⟩ := read_bind_ok.mp h₁
    obtain ⟨-, h₃⟩ := ensure_bind_ok.mp h₂
    obtain ⟨-, h₄⟩ := ensure_bind_ok.mp h₃
    obtain ⟨validators, -, h₅⟩ := read_bind_ok.mp h₄
    obtain ⟨coins, st₁, hall, hentries⟩ := bind_ok.mp h₅
    exact (withdrawAll_withdrawn fx hall).unitsConsistent hentries
  | withdrawDelegatorRewards delegator validator =>
    obtain ⟨-, h₁⟩ := ensure_bind_ok.mp h
    obtain ⟨-, h₂⟩ := ensure_bind_ok.mp h₁
    obtain ⟨coins, st₁, hpaid, hentries⟩ := bind_ok.mp h₂
    exact (fx.rewards _ _ _ _ _ hpaid).unitsConsistent hentries
  | withdrawValidatorCommission validator =>
    obtain ⟨addr, haddr, h₁⟩ := check_bind_ok.mp h
    obtain ⟨-, h₂⟩ := ensure_bind_ok.mp h₁
    obtain ⟨coins, st₁, hpaid, hentries⟩ := bind_ok.mp h₂
    exact (fx.commission _ _ _ _ _ haddr hpaid).unitsConsistent hentries
  | setWithdrawAddress delegator withdrawer =>
    exact unitsConsistent_of_yields h (.bind fun _ => .bind fun _ => .bind fun _ => .pure rfl)
  | query name => exact unitsConsistent_of_yields h (.bind fun _ => .pure rfl)

end Distribution

theorem Authz.updateSendGrant_sameBank (grantee src : Address) (g : Grant)
    (resp : AcceptResponse) :
    Within SameBank (Authz.updateSendGrant grantee src g resp : KeeperM Ω Unit) := by
  unfold updateSendGrant
  split
  · exact Authz.deleteGrant_sameBank _ _ _
  · cases resp.updated with
    | none => exact .pure _
    | some updated => exact .modify fun _ => ⟨rfl, rfl⟩

theorem SameBank.ledger {st st' : Store Ω} (h : SameBank st st') : st'.ledger = st.ledger := by
  unfold Store.ledger
  rw [h.balance]

section Sends

variable {cosmos : Cosmos Ω} {st st' : Store Ω} {src dst : Address} {coin : Coin}

theorem Bank.send_settles (h : (send env cosmos src dst coin).run st = .ok () st') :
    Ledger.Settles [coin.payment src dst] st.ledger st'.ledger := by
  obtain ⟨_, st₁, hvalid, h₁⟩ := bind_ok.mp h
  obtain ⟨-, rfl⟩ := validateAmount_ok hvalid
  obtain ⟨_, -, h₂⟩ := read_bind_ok.mp h₁
  obtain ⟨-, h₃⟩ := ensure_bind_ok.mp h₂
  exact (sendCoins_settles h₃).2.2

theorem Authz.dispatchSend_settles {grantee : Address}
    (h : (Authz.dispatchSend env cosmos grantee src dst coin).run st = .ok () st') :
    Ledger.Settles [coin.payment src dst] st.ledger st'.ledger := by
  obtain ⟨g, -, h₁⟩ := read_bind_ok.mp h
  cases hauth : g.authorization with
  | send spendLimit allowList =>
    rw [hauth] at h₁
    obtain ⟨resp, -, h₂⟩ := check_bind_ok.mp h₁
    obtain ⟨_, st₁, hupdate, h₃⟩ := bind_ok.mp h₂
    obtain ⟨-, h₄⟩ := ensure_bind_ok.mp h₃
    have hsame := Authz.updateSendGrant_sameBank grantee src g resp _ _ _ hupdate
    rw [← hsame.ledger]
    exact send_settles h₄
  | _ =>
    rw [hauth] at h₁
    cases h₁

theorem Erc20.sendCoin_settles {c : Frame}
    (h : (Erc20.sendCoin env cosmos src dst coin c).run st = .ok () st') :
    Ledger.Settles [coin.payment src dst] st.ledger st'.ledger := by
  unfold Erc20.sendCoin at h
  split at h
  · exact send_settles (mapError_ok.mp h)
  · obtain ⟨_, st₁, hcheck, hsend⟩ := bind_ok.mp h
    obtain ⟨-, rfl⟩ := read_ok.mp (mapError_ok.mp hcheck)
    exact Authz.dispatchSend_settles (mapError_ok.mp hsend)

end Sends

namespace Erc20

variable {cosmos : Cosmos Ω} {st st' : Store Ω} {entries : BalanceChanges} {c : Frame}
  {pair : TokenPair}

/-- **ERC20 transfers are registered in 18 decimals.** -/
theorem transferBetween_units {src dst : Address} {amount : ℤ}
    (h : (transferBetween env cosmos pair src dst amount c).run st = .ok entries st') :
    UnitsConsistent env entries st st' := by
  obtain ⟨_, st₁, hvalid, h₁⟩ := bind_ok.mp h
  obtain ⟨-, rfl⟩ := validateAmount_ok hvalid
  obtain ⟨_, st₂, hsend, h₂⟩ := bind_ok.mp h₁
  have hsettles := sendCoin_settles hsend
  split at h₂
  · rename_i hdenom
    cases h₂
    rw [hdenom] at hsettles
    exact (unitsConsistent_payment_iff hsettles (netChange_sub_add _ _ _)
      ⟨_, List.mem_cons_self, rfl⟩).mpr (.inl rfl)
  · cases h₂
    exact unitsConsistent_nil _ _

/-- The methods of a token register what they move. -/
theorem handleMethod_units {abi : Abi Ω Call.name} {call : Call}
    (h : (handleMethod env cosmos abi pair call c).run st = .ok entries st') :
    UnitsConsistent env entries st st' := by
  cases call with
  | approve spender amount =>
    refine unitsConsistent_of_yields h (.bind fun _ => .bind fun st => ?_)
    cases st.getAuthorization env spender c.caller sendMsgURL with
    | none =>
      dsimp only
      split
      · exact .bind fun _ => .pure rfl
      · split
        · exact .bind fun _ => .pure rfl
        · exact .pure rfl
    | some a =>
      refine .bind fun sendAuthz => ?_
      split
      · exact .bind fun _ => .pure rfl
      · exact .bind fun _ => .pure rfl
  | increaseAllowance spender addedValue =>
    refine unitsConsistent_of_yields h (.bind fun _ => .bind fun _ => .bind fun st => ?_)
    cases st.getAuthorization env spender c.caller sendMsgURL with
    | none => exact .bind fun _ => .pure rfl
    | some a =>
      exact .bind fun _ => .bind fun _ => .bind fun _ => .pure rfl
  | decreaseAllowance spender subtractedValue =>
    refine unitsConsistent_of_yields h (.bind fun _ => .bind fun _ => .bind fun a => ?_)
    obtain ⟨sendAuthz, allowance⟩ := a
    dsimp only
    split
    · exact .bind fun _ => .pure rfl
    split
    · exact .bind fun _ => .pure rfl
    · split
      · exact .bind fun _ => .pure rfl
      · exact .bind fun _ => .pure rfl
  | query name => exact unitsConsistent_of_yields h (.bind fun _ => .pure rfl)
  | unknown name => cases h
  | _ => exact transferBetween_units h

end Erc20

namespace Ics20

variable {cosmos : Cosmos Ω} {st st' : Store Ω} {entries : BalanceChanges} {c : Frame}
  {msg : MsgTransfer}

theorem resolveDenom_spec (fx : BankEffects env cosmos) (msg : MsgTransfer) (st : Store Ω) :
    (resolveDenom cosmos msg st).1.sender = msg.sender ∧
    (resolveDenom cosmos msg st).1.sourcePort = msg.sourcePort ∧
    (resolveDenom cosmos msg st).1.sourceChannel = msg.sourceChannel ∧
    ((resolveDenom cosmos msg st).1.token.denom = env.evmDenom →
      ∀ pair, (resolveDenom cosmos msg st).2 = some pair → pair.isNativeERC20 = false) := by
  unfold resolveDenom
  cases hpair : cosmos.getTokenPair (trimErc20 msg.token.denom) st with
  | none => simp
  | some pair =>
    dsimp only
    split
    · refine ⟨rfl, rfl, rfl, ?_⟩
      rintro hdenom _ ⟨⟩
      by_contra hnative
      rw [Bool.not_eq_false] at hnative
      exact fx.nativeERC20 _ _ _ hpair hnative hdenom
    · simp

theorem transferKeeper_ok (fx : BankEffects env cosmos) {sent : MsgTransfer}
    (h : (transferKeeper cosmos msg).run st = .ok sent st') :
    sent = (resolveDenom cosmos msg st).1 ∧
      (sent.token.denom = env.evmDenom → (cosmos.ibcTransfer sent).run st = .ok () st') := by
  obtain ⟨-, -, -, hnative⟩ := resolveDenom_spec fx msg st
  unfold transferKeeper at h
  rw [run_get_bind] at h
  generalize resolveDenom cosmos msg st = r at h hnative
  obtain ⟨resolved, pair⟩ := r
  obtain ⟨_, st₁, hconvert, h₁⟩ := bind_ok.mp h
  obtain ⟨_, st₂, htransfer, hdone⟩ := bind_ok.mp h₁
  cases hdone
  refine ⟨rfl, fun hdenom => ?_⟩
  have hsame : st₁ = st := by
    unfold convertMissing at hconvert
    rw [run_get_bind] at hconvert
    cases pair with
    | none =>
      cases hconvert
      rfl
    | some pair =>
      have hmodule := hnative hdenom pair rfl
      simp only [hmodule, Bool.false_eq_true, false_and, if_false] at hconvert
      cases hconvert
      rfl
  rw [← hsame]
  exact htransfer

theorem updateGrantIfNeeded_sameBank (accepted : Option (AcceptResponse × Option ℤ)) (c : Frame) :
    Within SameBank (updateGrantIfNeeded env accepted c : KeeperM Ω Unit) := by
  unfold updateGrantIfNeeded
  cases accepted with
  | none => exact .pure _
  | some a =>
    obtain ⟨resp, expiration⟩ := a
    dsimp only
    split
    · exact Authz.deleteGrant_sameBank _ _ _
    · cases resp.updated with
      | none => exact .pure _
      | some updated => exact Authz.saveGrant_sameBank _ _ _ _

/-- **ICS20 transfers are registered in bank units.** -/
theorem transfer_units_iff (fx : BankEffects env cosmos)
    (h : (transfer env cosmos msg c).run st = .ok entries st') :
    UnitsConsistent env entries st st' ↔ c.caller = c.origin ∨
      (resolveDenom cosmos msg st).1.token.denom ≠ env.evmDenom ∨
      (fx.isSource (resolveDenom cosmos msg st).1 st = true ∧
        (env.conversionFactor = 1 ∨
          msg.sender = cosmos.getEscrowAddress msg.sourcePort msg.sourceChannel)) := by
  obtain ⟨_, -, h₁⟩ := check_bind_ok.mp h
  obtain ⟨_, -, h₂⟩ := read_bind_ok.mp h₁
  obtain ⟨-, h₃⟩ := ensure_bind_ok.mp h₂
  obtain ⟨accepted, -, h₄⟩ := read_bind_ok.mp h₃
  obtain ⟨sent, st₁, hsent, h₅⟩ := bind_ok.mp h₄
  obtain ⟨_, st₂, hgrant, h₆⟩ := bind_ok.mp h₅
  have hledger := (updateGrantIfNeeded_sameBank accepted c _ _ _ hgrant).ledger
  obtain ⟨hresolved, htransfer⟩ := transferKeeper_ok fx hsent
  obtain ⟨hsender, hport, hchannel, -⟩ := resolveDenom_spec fx msg st
  rw [← hresolved] at hsender hport hchannel ⊢
  by_cases hcaller : c.caller = c.origin
  · rw [if_neg (by simp [hcaller])] at h₆
    cases h₆
    simp [hcaller, unitsConsistent_nil]
  by_cases hdenom : sent.token.denom = env.evmDenom
  swap
  · rw [if_neg (by simp [hdenom])] at h₆
    cases h₆
    simp [hdenom, unitsConsistent_nil]
  rw [if_pos ⟨hcaller, hdenom⟩] at h₆
  cases h₆
  obtain ⟨hpos, hmoved⟩ := fx.ibcTransfer sent st st₁ (htransfer hdenom)
  rw [hsender, hport, hchannel, ← hledger] at hmoved
  simp only [hcaller, hdenom, ne_eq, not_true_eq_false, false_or]
  by_cases hsource : fx.isSource sent st = true
  · rw [if_pos hsource] at hmoved
    have hcoin : sent.token = ⟨env.evmDenom, sent.token.amount⟩ := by
      rw [← hdenom]
    rw [hcoin] at hmoved
    rw [unitsConsistent_payment_iff hmoved (netChange_sub_add _ _ _) ⟨_, List.mem_cons_self, rfl⟩]
    simp only [hsource, true_and]
    have hscaled : sent.token.amount = sent.token.amount * env.conversionFactor ↔
        env.conversionFactor = 1 := by
      rw [eq_comm, mul_eq_left₀ hpos.ne']
      exact Nat.cast_eq_one
    rw [hscaled]
  · rw [if_neg hsource] at hmoved
    simp only [hsource, Bool.false_eq_true, false_and, iff_false]
    intro hunits
    -- the escrow account is registered, but the coin was burnt
    have hF := env.int_conversionFactor_pos
    have hescrow := hunits.amounts _ (List.mem_cons_of_mem _ (List.mem_singleton_self _))
    rw [netChange_sub_add, hmoved] at hescrow
    simp only [if_true, hdenom, and_true, sub_sub_cancel_left] at hescrow
    by_cases hsame : cosmos.getEscrowAddress msg.sourcePort msg.sourceChannel = msg.sender
    · have hburnt := mul_pos hpos hF
      simp only [hsame, if_true, sub_self, neg_mul] at hescrow
      omega
    · simp only [hsame, if_false, sub_zero, neg_zero, zero_mul] at hescrow
      omega

theorem handleMethod_units {abi : Abi Ω Call.name} {call : Call}
    (h : (handleMethod env cosmos abi call c).run st = .ok entries st')
    (hcall : ∀ msg, call ≠ .transfer msg) : UnitsConsistent env entries st st' := by
  refine unitsConsistent_of_yields h ?_
  cases call with
  | transfer msg => exact absurd rfl (hcall msg)
  | approve grantee allocations =>
    exact .bind fun _ => .bind fun _ => .bind fun _ => .pure rfl
  | revoke grantee =>
    exact .bind fun _ => .bind fun _ => .bind fun _ => .pure rfl
  | query name => exact .bind fun _ => .pure rfl
  | unknown name => cases h
  | _ =>
    refine .bind fun _ => .bind fun _ => .bind fun _ => .bind fun _ => ?_
    exact .bind fun _ => .pure rfl

end Ics20

namespace Werc20

variable {st st' : Store Ω} {entries : BalanceChanges} {c : Frame} {address : Address}

theorem deposit_ok (h : (deposit env address c).run st = .ok entries st') :
    Ledger.Settles [Coin.payment ⟨env.evmDenom, c.value⟩ address c.caller] st.ledger st'.ledger ∧
      entries = [⟨c.caller, c.value, .add⟩, ⟨address, c.value, .sub⟩] := by
  obtain ⟨_, st₁, hsend, hdone⟩ := bind_ok.mp h
  cases hdone
  refine ⟨?_, rfl⟩
  unfold sendBack at hsend
  split at hsend
  · rename_i hzero
    cases hsend
    intro a d
    simp [hzero, Coin.payment, Ledger.Payment.net]
  · exact (sendCoins_settles hsend).2.2

theorem netChange_add_sub (f : ℤ → ℤ) (src dst : Address) (amount : ℤ) (a : Address) :
    netChange f [⟨dst, amount, .add⟩, ⟨src, amount, .sub⟩] a =
      (if a = dst then f amount else 0) - if a = src then f amount else 0 := by
  simp only [netChange_cons, netChange_nil, BalanceChangeEntry.net]
  split <;> split <;> omega

/-- **Deposits are sent back in bank units.** -/
theorem deposit_units_iff (h : (deposit env address c).run st = .ok entries st') :
    UnitsConsistent env entries st st' ↔
      c.value = 0 ∨ env.conversionFactor = 1 ∨ c.caller = address := by
  obtain ⟨hsettles, rfl⟩ := deposit_ok h
  have hscaled : c.value = c.value * env.conversionFactor ↔
      c.value = 0 ∨ env.conversionFactor = 1 := by
    rw [eq_comm, mul_right_eq_self₀, Nat.cast_eq_one, or_comm]
  have hnet : ∀ a, netChange id [⟨c.caller, c.value, .add⟩, ⟨address, c.value, .sub⟩] a =
      (if a = c.caller then c.value else 0) - if a = address then c.value else 0 :=
    netChange_add_sub id address c.caller c.value
  rw [unitsConsistent_payment_iff hsettles hnet
    ⟨_, List.mem_cons_of_mem _ (List.mem_singleton_self _), rfl⟩, hscaled, or_assoc,
    eq_comm (a := address)]

end Werc20

/-- A method of one of the four precompiles. -/
inductive TokenCall (Ω : Type)
  | ics20 (abi : Abi Ω Ics20.Call.name) (call : Ics20.Call)
  | distribution (abi : Abi Ω Distribution.Call.name) (call : Distribution.Call)
  | erc20 (pair : TokenPair) (abi : Abi Ω Erc20.Call.name) (call : Erc20.Call)
  | werc20 (call : Werc20.Call)

variable (env) in
/-- What the method of the precompile at `address` computes. -/
def TokenCall.run (cosmos : Cosmos Ω) (address : Address) :
    TokenCall Ω → Frame → KeeperM Ω BalanceChanges
  | .ics20 abi call => Ics20.handleMethod env cosmos abi call
  | .distribution abi call => Distribution.handleMethod env cosmos abi call
  | .erc20 pair abi call => Erc20.handleMethod env cosmos abi pair call
  | .werc20 .deposit => Werc20.deposit env address
  | .werc20 (.withdraw amount) => Werc20.withdraw env amount

variable (env) in
/-- The precompiles that move tokens. -/
inductive TokenPrecompile (cosmos : Cosmos Ω) : Precompile Ω → Prop
  | ics20 (abi : Abi Ω Ics20.Call.name) :
      TokenPrecompile cosmos (Ics20.precompile env cosmos abi)
  | distribution (abi : Abi Ω Distribution.Call.name) :
      TokenPrecompile cosmos (Distribution.precompile env cosmos abi)
  | erc20 (pair : TokenPair) (abi : Abi Ω Erc20.Call.name) :
      TokenPrecompile cosmos (Erc20.precompile env cosmos abi pair)
  | werc20 (pair : TokenPair) (abi : Abi Ω Erc20.Call.name)
      (methodById : Bytes → Except Err Method) (amountOf : Bytes → Except Err ℤ)
      (emitted : Werc20.Call → Frame → Store Ω → Emitted) :
      TokenPrecompile cosmos (Werc20.precompile env (Erc20.precompile env cosmos abi pair)
        methodById amountOf emitted)

variable (env) in
/-- The handler of the call is the method. -/
def PrecompileCall.Runs (cosmos : Cosmos Ω) (c : PrecompileCall Ω) (m : TokenCall Ω) : Prop :=
  ∃ emitted, c.precompile.prepare c.frame =
    .ok (Handler.of emitted (m.run env cosmos c.precompile.address))

/-- When the units of a method agree, in the store `st`. -/
def TokenCall.UnitsAgree {cosmos : Cosmos Ω} (fx : BankEffects env cosmos)
    (c : PrecompileCall Ω) (st : Store Ω) : TokenCall Ω → Prop
  | .ics20 _ (.transfer msg) =>
    c.frame.caller = c.frame.origin ∨
    (Ics20.resolveDenom cosmos msg st).1.token.denom ≠ env.evmDenom ∨
    (fx.isSource (Ics20.resolveDenom cosmos msg st).1 st = true ∧
      (env.conversionFactor = 1 ∨
        msg.sender = cosmos.getEscrowAddress msg.sourcePort msg.sourceChannel))
  | .distribution _ (.fundCommunityPool depositor _) =>
    c.frame.caller = c.frame.origin ∨
    (cosmos.getBaseDenom = .ok env.evmDenom ∧ depositor ≠ fx.distribution)
  | .werc20 .deposit =>
    c.frame.value = 0 ∨ env.conversionFactor = 1 ∨ c.frame.caller = c.precompile.address
  | _ => True

variable (env) in
/-- The changes are consistent, and a deposit is neutral. -/
structure CallUnits (s : StateDB Ω) (c : PrecompileCall Ω) (m : TokenCall Ω) (s' : StateDB Ω) :
    Prop where
  registered : UnitsConsistent env (c.entries (s.flushedStore env c)) (s.flushedStore env c)
    s'.cacheStore
  deposit : m = .werc20 .deposit → c.kind = .call →
    ∀ a, a = c.frame.caller ∨ a = c.precompile.address →
      (s'.getBalance env a).1 = (s.getBalance env a).1 ∧
      (s.InSync env a → (s'.cacheStore.balance a env.evmDenom : ℤ) * env.conversionFactor =
        (s.getBalance env a).1)

section Calls

variable {cosmos : Cosmos Ω} {ctx : Context Ω} {tx : TxConfig} {s s' : StateDB Ω}
  {c : PrecompileCall Ω} {m : TokenCall Ω}

theorem TokenPrecompile.unpack_ok {p : Precompile Ω} (hp : TokenPrecompile env cosmos p)
    {method : Method} {bz : Bytes} {handler : Handler Ω} (h : p.unpack method bz = .ok handler) :
    ∃ (m : TokenCall Ω) (emitted : Frame → Store Ω → Emitted),
      handler = Handler.of emitted (m.run env cosmos p.address) := by
  cases hp with
  | ics20 abi =>
    obtain ⟨call, -, rfl⟩ := except_map_ok.mp h
    exact ⟨.ics20 abi call, _, rfl⟩
  | distribution abi =>
    obtain ⟨call, -, rfl⟩ := except_map_ok.mp h
    exact ⟨.distribution abi call, _, rfl⟩
  | erc20 pair abi =>
    obtain ⟨call, -, rfl⟩ := except_map_ok.mp h
    exact ⟨.erc20 pair abi call, _, rfl⟩
  | werc20 pair abi methodById amountOf emitted =>
    simp only [Werc20.precompile, Werc20.unpack] at h
    split at h
    · cases h
      exact ⟨.werc20 .deposit, _, rfl⟩
    split at h
    · obtain ⟨amount, -, rfl⟩ := except_map_ok.mp h
      exact ⟨.werc20 (.withdraw amount), _, rfl⟩
    · obtain ⟨call, -, rfl⟩ := except_map_ok.mp h
      exact ⟨.erc20 pair abi call, _, rfl⟩

/-- A token call is consistent just if its units agree. -/
theorem TokenCall.registered_iff (fx : BankEffects env cosmos)
    {entries : BalanceChanges} {st st' : Store Ω}
    (h : (m.run env cosmos c.precompile.address c.frame).run st = .ok entries st') :
    UnitsConsistent env entries st st' ↔ m.UnitsAgree fx c st := by
  cases m with
  | ics20 abi call =>
    change (Ics20.handleMethod env cosmos abi call c.frame).run st = _ at h
    cases call with
    | transfer msg => exact Ics20.transfer_units_iff fx h
    | _ => exact iff_of_true (Ics20.handleMethod_units h fun _ => by rintro ⟨⟩) trivial
  | distribution abi call =>
    change (Distribution.handleMethod env cosmos abi call c.frame).run st = _ at h
    cases call with
    | fundCommunityPool depositor amount => exact Distribution.fundCommunityPool_units_iff fx h
    | _ => exact iff_of_true (Distribution.handleMethod_units fx h fun _ _ => by rintro ⟨⟩) trivial
  | erc20 pair abi call => exact iff_of_true (Erc20.handleMethod_units h) trivial
  | werc20 call =>
    cases call with
    | deposit => exact Werc20.deposit_units_iff h
    | withdraw amount =>
      exact iff_of_true (unitsConsistent_of_yields h
        (.bind fun _ => .bind fun _ => .pure rfl)) trivial

/-- **Deposits leave everybody with what they had.** -/
theorem Succeeded.deposit_neutral (hs : Moves env (new ctx tx) s)
    (h : Succeeded env s c s') (hkind : c.kind = .call)
    (hrun : (Werc20.deposit env c.precompile.address c.frame).run (s.flushedStore env c) =
      .ok (c.entries (s.flushedStore env c)) s'.cacheStore)
    (hagree : c.frame.value = 0 ∨ env.conversionFactor = 1 ∨
      c.frame.caller = c.precompile.address) (a : Address) :
    (s'.getBalance env a).1 = (s.getBalance env a).1 ∧
      (s.InSync env a → (s'.cacheStore.balance a env.evmDenom : ℤ) * env.conversionFactor =
        (s.getBalance env a).1) := by
  obtain ⟨hsettles, hentries⟩ := Werc20.deposit_ok hrun
  have hvalue : c.valueMoved env a =
      (if a = c.precompile.address then env.adjustExtraDecimals c.frame.value else 0) -
        if a = c.frame.caller then env.adjustExtraDecimals c.frame.value else 0 := by
    rw [PrecompileCall.valueMoved, if_pos hkind]
    rfl
  constructor
  · rw [h.balance a, hentries, Werc20.netChange_add_sub, hvalue]
    omega
  intro hsync
  have hflush := h.flush
  have hcache : (s.entered env c).cacheStore = s.cacheStore :=
    congrArg CacheContext.store (entered_cacheContext env s c)
  rw [hcache] at hflush
  have hflushed := hsync.flushed hs hflush
  have hmoved := payment_moved hsettles a
  -- the value goes back as it came
  have hback : ((if a = c.frame.caller then c.frame.value else 0) -
      if a = c.precompile.address then c.frame.value else 0) * (env.conversionFactor : ℤ) =
      -c.valueMoved env a := by
    rw [hvalue]
    rcases hagree with hzero | hone | hsame
    · simp [hzero, Env.adjustExtraDecimals]
    · have hadjust : env.adjustExtraDecimals c.frame.value = c.frame.value :=
        env.adjustExtraDecimals_of_dvd (by simp [hone])
      rw [hadjust, hone, Nat.cast_one, mul_one]
      omega
    · simp [hsame]
  have hstored : (s'.cacheStore.balance a env.evmDenom : ℤ) =
      (s.flushedStore env c).balance a env.evmDenom +
        ((if a = c.frame.caller then c.frame.value else 0) -
          if a = c.precompile.address then c.frame.value else 0) := by
    unfold Store.ledger at hmoved
    dsimp only at hmoved
    omega
  rw [hstored, add_mul, hback, hflushed]
  omega

/-- **The units of precompile calls** that succeed are consistent exactly if those of the method
agree. -/
theorem callUnits_iff (fx : BankEffects env cosmos) (hs : Moves env (StateDB.new ctx tx) s)
    (hp : TokenPrecompile env cosmos c.precompile)
    (hcall : s.callPrecompile env c = some (none, s')) :
    (∃ m, c.Runs env cosmos m) ∧ ∀ m, c.Runs env cosmos m →
      (CallUnits env s c m s' ↔ m.UnitsAgree fx c (s.flushedStore env c)) := by
  have hspec := callPrecompile_spec hcall
  refine ⟨?_, fun m hruns => ?_⟩
  · obtain ⟨handler, hprepare, -⟩ := hspec.handler
    obtain ⟨method, bz, -, hunpack⟩ := Precompile.prepare_ok hprepare
    obtain ⟨m, emitted, rfl⟩ := hp.unpack_ok hunpack
    exact ⟨m, emitted, hprepare⟩
  · obtain ⟨emitted, hprepare⟩ := hruns
    have hrun := hspec.run_of_prepare hprepare
    rw [← TokenCall.registered_iff fx hrun]
    refine ⟨CallUnits.registered, fun hunits => ⟨hunits, ?_⟩⟩
    rintro rfl hkind a -
    exact hspec.deposit_neutral hs hkind hrun ((Werc20.deposit_units_iff hrun).mp hunits) a

end Calls

/-! ## Deposits on the small chain -/

namespace Devnet

/-- Nothing is withdrawn, and every token is escrowed. -/
def bankEffects (env : Env) : BankEffects env (cosmos env) where
  distribution := 0xD0
  isSource := fun _ _ => true
  rewards := by
    intro delegator validator st coins st' h
    cases h
    exact Withdrawn.nil _ _ _ _
  commission := by
    intro validator addr st coins st' _ h
    cases h
    exact Withdrawn.nil _ _ _ _
  fundCommunityPool := by
    intro depositor coin st st' h
    have hone : (cosmos env).fundCommunityPool depositor [coin] =
        sendCoins env depositor 0xD0 coin.denom coin.amount := by
      simp [cosmos]
    rw [hone] at h
    obtain ⟨hpos, -, hsettles⟩ := sendCoins_settles h
    exact ⟨hpos, hsettles⟩
  ibcTransfer := by
    intro msg st st' h
    obtain ⟨hpos, -, hsettles⟩ := sendCoins_settles h
    exact ⟨hpos, hsettles⟩
  nativeERC20 := by
    intro token st pair h
    cases h

/-- The WERC20 precompile at `0x900`, called for deposits. -/
def werc20 (env : Env) : Precompile Delegations :=
  Werc20.precompile env
    (Erc20.precompile env (cosmos env) (abi Erc20.Call.name [])
      { erc20Address := 0x900, denom := "utac", enabled := true, contractOwner := .module })
    (fun _ => .error (.new "no method with id")) (fun _ => .error (.new "abi: cannot unpack"))
    (fun _ _ _ => { events := [], logs := [], cost := 0 })

/-- `0xA1` deposits two, in 18 decimals. -/
def depositCall (decimals : Decimals) : PrecompileCall Delegations where
  kind := .call
  precompile := werc20 (Devnet.env decimals)
  frame := { frame 0xA1 [] with value := 2 }

/-- `0xA1` has ten coins and the precompile five. -/
def depositStore : Store Delegations :=
  { stakingStore with
    sequence := fun a => if a = 0x900 then some 0 else stakingStore.sequence a
    balance := fun a d => if a = 0x900 ∧ d = "utac" then 5 else stakingStore.balance a d
    supply := fun d => if d = "utac" then 15 else 0 }

end Devnet

open Devnet

/-- A deposit with 18 decimals. -/
theorem callUnits_devnet :
    ∃ s', (StateDB.new (Devnet.ctx depositStore) txConfig).callPrecompile
        env18 (depositCall .eighteenDecimals) = some (none, s') ∧
      CallUnits env18
        (StateDB.new (Devnet.ctx depositStore) txConfig)
        (depositCall .eighteenDecimals) (.werc20 .deposit) s' := by
  have hcalls : callsLeave env18
      [depositCall .eighteenDecimals] (fun _ => true)
      (StateDB.new (Devnet.ctx depositStore) txConfig) = true := by
    decide +kernel
  obtain ⟨s', hcall, -⟩ := exists_of_callsLeave hcalls
  have hunits := callUnits_iff (bankEffects _) .refl (.werc20 _ _ _ _ _) hcall
  exact ⟨s', hcall, (hunits.2 (.werc20 .deposit) ⟨_, rfl⟩).mpr (.inr (.inl rfl))⟩

/-- **A deposit that takes the coins of the precompile.** -/
theorem deposit_overpaid :
    ∃ s', (StateDB.new (Devnet.ctx depositStore) txConfig).callPrecompile
        env6 (depositCall .sixDecimals) = some (none, s') ∧
      depositStore.balance 0xA1 "utac" = 10 ∧ s'.cacheStore.balance 0xA1 "utac" = 12 ∧
      ¬ CallUnits env6
        (StateDB.new (Devnet.ctx depositStore) txConfig)
        (depositCall .sixDecimals) (.werc20 .deposit) s' := by
  have hcalls : callsLeave env6
      [depositCall .sixDecimals]
      (fun s => s.cacheStore.balance 0xA1 "utac" == 12)
      (StateDB.new (Devnet.ctx depositStore) txConfig) = true := by
    decide +kernel
  obtain ⟨s', hcall, hleft⟩ := exists_of_callsLeave hcalls
  have hbalance : s'.cacheStore.balance 0xA1 "utac" = 12 := beq_iff_eq.mp hleft
  refine ⟨s', hcall, rfl, hbalance, fun hunits => ?_⟩
  have hrun := (callPrecompile_spec hcall).run_of_prepare
    (show _ = Except.ok (Handler.of _ (Werc20.deposit env6 0x900)) from rfl)
  obtain hvalue | hfactor | hcaller := (Werc20.deposit_units_iff hrun).mp hunits.registered
  · exact absurd hvalue (by decide)
  · exact absurd hfactor (by decide)
  · exact absurd hcaller (by decide)

end TacEvm
