import TacEvm.Analysis.TokenContract
import TacEvm.Analysis.TokenRegistry

/-!
# The coins of a native token are backed

The supply of the coin and the tokens of the module are a `Vault`, in which a conversion moves both
by the same amount. The operations of the code are steps of it, whoever sends and receives.
-/

namespace TacEvm

open FallibleState TokenAbi

/-- The coins of a pair, and the tokens that are held for them. -/
structure Vault where
  supply : ℕ
  escrow : ℕ
  deriving DecidableEq

namespace Vault

/-- Every coin has a token behind it. -/
def Backed (v : Vault) : Prop := v.supply ≤ v.escrow

/-- A conversion changes both sides by the same amount. -/
structure Converts (δ : ℤ) (v w : Vault) : Prop where
  supply : (w.supply : ℤ) = v.supply + δ
  escrow : (w.escrow : ℤ) = v.escrow + δ

/-- What can happen to a vault: a conversion, or a gift of tokens. -/
inductive Step : Vault → Vault → Prop
  | convert {v w : Vault} (δ : ℤ) (h : Converts δ v w) : Step v w
  | gift {v w : Vault} (hsupply : w.supply = v.supply) (hescrow : v.escrow ≤ w.escrow) : Step v w

variable {v : Vault}

theorem Step.rfl : Step v v := .gift (Eq.refl _) le_rfl

variable {w : Vault}

theorem Step.backed (h : Step v w) (hv : v.Backed) : w.Backed := by
  unfold Backed at hv ⊢
  cases h with
  | convert δ hconverts =>
    have hsupply := hconverts.supply
    have hescrow := hconverts.escrow
    omega
  | gift hsupply hescrow => omega

/-- **A vault that is backed stays so.** -/
theorem backed_of_steps (h : Relation.ReflTransGen Step v w) (hv : v.Backed) : w.Backed := by
  induction h with
  | refl => exact hv
  | tail _ hstep ih => exact hstep.backed ih

end Vault

section Calls

variable {Ω : Type} {chain : Chain} {evm : Evm Ω} {contract sender : Address} {data : Bytes}
  {commit : Bool} {ctx ctx' : Context Ω} {res : MsgEthereumTxResponse}

/-- A call that returns has applied a message of the sender. -/
theorem callEVMWithData_ok {recipient : Option Address}
    (h : (callEVMWithData chain evm sender recipient data commit).run ctx = .ok res ctx') :
    ∃ msg : Message, msg.sender = sender ∧ msg.recipient = recipient ∧ msg.data = data ∧
      (applyMessageWithConfig chain evm msg commit (emptyTxConfig chain)).run ctx =
        .ok res ctx' ∧ res.failed = false := by
  unfold callEVMWithData at h
  rw [run_get_bind] at h
  obtain ⟨nonce, -, h₁⟩ := fromExcept_bind_ok.mp h
  obtain ⟨gasCap, -, h₂⟩ := fromExcept_bind_ok.mp h₁
  obtain ⟨res₁, ctx₃, happly, h₃⟩ := bind_ok.mp h₂
  obtain ⟨hok, hreturn⟩ := require_bind_ok.mp h₃
  cases hreturn
  obtain ⟨_, -, hmessage⟩ := fromExcept_bind_ok.mp happly
  exact ⟨_, rfl, rfl, rfl, hmessage, hok⟩

variable {token : StandardErc20 chain.env evm contract}

theorem StandardErc20.callEVMWithData_transfer {receiver : Address} {amount : ℤ}
    (hdeployed : token.Deployed ctx.store)
    (h : (callEVMWithData chain evm sender (some contract)
      (packTransfer receiver amount) true).run ctx = .ok res ctx') :
    token.TransferCommitted sender receiver (amount % 2 ^ 256).toNat res.ret ctx.store
      ctx'.store := by
  obtain ⟨msg, rfl, hrecipient, hdata, happly, hok⟩ := callEVMWithData_ok h
  exact transfer_applied hdeployed happly hrecipient hdata hok

variable {src dst : Address} {amount : ℕ} {ret : Bytes} {st st' : Store Ω}

theorem StandardErc20.TransferCommitted.moved
    (h : token.TransferCommitted src dst amount ret st st') (hret : unpackBool ret = .ok true) :
    amount ≤ token.balances st src ∧
      token.balances st' = moveTokens (token.balances st) src dst amount := by
  obtain ⟨moved, hunpack, hbalances⟩ := h.returned
  rw [hret] at hunpack
  cases hunpack
  rwa [if_pos rfl] at hbalances

theorem StandardErc20.TransferCommitted.le_balances {a : Address}
    (h : token.TransferCommitted src dst amount ret st st') (ha : a ≠ src) :
    token.balances st a ≤ token.balances st' a := by
  obtain ⟨moved, -, hbalances⟩ := h.returned
  cases moved with
  | true =>
    rw [if_pos rfl] at hbalances
    rw [hbalances.2]
    exact le_moveTokens ha
  | false =>
    rw [if_neg Bool.false_ne_true] at hbalances
    rw [hbalances]

end Calls

section Bank

variable {Ω : Type} {env : Env} {st st₁ st' : Store Ω} {d : Denom}

/-- The supply of a coin changes by `δ`, and no account does. -/
structure BankOnly (d : Denom) (δ : ℤ) (st st' : Store Ω) : Prop where
  slots : st'.getState = st.getState
  sequence : st'.sequence = st.sequence
  codeHash : st'.codeHash = st.codeHash
  rest : st'.rest = st.rest
  supply : (st'.supply d : ℤ) = st.supply d + δ

variable {δ amount : ℤ}

theorem BankOnly.trans {ε : ℤ} (h : BankOnly d δ st st₁) (h' : BankOnly d ε st₁ st') :
    BankOnly d (δ + ε) st st' where
  slots := h'.slots.trans h.slots
  sequence := h'.sequence.trans h.sequence
  codeHash := h'.codeHash.trans h.codeHash
  rest := h'.rest.trans h.rest
  supply := by rw [h'.supply, h.supply, add_assoc]

theorem sendCoins_bankOnly {src dst : Address}
    (h : (Bank.sendCoins env src dst d amount).run st = .ok () st') : BankOnly d 0 st st' := by
  obtain ⟨-, -, rfl⟩ := Bank.sendCoins_ok h
  exact ⟨rfl, rfl, rfl, rfl, (add_zero _).symm⟩

variable {module contract : Address}

theorem mintCoins_bankOnly (h : (Bank.mintCoins module d amount).run st = .ok () st') :
    0 < amount ∧ BankOnly d amount st st' := by
  obtain ⟨_, st₁, hvalid, h₁⟩ := bind_ok.mp h
  obtain ⟨hpos, rfl⟩ := Bank.validateAmount_ok hvalid
  obtain ⟨_, st₂, hadd, h₂⟩ := bind_ok.mp h₁
  cases hadd
  cases h₂
  refine ⟨hpos, rfl, rfl, rfl, rfl, ?_⟩
  simp only [Store.setSupply, Store.setBankBalance, Function.update_self]
  push_cast
  rw [Int.toNat_of_nonneg hpos.le]

theorem burnCoins_bankOnly (h : (Bank.burnCoins env module d amount).run st = .ok () st') :
    BankOnly d (-amount) st st' := by
  obtain ⟨_, st₁, hvalid, h₁⟩ := bind_ok.mp h
  obtain ⟨hpos, rfl⟩ := Bank.validateAmount_ok hvalid
  obtain ⟨_, st₂, hsub, h₂⟩ := bind_ok.mp h₁
  obtain ⟨-, rfl⟩ := Bank.subUnlockedCoins_ok hsub
  simp only [run_get_bind] at h₂
  split at h₂
  · cases h₂
  rename_i hle
  cases h₂
  refine ⟨rfl, rfl, rfl, rfl, ?_⟩
  simp only [Store.setSupply, Store.setBankBalance, Function.update_self] at hle ⊢
  omega

variable {chain : Chain} {evm : Evm Ω}

theorem BankOnly.balances (h : BankOnly d δ st st') (token : StandardErc20 chain.env evm contract) :
    token.balances st' = token.balances st := by
  unfold StandardErc20.balances
  rw [h.slots]

theorem BankOnly.deployed (h : BankOnly d δ st st') {token : StandardErc20 chain.env evm contract}
    (hdeployed : token.Deployed st) : token.Deployed st' where
  account := by
    rw [h.sequence]
    exact hdeployed.account
  codeHash := by
    have hhash := hdeployed.codeHash
    unfold Store.getCodeHash at hhash ⊢
    rwa [h.codeHash]

end Bank

namespace Erc20Keeper

variable {chain : Chain} {evm : Evm Erc20Store} {cfg : ConversionConfig}

/-- The pair that is registered under an address or a denom. -/
def lookup (name : Bytes) (st : AppStore) : Option TokenPair :=
  getTokenPair (getTokenPairID name st) st

/-- No pair was registered on the way. -/
def NothingNew (st st' : AppStore) : Prop :=
  ∀ name pair, lookup name st' = some pair → lookup name st = some pair

variable {st st' : AppStore}

theorem NothingNew.trans {st₁ : AppStore} (h : NothingNew st st₁) (h' : NothingNew st₁ st') :
    NothingNew st st' :=
  fun name pair hpair => h name pair (h' name pair hpair)

theorem nothingNew_of_rest (h : st'.rest = st.rest) : NothingNew st st' := by
  intro name pair hpair
  unfold lookup getTokenPair getTokenPairID at hpair ⊢
  rwa [h] at hpair

theorem eq_some_of_update_none {α β : Type} [DecidableEq α] {f : α → Option β} {a x : α} {b : β}
    (h : Function.update f a none x = some b) : f x = some b := by
  by_cases hx : x = a
  · subst hx
    simp at h
  · rwa [Function.update_of_ne hx] at h

variable {pair : TokenPair}

theorem nothingNew_deleteTokenPair (h : (deleteTokenPair cfg.toConfig pair).run st = .ok () st') :
    NothingNew st st' := by
  cases h
  intro name found hfound
  unfold lookup getTokenPair getTokenPairID at hfound ⊢
  obtain ⟨id, hid, hpair⟩ := Option.bind_eq_some_iff.mp hfound
  refine Option.bind_eq_some_iff.mpr ⟨id, ?_, eq_some_of_update_none hpair⟩
  by_cases hhex : isHexAddress name = true
  · rw [if_pos hhex] at hid ⊢
    exact eq_some_of_update_none hid
  · rw [if_neg hhex] at hid ⊢
    exact eq_some_of_update_none hid

variable {sender receiver : Address}

theorem mintingEnabled_ok {name : Bytes}
    (h : mintingEnabled chain cfg sender receiver name st = .ok pair) :
    lookup name st = some pair := by
  unfold mintingEnabled at h
  split at h
  · cases h
  split at h
  · cases h
  rename_i id hid
  split at h
  · cases h
  split at h
  · cases h
  split at h
  · cases h
  split at h
  · cases h
  · cases h
    unfold lookup
    rwa [hid]

/-! ## What a conversion does -/

variable {ctx ctx' : Context Erc20Store}

variable {contract account : Address} {n : ℕ}

theorem retrieveBalance_ok
    (h : (retrieveBalance chain evm cfg contract account).run ctx = .ok n ctx') :
    balanceOf chain evm cfg contract account ctx = some n ∧ ctx' = ctx := by
  unfold retrieveBalance at h
  rw [run_get_bind] at h
  obtain ⟨hbalance, rfl⟩ := fromExcept_ok.mp h
  refine ⟨?_, rfl⟩
  cases hquery : balanceOf chain evm cfg contract account ctx' with
  | none =>
    rw [hquery] at hbalance
    cases hbalance
  | some m =>
    rw [hquery] at hbalance
    cases hbalance
    rfl

theorem balanceOf_eq {token : StandardErc20 chain.env evm contract}
    (hdeployed : token.Deployed ctx.store)
    (h : balanceOf chain evm cfg contract account ctx = some n) :
    n = token.balances ctx.store account := by
  unfold balanceOf at h
  split at h
  · rename_i res ctx' hcall
    obtain ⟨msg, -, hrecipient, hdata, happly, hok⟩ := callEVMWithData_ok (mapError_ok.mp hcall)
    rw [StandardErc20.query_applied hdeployed happly hrecipient hdata hok] at h
    exact (Option.some.inj h).symm
  · cases h

/-- The escrow was seen to grow by the amount that was minted. -/
structure Escrowed (chain : Chain) (evm : Evm Erc20Store) (cfg : ConversionConfig)
    (pair : TokenPair) (amount : ℤ) (sender : Address) (ctx ctx' : Context Erc20Store) : Prop where
  positive : 0 < amount
  call : ∃ (res : MsgEthereumTxResponse) (ctx₁ : Context Erc20Store) (before after : ℕ),
    balanceOf chain evm cfg pair.getERC20Contract cfg.moduleAddress ctx = some before ∧
    (callEVMWithData chain evm sender (some pair.getERC20Contract)
      (packTransfer cfg.moduleAddress amount) true).run ctx = .ok res ctx₁ ∧
    balanceOf chain evm cfg pair.getERC20Contract cfg.moduleAddress ctx₁ = some after ∧
    (after : ℤ) = before + amount ∧ BankOnly (quote pair.denom) amount ctx₁.store ctx'.store

/-- A conversion of tokens escrows them. -/
theorem convertERC20IntoCoinsForNativeToken_ok {msg : MsgConvertERC20}
    (h : (convertERC20IntoCoinsForNativeToken chain evm cfg pair msg receiver sender).run ctx =
      .ok () ctx') : Escrowed chain evm cfg pair msg.amount sender ctx ctx' := by
  obtain ⟨res, ctx₀, hescrow, hcheck⟩ := bind_ok.mp h
  obtain ⟨_, -, hemit⟩ := fromExcept_bind_ok.mp hcheck
  cases hemit
  unfold escrowTokens at hescrow
  rw [run_get_bind] at hescrow
  obtain ⟨before, ctx₁, hbefore, h₁⟩ := bind_ok.mp hescrow
  obtain ⟨hbefore, rfl⟩ := retrieveBalance_ok hbefore
  obtain ⟨res, ctx₂, hcall, h₂⟩ := bind_ok.mp h₁
  obtain ⟨value, -, h₃⟩ := fromExcept_bind_ok.mp h₂
  obtain ⟨-, h₄⟩ := require_bind_ok.mp h₃
  obtain ⟨after, ctx₅, hafter, h₅⟩ := bind_ok.mp h₄
  obtain ⟨hafter, rfl⟩ := retrieveBalance_ok hafter
  obtain ⟨hgrown, h₆⟩ := require_bind_ok.mp h₅
  obtain ⟨_, ctx₇, hmintCtx, h₇⟩ := bind_ok.mp h₆
  obtain ⟨st₁, hmint, rfl⟩ := ContextM.onStore_ok.mp hmintCtx
  obtain ⟨hpos, hminted⟩ := mintCoins_bankOnly hmint
  obtain ⟨_, ctx₈, hsendCtx, h₈⟩ := bind_ok.mp h₇
  obtain ⟨st₂, hsend, rfl⟩ := ContextM.onStore_ok.mp hsendCtx
  have hsent : BankOnly (quote pair.denom) 0 st₁ st₂ := by
    unfold Bank.sendCoinsFromModuleToAccount at hsend
    split at hsend
    · cases hsend
    · exact sendCoins_bankOnly hsend
  rw [run_get_bind] at h₈
  obtain ⟨-, hdone⟩ := require_bind_ok.mp h₈
  cases hdone
  have hbank := hminted.trans hsent
  rw [add_zero] at hbank
  exact ⟨hpos, res, _, before, after, hbefore, hcall, hafter, hgrown, hbank⟩

/-- The receiver was seen to get the amount that was burnt. -/
structure Unescrowed (chain : Chain) (evm : Evm Erc20Store) (cfg : ConversionConfig)
    (pair : TokenPair) (amount : ℤ) (receiver : Address) (ctx ctx' : Context Erc20Store) :
    Prop where
  positive : 0 < amount
  call : ∃ (res : MsgEthereumTxResponse) (ctx₁ ctx₂ : Context Erc20Store) (before after : ℕ),
    balanceOf chain evm cfg pair.getERC20Contract receiver ctx = some before ∧
    BankOnly (quote pair.denom) 0 ctx.store ctx₁.store ∧
    (callEVMWithData chain evm cfg.moduleAddress (some pair.getERC20Contract)
      (packTransfer receiver amount) true).run ctx₁ = .ok res ctx₂ ∧
    unpackBool res.ret = .ok true ∧
    balanceOf chain evm cfg pair.getERC20Contract receiver ctx₂ = some after ∧
    (after : ℤ) = before + amount ∧ BankOnly (quote pair.denom) (-amount) ctx₂.store ctx'.store

/-- A conversion of coins releases the tokens, or does nothing. -/
theorem convertCoinNativeERC20_ok {amount : ℤ}
    (h : (convertCoinNativeERC20 chain evm cfg pair amount receiver sender).run ctx =
      .ok () ctx') : ctx' = ctx ∨ Unescrowed chain evm cfg pair amount receiver ctx ctx' := by
  unfold convertCoinNativeERC20 at h
  split at h
  · cases h
    exact .inl rfl
  rename_i hpos
  refine .inr ⟨not_not.mp hpos, ?_⟩
  obtain ⟨res, ctx₀, hunescrow, hcheck⟩ := bind_ok.mp h
  obtain ⟨-, rfl⟩ := fromExcept_ok.mp hcheck
  obtain ⟨before, ctx₁, hbefore, h₁⟩ := bind_ok.mp hunescrow
  obtain ⟨hbefore, rfl⟩ := retrieveBalance_ok hbefore
  obtain ⟨_, ctx₂, hsendCtx, h₂⟩ := bind_ok.mp h₁
  obtain ⟨st₁, hsend, rfl⟩ := ContextM.onStore_ok.mp (mapError_ok.mp hsendCtx)
  have hsent := sendCoins_bankOnly hsend
  obtain ⟨res, ctx₃, hcall, h₃⟩ := bind_ok.mp h₂
  obtain ⟨value, hreturned, h₄⟩ := fromExcept_bind_ok.mp h₃
  obtain ⟨rfl, h₅⟩ := require_bind_ok.mp h₄
  obtain ⟨after, ctx₆, hafter, h₆⟩ := bind_ok.mp h₅
  obtain ⟨hafter, rfl⟩ := retrieveBalance_ok hafter
  obtain ⟨hgrown, h₇⟩ := require_bind_ok.mp h₆
  obtain ⟨_, ctx₈, hburnCtx, h₈⟩ := bind_ok.mp h₇
  obtain ⟨st₂, hburn, rfl⟩ := ContextM.onStore_ok.mp (mapError_ok.mp hburnCtx)
  have hburnt := burnCoins_bankOnly hburn
  cases h₈
  exact ⟨res, _, _, before, after, hbefore, hsent, mapError_ok.mp hcall, hreturned, hafter,
    hgrown, hburnt⟩

/-! ## The vault of a pair -/

section Vault

variable {pair : TokenPair} {token : StandardErc20 chain.env evm pair.getERC20Contract}
  {ctx ctx' : Context Erc20Store}

variable (cfg token) in
/-- The supply of the coin, and the tokens of the module. -/
def vault (st : AppStore) : Vault where
  supply := st.supply (quote pair.denom)
  escrow := token.balances st cfg.moduleAddress

variable (token) in
/-- What operations keep: the contract, and no new pairs. -/
structure Keeps (st st' : AppStore) : Prop where
  deployed : token.Deployed st'
  registry : NothingNew st st'

variable {amount : ℤ} (hdenom : quote pair.denom ≠ chain.env.evmDenom)
  (hdeployed : token.Deployed ctx.store)
include hdenom hdeployed

/-- An escrow is a conversion of the vault. -/
theorem Escrowed.converts (h : Escrowed chain evm cfg pair amount sender ctx ctx') :
    Keeps token ctx.store ctx'.store ∧
      (vault cfg token ctx.store).Converts amount (vault cfg token ctx'.store) := by
  obtain ⟨res, ctx₁, before, after, hbefore, hcall, hafter, hgrown, hbank⟩ := h.call
  have htransfer := token.callEVMWithData_transfer hdeployed hcall
  have hbefore := balanceOf_eq hdeployed hbefore
  have hafter := balanceOf_eq htransfer.deployed hafter
  refine ⟨⟨hbank.deployed htransfer.deployed,
    nothingNew_of_rest (hbank.rest.trans htransfer.rest)⟩, ?_, ?_⟩
  · have hsupply := htransfer.supply _ hdenom
    show (ctx'.store.supply (quote pair.denom) : ℤ) = ctx.store.supply (quote pair.denom) + amount
    rw [hbank.supply, hsupply]
  -- the tokens of the module were compared
  show (token.balances ctx'.store cfg.moduleAddress : ℤ) =
    token.balances ctx.store cfg.moduleAddress + amount
  rw [hbank.balances token, ← hbefore, ← hafter]
  exact hgrown

/-- A release is a conversion of the vault, the other way. -/
theorem Unescrowed.converts (h : Unescrowed chain evm cfg pair amount receiver ctx ctx') :
    Keeps token ctx.store ctx'.store ∧
      (vault cfg token ctx.store).Converts (-amount) (vault cfg token ctx'.store) := by
  obtain ⟨res, ctx₁, ctx₂, before, after, hbefore, hsent, hcall, hret, hafter, hgrown, hburnt⟩ :=
    h.call
  have hdeployed₁ := hsent.deployed hdeployed
  have htransfer := token.callEVMWithData_transfer hdeployed₁ hcall
  have hbefore := balanceOf_eq hdeployed hbefore
  have hafter := balanceOf_eq htransfer.deployed hafter
  obtain ⟨hle, hmoved⟩ := htransfer.moved hret
  rw [hsent.balances token] at hle hmoved
  refine ⟨⟨hburnt.deployed htransfer.deployed,
    nothingNew_of_rest (hburnt.rest.trans (htransfer.rest.trans hsent.rest))⟩, ?_, ?_⟩
  · have hsupply := htransfer.supply _ hdenom
    show (ctx'.store.supply (quote pair.denom) : ℤ) = ctx.store.supply (quote pair.denom) + -amount
    rw [hburnt.supply, hsupply, hsent.supply, add_zero]
  show (token.balances ctx'.store cfg.moduleAddress : ℤ) =
    token.balances ctx.store cfg.moduleAddress + -amount
  rw [hburnt.balances token, hmoved]
  rw [hmoved] at hafter
  have hpos := h.positive
  -- tokens that the module sends to itself do not arrive
  have hother : cfg.moduleAddress ≠ receiver := by
    rintro rfl
    rw [moveTokens_self hle] at hafter
    omega
  rw [moveTokens_dst hother] at hafter
  rw [moveTokens_src hother]
  omega

end Vault

/-- Conversions of tokens and coins, and transfers of tokens. -/
inductive Operation
  | convertERC20 (msg : MsgConvertERC20)
  | convertCoinNativeERC20 (amount : ℤ) (receiver sender : Address)
  | transfer (msg : Message) (txConfig : TxConfig)

namespace Operation

/-- The conversions among the operations. -/
def IsConversion : Operation → Prop
  | convertERC20 _ => True
  | convertCoinNativeERC20 _ _ _ => True
  | transfer _ _ => False

variable (chain evm cfg) (pair : TokenPair)

/-- An operation as the code runs it; failures are not merged. -/
def exec : Operation → ContextM Erc20Store Unit
  | convertERC20 msg => Erc20Keeper.convertERC20 chain evm cfg msg
  | convertCoinNativeERC20 amount receiver sender =>
    Erc20Keeper.convertCoinNativeERC20 chain evm cfg pair amount receiver sender
  | transfer msg txConfig => do
    let res ← applyMessageWithConfig chain evm msg true txConfig
    require (res.failed = false) (errVMExecution.wrapf res.vmError [])

/-- The state after an operation, if it does not fail. -/
def apply (ctx : Context Erc20Store) (op : Operation) : Context Erc20Store :=
  match (op.exec chain evm cfg pair).run ctx with
  | .ok _ ctx' => ctx'
  | .error _ _ => ctx

/-- Conversions of the pair, and transfers by others. -/
def OfPair (st : AppStore) : Operation → Prop
  | convertERC20 msg => ∀ found, lookup msg.contractAddress st = some found → found = pair
  | convertCoinNativeERC20 _ _ _ => True
  | transfer msg _ => msg.sender ≠ cfg.moduleAddress ∧
    msg.recipient = some pair.getERC20Contract ∧
    ∃ receiver amount, msg.data = packTransfer receiver amount

variable {chain evm cfg pair}

theorem OfPair.of_nothingNew {op : Operation} (h : op.OfPair cfg pair st) (hnew : NothingNew st st')
    : op.OfPair cfg pair st' := by
  cases op with
  | convertERC20 msg => exact fun found hfound => h found (hnew _ _ hfound)
  | _ => exact h

end Operation

section Operations

variable {pair : TokenPair} {token : StandardErc20 chain.env evm pair.getERC20Contract}
  {ctx ctx' : Context Erc20Store}

variable {op : Operation} (hdenom : quote pair.denom ≠ chain.env.evmDenom)
  (hdeployed : token.Deployed ctx.store)

section Steps

include hdenom hdeployed

variable (hop : op.OfPair cfg pair ctx.store)
include hop

/-- **A conversion is one of the vault**, as is the deletion of a pair. -/
theorem Operation.converts (hconversion : op.IsConversion)
    (h : (op.exec chain evm cfg pair).run ctx = .ok () ctx') :
    Keeps token ctx.store ctx'.store ∧
      ∃ δ, (vault cfg token ctx.store).Converts δ (vault cfg token ctx'.store) := by
  cases op with
  | convertERC20 msg =>
    change (Erc20Keeper.convertERC20 chain evm cfg msg).run ctx = _ at h
    unfold Erc20Keeper.convertERC20 at h
    rw [run_get_bind] at h
    obtain ⟨found, henabled, h₁⟩ := fromExcept_bind_ok.mp h
    obtain rfl := hop found (mintingEnabled_ok henabled)
    split at h₁
    · dsimp only at h₁
      split at h₁
      · obtain ⟨st, hdelete, rfl⟩ := ContextM.onStore_ok.mp h₁
        have hnew := nothingNew_deleteTokenPair hdelete
        cases hdelete
        exact ⟨⟨⟨hdeployed.account, hdeployed.codeHash⟩, hnew⟩, 0, (add_zero _).symm,
          (add_zero _).symm⟩
      · obtain ⟨hkeeps, hconverts⟩ :=
          (convertERC20IntoCoinsForNativeToken_ok h₁).converts hdenom hdeployed
        exact ⟨hkeeps, _, hconverts⟩
    · cases h₁
    · cases h₁
  | convertCoinNativeERC20 amount receiver sender =>
    rcases convertCoinNativeERC20_ok h with rfl | hunescrowed
    · exact ⟨⟨hdeployed, nothingNew_of_rest rfl⟩, 0, (add_zero _).symm, (add_zero _).symm⟩
    · obtain ⟨hkeeps, hconverts⟩ := hunescrowed.converts hdenom hdeployed
      exact ⟨hkeeps, _, hconverts⟩
  | transfer msg txConfig => cases hconversion

/-- **Every operation is a step of the vault.** -/
theorem Operation.step (h : (op.exec chain evm cfg pair).run ctx = .ok () ctx') :
    Keeps token ctx.store ctx'.store ∧
      (vault cfg token ctx.store).Step (vault cfg token ctx'.store) := by
  cases op with
  | transfer msg txConfig =>
    obtain ⟨hsender, hrecipient, receiver, amount, hdata⟩ := hop
    obtain ⟨res, ctx₁, happly, hrequire⟩ := bind_ok.mp h
    obtain ⟨hok, rfl⟩ := require_ok.mp hrequire
    have htransfer := StandardErc20.transfer_applied hdeployed happly hrecipient hdata hok
    exact ⟨⟨htransfer.deployed, nothingNew_of_rest htransfer.rest⟩,
      .gift (htransfer.supply _ hdenom) (htransfer.le_balances hsender.symm)⟩
  | _ =>
    obtain ⟨hkeeps, δ, hconverts⟩ := Operation.converts hdenom hdeployed hop trivial h
    exact ⟨hkeeps, .convert δ hconverts⟩

theorem Operation.apply_step : Keeps token ctx.store (op.apply chain evm cfg pair ctx).store ∧
      (vault cfg token ctx.store).Step
        (vault cfg token (op.apply chain evm cfg pair ctx).store) := by
  unfold Operation.apply
  split
  · rename_i hexec
    exact Operation.step hdenom hdeployed hop hexec
  · exact ⟨⟨hdeployed, nothingNew_of_rest rfl⟩, .rfl⟩

end Steps

include hdenom hdeployed in
theorem foldl_apply_steps {ops : List Operation}
    (hops : ∀ op ∈ ops, op.OfPair cfg pair ctx.store) :
    Keeps token ctx.store (ops.foldl (Operation.apply chain evm cfg pair) ctx).store ∧
      Relation.ReflTransGen Vault.Step (vault cfg token ctx.store)
        (vault cfg token (ops.foldl (Operation.apply chain evm cfg pair) ctx).store) := by
  induction ops generalizing ctx with
  | nil => exact ⟨⟨hdeployed, nothingNew_of_rest rfl⟩, .refl⟩
  | cons op ops ih =>
    obtain ⟨hop, hrest⟩ := List.forall_mem_cons.mp hops
    obtain ⟨hkeeps, hstep⟩ := Operation.apply_step hdenom hdeployed hop
    obtain ⟨hkeeps', hsteps⟩ := ih hkeeps.deployed
      fun o ho => (hrest o ho).of_nothingNew hkeeps.registry
    exact ⟨⟨hkeeps'.deployed, hkeeps.registry.trans hkeeps'.registry⟩, .head hstep hsteps⟩

/-- **Every coin of a native token is backed.** There are at most as many coins as the module has
tokens, and a conversion changes both alike. -/
theorem supply_le_escrow (chain : Chain) (evm : Evm Erc20Store) (cfg : ConversionConfig)
    (pair : TokenPair) (token : StandardErc20 chain.env evm pair.getERC20Contract)
    (ctx : Context Erc20Store) (hdenom : quote pair.denom ≠ chain.env.evmDenom)
    (hdeployed : token.Deployed ctx.store) (hsupply : ctx.store.supply (quote pair.denom) = 0)
    (ops : List Operation) (hops : ∀ op ∈ ops, op.OfPair cfg pair ctx.store) :
    (vault cfg token (ops.foldl (Operation.apply chain evm cfg pair) ctx).store).Backed ∧
      ∀ (op : Operation) (ctx' : Context Erc20Store), op.OfPair cfg pair ctx.store →
        op.IsConversion →
        (op.exec chain evm cfg pair).run (ops.foldl (Operation.apply chain evm cfg pair) ctx) =
          .ok () ctx' →
        ∃ δ, (vault cfg token
          (ops.foldl (Operation.apply chain evm cfg pair) ctx).store).Converts δ
            (vault cfg token ctx'.store) := by
  obtain ⟨hkeeps, hsteps⟩ := foldl_apply_steps hdenom hdeployed hops
  refine ⟨Vault.backed_of_steps hsteps ?_, ?_⟩
  · show ctx.store.supply (quote pair.denom) ≤ _
    rw [hsupply]
    exact Nat.zero_le _
  · intro op ctx' hop hconversion hexec
    exact (Operation.converts hdenom hkeeps.deployed (hop.of_nothingNew hkeeps.registry)
      hconversion hexec).2

end Operations

/-! ## A pair of the small chain -/

namespace Devnet

/-- The pair of a token. -/
def nativePair : TokenPair where
  erc20Address := address
  denom := ascii "erc20/tac".toList
  enabled := true
  contractOwner := .external

def conversionConfig : ConversionConfig where
  toConfig := config
  moduleAddress := 0xE2
  accAddressFromBech32 := fun _ => 0xA1
  isSendEnabledCoin := fun _ _ => true

/-- The pair is registered, and the account `0xA1` has ten tokens. -/
def tokenStore : AppStore :=
  { Devnet.emptyStore
      { emptyErc20 with
        enableErc20 := true
        tokenPairs := fun id => if id = nativePair.getID config then some nativePair else none
        denomMap := fun denom =>
          if denom = nativePair.denom then some (nativePair.getID config) else none
        erc20Map := fun contract =>
          if contract = nativePair.getERC20Contract then some (nativePair.getID config)
          else none } with
    sequence := fun a =>
      if a = 0xA1 ∨ a = 0xE2 ∨ a = nativePair.getERC20Contract then some 0 else none
    codeHash := fun a =>
      if a = nativePair.getERC20Contract then some (Devnet.keccak256 [7]) else none
    code := fun h => if h = Devnet.keccak256 [7] then some [7] else none
    storage := fun a k =>
      if a = nativePair.getERC20Contract ∧ k = Devnet.slotOf 0xA1 then some (hashBytes 10)
      else none }

def tokenChain : Chain := Devnet.chain18

def nativeEvm : Evm Erc20Store := Devnet.tokenEvm tokenChain.env nativePair.getERC20Contract

def nativeToken : StandardErc20 tokenChain.env nativeEvm nativePair.getERC20Contract :=
  Devnet.standardToken tokenChain.env nativePair.getERC20Contract
    (Devnet.keccak256 [7]) (by decide)

/-- Seven tokens become coins, three tokens again; two are sent. -/
def operations : List Operation :=
  [.convertERC20
      { contractAddress := address
        amount := 7
        receiver := ""
        sender := ascii "0x00000000000000000000000000000000000000a1".toList },
    .convertCoinNativeERC20 3 0xA1 0xA1,
    .transfer
      { sender := 0xA1
        recipient := some nativePair.getERC20Contract
        nonce := 0
        value := 0
        gas := 100000
        gasPrice := 0
        gasFeeCap := 0
        gasTipCap := 0
        data := packTransfer 0xE2 2
        accessList := [] } Devnet.txConfig]

theorem operations_ofPair :
    ∀ op ∈ operations, op.OfPair conversionConfig nativePair tokenStore := by
  have hlookup : lookup address tokenStore = some nativePair := by decide +kernel
  refine List.forall_mem_cons.mpr ⟨fun found hfound => ?_, List.forall_mem_cons.mpr ⟨trivial,
    List.forall_mem_singleton.mpr ⟨by decide, rfl, 0xE2, 2, rfl⟩⟩⟩
  rw [hlookup] at hfound
  exact (Option.some.inj hfound).symm

end Devnet

open Erc20Keeper.Devnet

/-- Four coins are left, and six tokens behind them. -/
theorem supply_le_escrow_devnet :
    vault conversionConfig nativeToken
        (operations.foldl (Operation.apply tokenChain nativeEvm
          conversionConfig nativePair)
          (Devnet.ctx tokenStore)).store = ⟨4, 6⟩ ∧
      (vault conversionConfig nativeToken
        (operations.foldl (Operation.apply tokenChain nativeEvm
          conversionConfig nativePair)
          (Devnet.ctx tokenStore)).store).Backed := by
  refine ⟨by decide +kernel, ?_⟩
  exact (supply_le_escrow tokenChain nativeEvm conversionConfig nativePair
    nativeToken (Devnet.ctx tokenStore) (by decide)
    ⟨by decide +kernel, by decide +kernel⟩ rfl operations operations_ofPair).1

end Erc20Keeper

end TacEvm
