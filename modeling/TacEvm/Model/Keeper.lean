import TacEvm.Library.FallibleState
import TacEvm.Model.Basic

/-!
# The stores under the EVM

`Store` is the part of the application state the EVM reaches, with whatever else a Cosmos module
keeps under `rest`. `Keeper` writes stop at the first error and leave what they wrote before it. The
bank functions are the SDK's; the others are those of `x/vm/keeper/statedb.go` and
`x/vm/wrappers/bank.go`.
-/

namespace TacEvm

structure Coin where
  denom : Denom
  amount : ℤ
  deriving DecidableEq, Repr

/-- `sdk.Coins`.  Sums of coins are kept as concatenations. -/
abbrev Coins := List Coin

def Coins.amountOf (coins : Coins) (denom : Denom) : ℤ :=
  ((coins.filter fun coin => coin.denom = denom).map Coin.amount).sum

/-- `Coins.String`. -/
def Coins.text (coins : Coins) : String :=
  String.intercalate "," (coins.map fun coin => toString coin.amount ++ coin.denom)

inductive AuthorizationType
  | delegate
  | undelegate
  | redelegate
  | cancelUnbondingDelegation
  deriving DecidableEq, Repr

/-- Without `maxTokens` it has no limit. -/
structure StakeAuthorization where
  maxTokens : Option Coin
  allowList : List String
  denyList : List String
  authorizationType : AuthorizationType
  deriving DecidableEq, Repr

structure Allocation where
  sourcePort : String
  sourceChannel : String
  spendLimit : Coins
  allowList : List String
  allowedPacketData : List String
  deriving DecidableEq, Repr

/-- The authorizations a grant can hold. -/
inductive Authorization
  | stake (a : StakeAuthorization)
  | transfer (allocations : List Allocation)
  | send (spendLimit : Coins) (allowList : List String)
  | generic (msg : String)
  deriving DecidableEq, Repr

structure Grant where
  authorization : Authorization
  expiration : Option ℤ
  deriving DecidableEq, Repr

/-- The application state; `Ω` is what is not modelled. -/
structure Store (Ω : Type) where
  /-- Auth accounts, by their sequence. -/
  sequence : Address → Option UInt64
  codeHash : Address → Option Hash
  code : Hash → Option Bytes
  storage : Address → Hash → Option Bytes
  balance : Address → Denom → ℕ
  supply : Denom → ℕ
  /-- Grants by granter, grantee and message type. -/
  grants : Address → Address → String → Option Grant
  rest : Ω

/-- Its type and its attributes. -/
structure Event where
  kind : String
  attributes : List (String × String)
  deriving DecidableEq, Repr

/-- An `sdk.Context`: its multi store and its events. -/
structure Context (Ω : Type) where
  store : Store Ω
  events : List Event

/-- Code that writes to a store and may stop with an error. -/
abbrev KeeperM (Ω : Type) := EStateM Err (Store Ω)

structure Account where
  nonce : UInt64
  balance : ℤ
  codeHash : Hash
  deriving DecidableEq, Repr

/-- `NewEmptyAccount`, and what `newObject` makes of `Account{}`.
x/vm/statedb/state_object.go:26-31, 72-79 -/
def newEmptyAccount (env : Env) : Account :=
  { nonce := 0, balance := 0, codeHash := env.emptyCodeHash }

namespace Store

variable {Ω : Type} (env : Env) (st : Store Ω)

variable (addr : Address)

/-- statedb.go:55-63 -/
def getCodeHash : Hash :=
  (st.codeHash addr).getD env.emptyCodeHash

/-- statedb.go:85-88 -/
def getCode (h : Hash) : Option Bytes := st.code h

/-- statedb.go:36-45 -/
def getState (key : Hash) : Hash :=
  match st.storage addr key with
  | none => 0
  | some value => if value.length = 0 then 0 else bytesToHash value

/-- `BankWrapper.GetBalance` of the EVM coin, in 18 decimals.
bank.go:76-83 -/
def getBalance : ℤ :=
  env.convertAmountTo18Decimals (st.balance addr env.evmDenom)

/-- Nil without an auth account, whatever else the address has.
statedb.go:25-33, x/vm/keeper/keeper.go:217-230, 258-265 -/
def getAccount : Option Account :=
  (st.sequence addr).map fun seq =>
    { nonce := seq, balance := st.getBalance env addr, codeHash := st.getCodeHash env addr }

/-- keeper.go:246-255 -/
def getNonce : UInt64 := (st.sequence addr).getD 0

/-- x/vm/keeper/utils.go:14-17 -/
def isContract : Bool := (st.codeHash addr).isSome

def setSequence (seq : Option UInt64) : Store Ω :=
  { st with sequence := Function.update st.sequence addr seq }

/-- `Keeper.SetCodeHash` and, with `none`, `Keeper.DeleteCodeHash`. -/
def setCodeHash (h : Option Hash) : Store Ω :=
  { st with codeHash := Function.update st.codeHash addr h }

/-- `Keeper.SetCode` and, with `none`, `Keeper.DeleteCode`. -/
def setCode (h : Hash) (code : Option Bytes) : Store Ω :=
  { st with code := Function.update st.code h code }

def setState (key : Hash) (value : Bytes) : Store Ω :=
  { st with
    storage := Function.update st.storage addr
      (Function.update (st.storage addr) key (some value)) }

/-- `Keeper.DeleteState` on every key `Keeper.ForEachStorage` visits. -/
def clearStorage : Store Ω :=
  { st with storage := Function.update st.storage addr fun _ => none }

def setBankBalance (denom : Denom) (n : ℕ) : Store Ω :=
  { st with
    balance := Function.update st.balance addr (Function.update (st.balance addr) denom n) }

def setSupply (denom : Denom) (n : ℕ) : Store Ω :=
  { st with supply := Function.update st.supply denom n }

end Store

namespace Bank

variable {Ω : Type} (env : Env)

/-- `Coins.Validate` on a coin: amounts have to be positive. -/
def validateAmount (amt : ℤ) : KeeperM Ω Unit :=
  if 0 < amt then pure () else throw (.errorf "%s: invalid coins" [.num amt])

def addCoins (addr : Address) (denom : Denom) (amt : ℕ) : KeeperM Ω Unit :=
  modify fun st => st.setBankBalance addr denom (st.balance addr denom + amt)

/-- What is locked cannot be spent. -/
def subUnlockedCoins (addr : Address) (denom : Denom) (amt : ℕ) : KeeperM Ω Unit := do
  let st ← get
  if st.balance addr denom < amt + env.lockedCoins addr denom then
    throw (.errorf "spendable balance is smaller than %s: insufficient funds" [.num amt])
  else set (st.setBankBalance addr denom (st.balance addr denom - amt))

def sendCoins (src dst : Address) (denom : Denom) (amt : ℤ) : KeeperM Ω Unit := do
  validateAmount amt
  subUnlockedCoins env src denom amt.toNat
  addCoins dst denom amt.toNat

variable (module : Address)

/-- `MintCoins` into the account of a module. -/
def mintCoins (denom : Denom) (amt : ℤ) : KeeperM Ω Unit := do
  validateAmount amt
  addCoins module denom amt.toNat
  modify fun st => st.setSupply denom (st.supply denom + amt.toNat)

/-- A supply below the amount is a panic of `Coin.Sub`. -/
def burnCoins (denom : Denom) (amt : ℤ) : KeeperM Ω Unit := do
  validateAmount amt
  subUnlockedCoins env module denom amt.toNat
  let st ← get
  if st.supply denom < amt.toNat then throw (.panic "negative coin amount")
  else set (st.setSupply denom (st.supply denom - amt.toNat))

def sendCoinsFromModuleToAccount (module dst : Address) (denom : Denom) (amt : ℤ) :
    KeeperM Ω Unit :=
  if env.blockedAddr dst then
    throw (.errorf "%s is not allowed to receive funds: unauthorized" [.addr dst])
  else sendCoins env module dst denom amt

def sendCoinsFromAccountToModule (src module : Address) (denom : Denom) (amt : ℤ) :
    KeeperM Ω Unit :=
  sendCoins env src module denom amt

/-- `BankWrapper.MintAmountToAccount`; the amount is in 18 decimals.
bank.go:38-52 -/
def mintAmountToAccount (recipient : Address) (amt : ℤ) : KeeperM Ω Unit := do
  let converted := env.convertAmountFrom18Decimals amt
  mintCoins env.evmModule env.evmDenom converted
  sendCoinsFromModuleToAccount env env.evmModule recipient env.evmDenom converted

/-- `BankWrapper.BurnAmountFromAccount`; the amount is in 18 decimals.
bank.go:56-69 -/
def burnAmountFromAccount (account : Address) (amt : ℤ) : KeeperM Ω Unit := do
  let converted := env.convertAmountFrom18Decimals amt
  sendCoinsFromAccountToModule env account env.evmModule env.evmDenom converted
  burnCoins env env.evmModule env.evmDenom converted

/-! What the bank emits, by the functions that emit it.  They emit nothing if they fail. -/

/-- `NewCoinSpentEvent` and its like. -/
def coinEvent (kind key : String) (addr : Address) (coin : Coin) : Event where
  kind := kind
  attributes := [(key, env.accAddressString addr), ("amount", Coins.text [coin])]

def sendCoinsEvents (src dst : Address) (coin : Coin) : List Event :=
  [coinEvent env "coin_spent" "spender" src coin,
    coinEvent env "coin_received" "receiver" dst coin,
    { kind := "transfer"
      attributes := [("recipient", env.accAddressString dst),
        ("sender", env.accAddressString src), ("amount", Coins.text [coin])] },
    { kind := "message", attributes := [("sender", env.accAddressString src)] }]

def mintCoinsEvents (coin : Coin) : List Event :=
  [coinEvent env "coin_received" "receiver" module coin,
    coinEvent env "coinbase" "minter" module coin]

def burnCoinsEvents (coin : Coin) : List Event :=
  [coinEvent env "coin_spent" "spender" module coin,
    coinEvent env "burn" "burner" module coin]

/-- The events of a function of the bank and what follows. -/
def eventsThen (x : KeeperM Ω Unit) (events : List Event) (rest : Store Ω → List Event)
    (st : Store Ω) : List Event :=
  match x.run st with
  | .ok _ st => events ++ rest st
  | .error _ _ => []

def mintAmountToAccountEvents (recipient : Address) (amt : ℤ) : Store Ω → List Event :=
  let coin := { denom := env.evmDenom, amount := env.convertAmountFrom18Decimals amt }
  eventsThen (mintCoins env.evmModule coin.denom coin.amount)
      (mintCoinsEvents env env.evmModule coin) <|
    eventsThen (sendCoinsFromModuleToAccount env env.evmModule recipient coin.denom coin.amount)
      (sendCoinsEvents env env.evmModule recipient coin) fun _ => []

def burnAmountFromAccountEvents (account : Address) (amt : ℤ) : Store Ω → List Event :=
  let coin := { denom := env.evmDenom, amount := env.convertAmountFrom18Decimals amt }
  eventsThen (sendCoinsFromAccountToModule env account env.evmModule coin.denom coin.amount)
      (sendCoinsEvents env account env.evmModule coin) <|
    eventsThen (burnCoins env env.evmModule coin.denom coin.amount)
      (burnCoinsEvents env env.evmModule coin) fun _ => []

end Bank

namespace Keeper

variable {Ω : Type} (env : Env)

/-- Mint or burn the difference.
statedb.go:110-131 -/
def setBalance (addr : Address) (amount : ℤ) : KeeperM Ω Unit := do
  let st ← get
  let delta := amount - st.getBalance env addr
  if 0 < delta then Bank.mintAmountToAccount env addr delta
  else if delta < 0 then Bank.burnAmountFromAccount env addr (-delta)
  else pure ()

/-- What `setBalance` emits through the bank. -/
def setBalanceEvents (addr : Address) (amount : ℤ) (st : Store Ω) : List Event :=
  let delta := amount - st.getBalance env addr
  if 0 < delta then Bank.mintAmountToAccountEvents env addr delta st
  else if delta < 0 then Bank.burnAmountFromAccountEvents env addr (-delta) st
  else []

/-- statedb.go:134-164 -/
def setAccount (addr : Address) (account : Account) : KeeperM Ω Unit := do
  modify fun st =>
    st.setCodeHash addr
      (if account.codeHash = env.emptyCodeHash then none else some account.codeHash)
  modify fun st => st.setSequence addr (some account.nonce)
  setBalance env addr account.balance

/-- statedb.go:244-280 -/
def deleteAccount (addr : Address) : KeeperM Ω Unit := do
  let st ← get
  if st.sequence addr = none then pure ()
  -- only Ethereum contracts can be self-destructed
  else if !st.isContract addr then
    throw (.new "only smart contracts can be self-destructed")
  else do
    setBalance env addr 0
    modify fun st => st.clearStorage addr
    modify fun st => st.setCodeHash addr none
    modify fun st => st.setSequence addr none

def deleteAccountEvents (addr : Address) (st : Store Ω) : List Event :=
  if st.sequence addr = none ∨ !st.isContract addr then [] else setBalanceEvents env addr 0 st

end Keeper

end TacEvm
