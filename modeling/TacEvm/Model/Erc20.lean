import TacEvm.Model.Authz

/-!
# The ERC20 precompiles

A token pair whose coin is native has a precompile at the address of the pair. An allowance is a
send authorization of the caller. WERC20, the precompile of the EVM coin, also has `deposit` and
`withdraw`.

SOURCE: precompiles/erc20 (erc20.go, tx.go, approve.go, errors.go, query.go, types.go),
precompiles/werc20 (tx.go, werc20.go)
-/

namespace TacEvm

open FallibleState

variable {Ω : Type} (env : Env) (cosmos : Cosmos Ω)

/-- `Send` of the message server of the bank. -/
def Bank.send (src dst : Address) (coin : Coin) : KeeperM Ω Unit := do
  Bank.validateAmount coin.amount
  KeeperM.read (cosmos.isSendEnabled coin.denom)
  KeeperM.ensure (env.blockedAddr dst = false)
    (.errorf "%s is not allowed to receive funds: unauthorized" [.addr dst])
  Bank.sendCoins env src dst coin.denom coin.amount

/-- The grant of `src` that a `MsgSend` of the grantee uses up. -/
def Authz.sendGrant (grantee src : Address) (st : Store Ω) : Except Err Grant :=
  match st.grants src grantee sendMsgURL with
  | none => .error (.errorf ("failed to get grant with given granter: %s, grantee: %s & " ++
      "msgType: %s: authorization not found") [.addr src, .addr grantee, .str sendMsgURL])
  | some g =>
    if g.expiration.any (· < env.blockTime) then .error (.new "authorization expired") else .ok g

/-- What a grant that accepts a `MsgSend` becomes. -/
def Authz.updateSendGrant (grantee src : Address) (g : Grant) (resp : AcceptResponse) :
    KeeperM Ω Unit :=
  if resp.delete then Authz.deleteGrant grantee src sendMsgURL
  else match resp.updated with
    | some updated =>
      modify fun st =>
        st.setGrant src grantee updated.msgTypeURL (some { g with authorization := updated })
    | none => pure ()

/-- `DispatchActions` of the authz keeper on a `MsgSend`. -/
def Authz.dispatchSend (grantee src dst : Address) (coin : Coin) : KeeperM Ω Unit := do
  let g ← KeeperM.read (Authz.sendGrant env grantee src)
  match g.authorization with
  | .send spendLimit allowList => do
    let resp ← KeeperM.check (cosmos.acceptSend spendLimit allowList dst coin)
    Authz.updateSendGrant grantee src g resp
    KeeperM.ensure (resp.accept = true) (.new "unauthorized")
    Bank.send env cosmos src dst coin
  | _ => throw errUnknownAuthorizationType

namespace Erc20

/-- The methods with their arguments. -/
inductive Call
  | transfer (dst : Address) (amount : ℤ)
  | transferFrom (src dst : Address) (amount : ℤ)
  | approve (spender : Address) (amount : ℤ)
  | increaseAllowance (spender : Address) (addedValue : ℤ)
  | decreaseAllowance (spender : Address) (subtractedValue : ℤ)
  /-- A query. -/
  | query (name : String)
  /-- A method `HandleMethod` does not know. -/
  | unknown (name : String)

/-- The name of the method. -/
def Call.name : Call → String
  | transfer .. => "transfer"
  | transferFrom .. => "transferFrom"
  | approve .. => "approve"
  | increaseAllowance .. => "increaseAllowance"
  | decreaseAllowance .. => "decreaseAllowance"
  | query name => name
  | unknown name => name

/-! ### Errors -/

/-- The error quotes a text. -/
def mentions (text : String) : Err → Bool
  | .errorf format _ => text.toList <:+: format.toList
  | .wrapped cause format _ => text.toList <:+: format.toList || mentions text cause
  | .panic _ => false

/-- `ConvertErrToERC20Error`, as far as transfers and allowances meet it.
errors.go:73-97 -/
def convertErrToERC20Error (e : Err) : Err :=
  if mentions "spendable balance" e then .new "ERC20: transfer amount exceeds balance"
  else if mentions "requested amount is more than spend limit" e then
    .new "ERC20: insufficient allowance"
  else if mentions "authorization not found" e then .new "ERC20: insufficient allowance"
  else if mentions "subtracted value cannot be greater than existing allowance" e then
    .new "ERC20: decreased allowance below zero"
  else if mentions "integer overflow when increasing allowance" e then .new "execution reverted"
  else e

def errSpenderIsOwner : Err := .new "spender cannot be the owner"

def errNoAllowanceForToken (denom : Denom) : Err :=
  .errorf "allowance for token %s does not exist" [.str denom]

/-- `ErrSubtractMoreThanAllowance`, as the methods report it. -/
def errSubtractMoreThanAllowance (denom : Denom) (subtractedValue allowance : ℤ) : Err :=
  convertErrToERC20Error (.errorf
    "subtracted value cannot be greater than existing allowance for denom %s: %s > %s"
    [.str denom, .num subtractedValue, .num allowance])

/-! ### Send authorizations -/

/-- A `SendAuthorization`, with what is left of its time. -/
structure SendAuthorization where
  spendLimit : Coins
  allowList : List String
  expiration : Option ℤ

/-- The type assertion to a `SendAuthorization`. -/
def asSendAuthorization (err : Err) : Authorization × Option ℤ → Except Err SendAuthorization
  | (.send spendLimit allowList, expiration) => .ok ⟨spendLimit, allowList, expiration⟩
  | _ => .error err

/-- query.go:209-229 -/
def getAuthzExpirationAndAllowance (grantee granter : Address) (denom : Denom) (st : Store Ω) :
    Except Err (SendAuthorization × ℤ) := do
  let a ← Authorization.checkAuthzExists env grantee granter sendMsgURL st
  let sendAuthz ← asSendAuthorization
    (.new "expected authorization to be a types.SendAuthorization") a
  return (sendAuthz, sendAuthz.spendLimit.amountOf denom)

/-- The owner's is the largest amount; without an authorization zero. query.go:179-205 -/
def allowance (pair : TokenPair) (owner spender : Address) (st : Store Ω) : ℤ :=
  if owner = spender then Authorization.maxUint256
  else
    match getAuthzExpirationAndAllowance env spender owner pair.denom st with
    | .ok (_, allowance) => allowance
    | .error _ => 0

/-- `SaveGrant` of a `SendAuthorization` that is valid. -/
def saveSendAuthorization (grantee granter : Address) (a : SendAuthorization) :
    KeeperM Ω Unit := do
  KeeperM.ensure (a.spendLimit ≠ []) (.new "spend limit cannot be nil: invalid coins")
  KeeperM.ensure (a.spendLimit.all fun coin => 0 < coin.amount)
    (.new "spend limit must be positive: invalid coins")
  KeeperM.ensure a.allowList.Nodup (.new "duplicate entry")
  Authz.saveGrant env grantee granter (.send a.spendLimit a.allowList) a.expiration

/-- approve.go:223-238 -/
def createAuthorization (denom : Denom) (grantee granter : Address) (amount : ℤ) :
    KeeperM Ω Unit := do
  KeeperM.ensure (|amount| < 2 ^ 256)
    (.errorf "amount %s causes integer overflow" [.num amount])
  saveSendAuthorization env grantee granter
    { spendLimit := [{ denom := denom, amount := amount }]
      allowList := []
      expiration := some (env.blockTime + defaultExpirationDuration) }

/-- `Coins.Add` of a new denom keeps the denoms in order. types.go:138-149 -/
def updateOrAddCoin (coins : Coins) (coin : Coin) : Coins :=
  if coins.any fun c => c.denom = coin.denom then
    coins.map fun c => if c.denom = coin.denom then coin else c
  else coins.orderedInsert (fun c d => c.denom ≤ d.denom) coin

/-- approve.go:240-247 -/
def updateAuthorization (denom : Denom) (grantee granter : Address) (amount : ℤ)
    (a : SendAuthorization) : KeeperM Ω Unit :=
  saveSendAuthorization env grantee granter
    { a with spendLimit := updateOrAddCoin a.spendLimit { denom := denom, amount := amount } }

/-- What is subtracted was found in the limit. approve.go:252-277 -/
def removeSpendLimitOrDeleteAuthorization (denom : Denom) (grantee granter : Address)
    (a : SendAuthorization) : KeeperM Ω Unit := do
  KeeperM.ensure (a.spendLimit.any fun coin => coin.denom = denom) (errNoAllowanceForToken denom)
  let newSpendLimit := a.spendLimit.filter fun coin => coin.denom ≠ denom
  if newSpendLimit.all fun coin => coin.amount = 0 then
    Authz.deleteGrant grantee granter sendMsgURL
  else
    Authz.saveGrant env grantee granter (.send newSpendLimit a.allowList) a.expiration

/-! ### Transfers -/

/-- The coin is sent by its owner, or under a grant of the owner.
precompiles/erc20/tx.go:94-111 -/
def sendCoin (src dst : Address) (coin : Coin) (c : Frame) : KeeperM Ω Unit :=
  if c.caller = src then mapError convertErrToERC20Error (Bank.send env cosmos src dst coin)
  else do
    mapError (fun e => convertErrToERC20Error (e.wrapf "authorization not found" []))
      (KeeperM.read fun st =>
        (getAuthzExpirationAndAllowance env c.caller src coin.denom st).map fun _ => ())
    mapError convertErrToERC20Error (Authz.dispatchSend env cosmos c.caller src dst coin)

/-- `transfer`, which `Transfer` and `TransferFrom` share.
precompiles/erc20/tx.go:72-144 -/
def transferBetween (pair : TokenPair) (src dst : Address) (amount : ℤ) (c : Frame) :
    KeeperM Ω BalanceChanges := do
  Bank.validateAmount amount
  sendCoin env cosmos src dst { denom := pair.denom, amount := amount } c
  if pair.denom = env.evmDenom then
    let convertedAmount := env.convertAmountTo18Decimals amount
    return [
      { account := src, amount := convertedAmount, op := .sub },
      { account := dst, amount := convertedAmount, op := .add }]
  else return []

/-- precompiles/erc20/tx.go:36-50 -/
def transfer (pair : TokenPair) (dst : Address) (amount : ℤ) (c : Frame) :
    KeeperM Ω BalanceChanges :=
  transferBetween env cosmos pair c.caller dst amount c

/-- precompiles/erc20/tx.go:54-67 -/
def transferFrom (pair : TokenPair) (src dst : Address) (amount : ℤ) (c : Frame) :
    KeeperM Ω BalanceChanges :=
  transferBetween env cosmos pair src dst amount c

/-! ### Allowances -/

/-- `Approve`; without a grant, an amount of zero changes nothing.
approve.go:35-91 -/
def approve (pair : TokenPair) (spender : Address) (amount : ℤ) (c : Frame) :
    KeeperM Ω BalanceChanges := do
  KeeperM.ensure (spender ≠ c.caller) errSpenderIsOwner
  let st ← get
  match st.getAuthorization env spender c.caller sendMsgURL with
  | none =>
    if amount < 0 then throw (.new "cannot approve negative values")
    else if 0 < amount then createAuthorization env pair.denom spender c.caller amount
    else pure ()
  | some a => do
    let sendAuthz ← KeeperM.check (asSendAuthorization errUnknownAuthorizationType a)
    if amount ≤ 0 then
      removeSpendLimitOrDeleteAuthorization env pair.denom spender c.caller sendAuthz
    else updateAuthorization env pair.denom spender c.caller amount sendAuthz
  return []

/-- approve.go:102-150, 279-303 -/
def increaseAllowance (pair : TokenPair) (spender : Address) (addedValue : ℤ) (c : Frame) :
    KeeperM Ω BalanceChanges := do
  KeeperM.ensure (spender ≠ c.caller) errSpenderIsOwner
  KeeperM.ensure (0 < addedValue) (.new "cannot increase allowance with non-positive values")
  let st ← get
  match st.getAuthorization env spender c.caller sendMsgURL with
  | none => createAuthorization env pair.denom spender c.caller addedValue
  | some a => do
    let sendAuthz ← KeeperM.check (asSendAuthorization errUnknownAuthorizationType a)
    let amount := sendAuthz.spendLimit.amountOf pair.denom + addedValue
    -- `SafeAdd`
    KeeperM.ensure (amount < 2 ^ 256)
      (convertErrToERC20Error (.new "integer overflow when increasing allowance"))
    updateAuthorization env pair.denom spender c.caller amount sendAuthz
  return []

/-- approve.go:164-221, 305-333 -/
def decreaseAllowance (pair : TokenPair) (spender : Address) (subtractedValue : ℤ) (c : Frame) :
    KeeperM Ω BalanceChanges := do
  KeeperM.ensure (spender ≠ c.caller) errSpenderIsOwner
  KeeperM.ensure (0 < subtractedValue) (.new "cannot decrease allowance with non-positive values")
  let (sendAuthz, allowance) ← mapError
    (fun e => e.wrapf "allowance for token %s does not exist" [.str pair.denom])
    (KeeperM.read (getAuthzExpirationAndAllowance env spender c.caller pair.denom))
  if subtractedValue < allowance then
    updateAuthorization env pair.denom spender c.caller (allowance - subtractedValue) sendAuthz
  else if subtractedValue = allowance then
    removeSpendLimitOrDeleteAuthorization env pair.denom spender c.caller sendAuthz
  else if allowance = 0 then throw (errNoAllowanceForToken pair.denom)
  else throw (errSubtractMoreThanAllowance pair.denom subtractedValue allowance)
  return []

/-! ### The precompile -/

/-- erc20.go:166-177 -/
def isTransaction (m : Method) : Bool :=
  m.name ∈ ["transfer", "transferFrom", "approve", "increaseAllowance", "decreaseAllowance"]

variable (abi : Abi Ω Call.name)

/-- erc20.go:180-217 -/
def handleMethod (pair : TokenPair) (call : Call) (c : Frame) :
    KeeperM Ω BalanceChanges :=
  match call with
  | .transfer dst amount => transfer env cosmos pair dst amount c
  | .transferFrom src dst amount => transferFrom env cosmos pair src dst amount c
  | .approve spender amount => approve env pair spender amount c
  | .increaseAllowance spender addedValue => increaseAllowance env pair spender addedValue c
  | .decreaseAllowance spender subtractedValue =>
    decreaseAllowance env pair spender subtractedValue c
  | .query name => do
    KeeperM.read (abi.query name c)
    return []
  | .unknown name => throw (.errorf "unknown method: %s" [.str name])

/-- The ERC20 precompile of a token pair, which takes no value.
erc20.go:131-163 -/
def precompile (pair : TokenPair) : Precompile Ω where
  address := pair.erc20Address
  guard := fun c =>
    if 0 < c.value then some (.errorf "cannot receive funds, received: %s" [.num c.value])
    else none
  methodById := abi.methodById
  receive := none
  fallback := none
  isTransaction := isTransaction
  unpack := fun m bz =>
    (abi.unpack m bz).map fun call =>
      Handler.of (abi.emitted call) (handleMethod env cosmos abi pair call)

end Erc20

namespace Werc20

/-- `SendCoins` of `NewCoins`: nothing is sent of no amount. -/
def sendBack (address : Address) (c : Frame) : KeeperM Ω Unit :=
  if c.value = 0 then pure ()
  else Bank.sendCoins env address c.caller env.evmDenom c.value

/-- The value, in 18 decimals, is sent back in bank units. precompiles/werc20/tx.go:28-64 -/
def deposit (address : Address) (c : Frame) : KeeperM Ω BalanceChanges := do
  sendBack env address c
  return [
    { account := c.caller, amount := c.value, op := .add },
    { account := address, amount := c.value, op := .sub }]

/-- precompiles/werc20/tx.go:69-87 -/
def withdraw (amount : ℤ) (c : Frame) : KeeperM Ω BalanceChanges := do
  let balance := (← get).balance c.caller env.evmDenom
  KeeperM.ensure (amount ≤ balance)
    (.errorf "account balance %v is lower than withdraw balance %v" [.num balance, .num amount])
  return []

/-- The methods with their arguments, or a deposit. -/
inductive Call
  | deposit
  | withdraw (amount : ℤ)

/-- werc20.go:150-159 -/
def isTransaction (erc20 : Precompile Ω) (m : Method) : Bool :=
  m.name ∈ ["deposit", "withdraw"] || m.type ≠ .function || erc20.isTransaction m

/-- `Run`: fallback, receive and `deposit` are one method.
werc20.go:109-146 -/
def unpack (erc20 : Precompile Ω) (amountOf : Bytes → Except Err ℤ)
    (emitted : Call → Frame → Store Ω → Emitted) (m : Method) (bz : Bytes) :
    Except Err (Handler Ω) :=
  if m.type = .fallback ∨ m.type = .receive ∨ m.name = "deposit" then
    .ok (Handler.of (emitted .deposit) (deposit env erc20.address))
  else if m.name = "withdraw" then
    (amountOf bz).map fun amount =>
      Handler.of (emitted (.withdraw amount)) (withdraw env amount)
  else erc20.unpack m bz

/-- The precompile of WERC20: another ABI, no check of the value. -/
def precompile (erc20 : Precompile Ω) (methodById : Bytes → Except Err Method)
    (amountOf : Bytes → Except Err ℤ) (emitted : Call → Frame → Store Ω → Emitted) :
    Precompile Ω where
  address := erc20.address
  guard := fun _ => none
  methodById := methodById
  receive := some { name := "", type := .receive }
  fallback := some { name := "", type := .fallback }
  isTransaction := isTransaction erc20
  unpack := unpack env erc20 amountOf emitted

end Werc20

end TacEvm
