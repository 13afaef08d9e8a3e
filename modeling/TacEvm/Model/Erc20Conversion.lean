import TacEvm.Model.AnteHandler
import TacEvm.Model.Erc20Keeper
import TacEvm.Model.GasEstimate

/-!
# Converting tokens into coins and back

`ConvertERC20` escrows the tokens of a contract and mints as many coins; `ConvertCoinNativeERC20`
goes the other way. Both call the contract through `CallEVM` and compare balances before and after.
What a contract does is open (`Evm`).

SOURCE: x/erc20/keeper (msg_server.go:26-260, mint.go:18-67, evm.go:112-154), x/vm/keeper
(call_evm.go, state_transition.go:214-224)
-/

namespace TacEvm

open FallibleState

/-! ## Code on a context -/

/-- Code of a message server, on the context of its message. -/
abbrev ContextM (Ω : Type) := EStateM Err (Context Ω)

section

variable {Ω : Type}

/-- Code that only reaches the stores. -/
def ContextM.onStore {α : Type} (x : KeeperM Ω α) : ContextM Ω α :=
  onPart Context.store (fun st ctx => { ctx with store := st }) x

def ContextM.emitEvent (event : Event) : ContextM Ω Unit :=
  modify fun ctx => { ctx with events := ctx.events ++ [event] }

theorem ContextM.onStore_ok {α : Type} {x : KeeperM Ω α} {ctx ctx' : Context Ω} {a : α} :
    (ContextM.onStore x).run ctx = .ok a ctx' ↔
      ∃ st, x.run ctx.store = .ok a st ∧ ctx' = { ctx with store := st } := onPart_ok

end

/-! ## The ABI of a token -/

namespace TokenAbi

/-- The selectors of `transfer(address,uint256)` and `balanceOf(address)`. -/
def transferSelector : Bytes := [0xa9, 0x05, 0x9c, 0xbb]
def balanceOfSelector : Bytes := [0x70, 0xa0, 0x82, 0x31]

def packAddress (a : Address) : Bytes := beBytes 32 a.toNat

/-- A number is packed modulo `2 ^ 256`. -/
def packUint256 (n : ℤ) : Bytes := beBytes 32 (n % 2 ^ 256).toNat

/-- `abi.Pack("transfer", receiver, amount)`. -/
def packTransfer (receiver : Address) (amount : ℤ) : Bytes :=
  transferSelector ++ (packAddress receiver ++ packUint256 amount)

/-- `abi.Pack("balanceOf", account)`. -/
def packBalanceOf (account : Address) : Bytes := balanceOfSelector ++ packAddress account

/-- The word of a result with one output. -/
def unpackWord (ret : Bytes) : Except Err Bytes :=
  if ret.length % 32 ≠ 0 then
    .error (.errorf "abi: improperly formatted output: %s - Bytes: [%+v]" [.str (quote ret)])
  else if ret = [] then
    .error (.new "abi: attempting to unmarshall an empty string while arguments are expected")
  else .ok (ret.take 32)

/-- `UnpackIntoInterface` of a result of `transfer`. -/
def unpackBool (ret : Bytes) : Except Err Bool := do
  let word ← unpackWord ret
  if beNat word = 0 then return false
  else if beNat word = 1 then return true
  else .error (.new "abi: improperly encoded boolean value")

/-- `Unpack` of a result of `balanceOf`. -/
def unpackUint256 (ret : Bytes) : Except Err ℕ := (unpackWord ret).map beNat

end TokenAbi

/-! ## Calls of the EVM -/

def errVMExecution : Err := .new "evm transaction execution failed"

def defaultGasCap : UInt64 := 25000000

section

variable (chain : Chain) {Ω : Type} (evm : Evm Ω)

/-- state_transition.go:214-224 -/
def applyMessage (msg : Message) (commit : Bool) : ContextM Ω MsgEthereumTxResponse := do
  let _ ← fromExcept (chain.coinbase.mapError fun e =>
    (e.wrapf "failed to obtain coinbase address" []).wrapf "failed to load evm config" [])
  applyMessageWithConfig chain evm msg commit (emptyTxConfig chain)

/-- The request of an estimation for a call without a value. -/
def estimateRequest (sender : Address) (contract : Option Address) (data : Bytes) :
    EthCallRequest where
  args := .ok {
    sender := some sender
    recipient := contract
    gas := none
    gasPrice := none
    maxFeePerGas := none
    maxPriorityFeePerGas := none
    value := none
    nonce := none
    data := some data
    input := none
    accessList := none }
  gasCap := defaultGasCap

/-- The gas of a call: that of an estimation, if it is committed. call_evm.go:57-78 -/
def callGas (sender : Address) (contract : Option Address) (data : Bytes) (commit : Bool)
    (ctx : Context Ω) : Except Err UInt64 :=
  if commit then
    match estimateGasInternal chain evm defaultGasCap.toNat .internal ctx
        (estimateRequest sender contract data) with
    | some (.ok gasRes) => .ok gasRes.gas
    | some (.error e) => .error e
    | none => .error (.panic "the search goes on")
  else .ok defaultGasCap

/-- `GetSequence` of the account keeper. -/
def getSequence (a : Address) (st : Store Ω) : Except Err UInt64 :=
  match st.sequence a with
  | some sequence => .ok sequence
  | none => .error (errUnknownAddress.wrapf "account %s does not exist" [.addr a])

/-- call_evm.go:46-103 -/
def callEVMWithData (sender : Address) (contract : Option Address) (data : Bytes)
    (commit : Bool) : ContextM Ω MsgEthereumTxResponse := do
  let ctx ← get
  let nonce ← fromExcept (getSequence sender ctx.store)
  let gasCap ← fromExcept (callGas chain evm sender contract data commit ctx)
  let res ← applyMessage chain evm
    { sender := sender
      recipient := contract
      nonce := nonce
      value := 0
      gas := gasCap
      gasPrice := 0
      gasFeeCap := 0
      gasTipCap := 0
      data := data
      accessList := [] } commit
  require (res.failed = false) (errVMExecution.wrapf res.vmError [])
  return res

/-- `CallEVM`, for a method whose arguments are packed.
call_evm.go:22-43 -/
def callEVM (sender contract : Address) (commit : Bool) (method : String) (data : Bytes) :
    ContextM Ω MsgEthereumTxResponse :=
  mapError (.wrapf "contract call failed: method '%s', contract '%s'"
      [.str method, .str (quote (addressHex chain.env contract))])
    (callEVMWithData chain evm sender (some contract) data commit)

end

namespace Erc20Keeper

def errERC20Disabled : Err := .new "erc20 module is disabled"
def errERC20TokenPairDisabled : Err := .new "erc20 token pair is disabled"
def errUndefinedOwner : Err := .new "undefined owner of contract pair"
def errBalanceInvariance : Err := .new "post transfer balance invariant failed"
def errUnexpectedEvent : Err := .new "unexpected event"
def errEVMCall : Err := .new "EVM call unexpected error"
def errNativeConversionDisabled : Err := .new "native coins manual conversion is disabled"
def errSendDisabled : Err := .new "send transactions are disabled"
def errLogic : Err := .new "internal logic error"

/-- The receiver is a text whose address was checked before. -/
structure MsgConvertERC20 where
  contractAddress : Bytes
  amount : ℤ
  receiver : String
  sender : Bytes

/-- What the conversions ask other modules, besides `Config`. -/
structure ConversionConfig extends Config where
  /-- `types.ModuleAddress`. -/
  moduleAddress : Address
  /-- `sdk.MustAccAddressFromBech32`. -/
  accAddressFromBech32 : String → Address
  /-- `IsSendEnabledCoin` of the bank. -/
  isSendEnabledCoin : AppStore → Denom → Bool

section

variable (chain : Chain) (evm : Evm Erc20Store) (cfg : ConversionConfig)

/-- mint.go:18-67 -/
def mintingEnabled (sender receiver : Address) (token : Bytes) (st : AppStore) :
    Except Err TokenPair :=
  if ¬ st.rest.enableErc20 then
    .error (errERC20Disabled.wrapf "module is currently disabled by governance" [])
  else
    match getTokenPairID token st with
    | none => .error (errTokenPairNotFound.wrapf "token '%s' not registered by id"
        [.str (quote token)])
    | some id =>
      match getTokenPair (some id) st with
      | none => .error (errTokenPairNotFound.wrapf "token '%s' not registered"
          [.str (quote token)])
      | some pair =>
        if ¬ pair.enabled then
          .error (errERC20TokenPairDisabled.wrapf
            "minting token '%s' is not enabled by governance" [.str (quote token)])
        else if chain.env.blockedAddr receiver then
          .error (errUnauthorized.wrapf "%s is not allowed to receive transactions"
            [.addr receiver])
        else if sender ≠ receiver ∧ ¬ cfg.isSendEnabledCoin st (quote pair.denom) then
          .error (errSendDisabled.wrapf
            "minting '%s' coins to an external address is currently disabled"
            [.str (quote token)])
        else .ok pair

/-- Nil unless the call and the unpacking of its result succeed.
evm.go:112-133 -/
def balanceOf (contract account : Address) (ctx : Context Erc20Store) : Option ℕ :=
  match (callEVM chain evm cfg.moduleAddress contract false "balanceOf"
      (TokenAbi.packBalanceOf account)).run ctx with
  | .ok res _ => (TokenAbi.unpackUint256 res.ret).toOption
  | .error _ _ => none

/-- A balance that must not be nil. -/
def retrieveBalance (contract account : Address) : ContextM Erc20Store ℕ := do
  let ctx ← get
  fromExcept ((balanceOf chain evm cfg contract account ctx).elim
    (.error (errEVMCall.wrapf "failed to retrieve balance" [])) .ok)

/-- One log of `monitorApprovalEvent`. -/
def monitorApprovalLog (log : Log) : Except Err Unit :=
  match log.topics with
  | [] => .error (.panic "runtime error: index out of range [0] with length 0")
  | topic :: _ =>
    if topic = chain.env.keccak256 (ascii "Approval(address,address,uint256)".toList) then
      .error (errUnexpectedEvent.wrapf "unexpected Approval event" [])
    else .ok ()

/-- evm.go:137-154 -/
def monitorApprovalEvent (res : MsgEthereumTxResponse) : Except Err Unit :=
  res.logs.forM (monitorApprovalLog chain)

variable (pair : TokenPair)

/-- `convertERC20IntoCoinsForNativeToken` up to the check. msg_server.go:71-147 -/
def escrowTokens (msg : MsgConvertERC20) (receiver sender : Address) :
    ContextM Erc20Store MsgEthereumTxResponse := do
  let contract := pair.getERC20Contract
  let denom := quote pair.denom
  let ctx ← get
  let balanceCoin := ctx.store.balance receiver denom
  let balanceToken ← retrieveBalance chain evm cfg contract cfg.moduleAddress
  let res ← callEVMWithData chain evm sender (some contract)
    (TokenAbi.packTransfer cfg.moduleAddress msg.amount) true
  let value ← fromExcept (TokenAbi.unpackBool res.ret)
  require (value = true) (errLogic.wrapf "failed to execute transfer" [])
  let balanceTokenAfter ← retrieveBalance chain evm cfg contract cfg.moduleAddress
  require ((balanceTokenAfter : ℤ) = balanceToken + msg.amount)
    (errBalanceInvariance.wrapf "invalid token balance - expected: %v, actual: %v"
      [.num (balanceToken + msg.amount), .num balanceTokenAfter])
  ContextM.onStore (Bank.mintCoins cfg.moduleAddress denom msg.amount)
  ContextM.onStore (Bank.sendCoinsFromModuleToAccount chain.env cfg.moduleAddress receiver denom
    msg.amount)
  let ctx ← get
  let balanceCoinAfter := ctx.store.balance receiver denom
  require ((balanceCoinAfter : ℤ) = balanceCoin + msg.amount)
    (errBalanceInvariance.wrapf "invalid coin balance - expected: %v, actual: %v"
      [.num (balanceCoin + msg.amount), .num balanceCoinAfter])
  return res

/-- msg_server.go:71-187 -/
def convertERC20IntoCoinsForNativeToken (msg : MsgConvertERC20)
    (receiver sender : Address) : ContextM Erc20Store Unit := do
  let res ← escrowTokens chain evm cfg pair msg receiver sender
  fromExcept (monitorApprovalEvent chain res)
  ContextM.emitEvent
    { kind := "convert_erc20"
      attributes := [("sender", quote msg.sender), ("receiver", msg.receiver),
        ("amount", toString msg.amount), ("cosmos_coin", quote pair.denom),
        ("erc20_token", quote msg.contractAddress)] }

/-- A pair whose contract is gone is deleted, without an error. msg_server.go:26-61 -/
def convertERC20 (msg : MsgConvertERC20) : ContextM Erc20Store Unit := do
  let receiver := cfg.accAddressFromBech32 msg.receiver
  let sender := hexToAddress msg.sender
  let ctx ← get
  let pair ← fromExcept (mintingEnabled chain cfg sender receiver msg.contractAddress ctx.store)
  match pair.contractOwner with
  | .external =>
    let contract := pair.getERC20Contract
    if ctx.store.sequence contract = none ∨
        ctx.store.getCodeHash chain.env contract = chain.env.emptyCodeHash then
      ContextM.onStore (deleteTokenPair cfg.toConfig pair)
    else convertERC20IntoCoinsForNativeToken chain evm cfg pair msg receiver sender
  | .module => throw errNativeConversionDisabled
  | .unspecified => throw errUndefinedOwner

/-- `ConvertCoinNativeERC20` up to the check, for a positive amount.
msg_server.go:196-256 -/
def unescrowTokens (amount : ℤ) (receiver sender : Address) :
    ContextM Erc20Store MsgEthereumTxResponse := do
  let contract := pair.getERC20Contract
  let denom := quote pair.denom
  let balanceToken ← retrieveBalance chain evm cfg contract receiver
  mapError (.wrapf "failed to escrow coins" [])
    (ContextM.onStore
      (Bank.sendCoinsFromAccountToModule chain.env sender cfg.moduleAddress denom amount))
  let res ← callEVM chain evm cfg.moduleAddress contract true "transfer"
    (TokenAbi.packTransfer receiver amount)
  let value ← fromExcept (TokenAbi.unpackBool res.ret)
  require (value = true) (errLogic.wrapf "failed to execute unescrow tokens from user" [])
  let balanceTokenAfter ← retrieveBalance chain evm cfg contract receiver
  require ((balanceTokenAfter : ℤ) = balanceToken + amount)
    (errBalanceInvariance.wrapf "invalid token balance - expected: %v, actual: %v"
      [.num (balanceToken + amount), .num balanceTokenAfter])
  mapError (.wrapf "failed to burn coins" [])
    (ContextM.onStore (Bank.burnCoins chain.env cfg.moduleAddress denom amount))
  return res

/-- msg_server.go:196-260 -/
def convertCoinNativeERC20 (amount : ℤ) (receiver sender : Address) :
    ContextM Erc20Store Unit :=
  if ¬ 0 < amount then pure ()
  else do
    let res ← unescrowTokens chain evm cfg pair amount receiver sender
    fromExcept (monitorApprovalEvent chain res)

end

end Erc20Keeper

end TacEvm
