import TacEvm.Model.Chain

/-!
# The ante handler of Ethereum transactions

`MonoDecorator.AnteHandle`: a loop over the messages that checks each one, deducts its fee and
increments the nonce of its sender, and two checks of the totals. The sender that the signature
check writes into the message is passed on here.

SOURCE: ante/evm (mono_decorator.go, 01_setup_ctx.go to 11_emit_event.go)
-/

namespace TacEvm

open FallibleState

/-- Its data once it is unpacked, its `From` and its `Hash`. -/
structure MsgEthereumTx where
  data : Except Err TxData
  sender : Bytes
  hash : String

/-- x/vm/types/msg.go:277-283 -/
def MsgEthereumTx.getFrom (msg : MsgEthereumTx) : Option Address :=
  if msg.sender = [] then none else some (hexToAddress msg.sender)

inductive Msg
  | ethereumTx (msg : MsgEthereumTx)
  | other (typeName : String)

structure Fee where
  amount : Coins
  gasLimit : UInt64
  payer : String
  granter : String

/-- `sdk.Tx`; of the lists that have to be empty, the length. -/
structure CosmosTx where
  memo : String
  timeoutHeight : UInt64
  extensionOptions : ℕ
  nonCriticalExtensionOptions : ℕ
  signerInfos : ℕ
  signatures : ℕ
  fee : Fee
  msgs : List Msg

/-- The mode of the context, and whether it is simulated. -/
structure Mode where
  isCheckTx : Bool
  isReCheckTx : Bool
  simulate : Bool

/-- A transaction of a block. -/
def Mode.deliver : Mode where
  isCheckTx := false
  isReCheckTx := false
  simulate := false

def errInvalidRequest : Err := .new "invalid request"
def errUnknownRequest : Err := .new "unknown request"
def errInsufficientFee : Err := .new "insufficient fee"
def errInsufficientFunds : Err := .new "insufficient funds"
def errInvalidCoins : Err := .new "invalid coins"
def errInvalidType : Err := .new "invalid type"
def errNotSupported : Err := .new "feature not supported"
def errorInvalidSigner : Err := .new "tx intended signer does not match the given signer"
def errUnknownAddress : Err := .new "unknown address"
def errInvalidSequence : Err := .new "invalid sequence"
def errInvalidBaseFee : Err := .new "invalid base fee"
def errCreateDisabled : Err := .new "EVM Create operation is disabled"
def errCallDisabled : Err := .new "EVM Call operation is disabled"

namespace Coins

variable (coins : Coins)

def isZero : Bool := coins.all fun coin => coin.amount = 0

/-- `Coins.Find`, a binary search that takes the coins as sorted. -/
def find (denom : Denom) : ℕ → Coins → Option Coin
  | 0, _ => none
  | fuel + 1, coins =>
    match coins with
    | [] => none
    | [coin] => if coin.denom = denom then some coin else none
    | coins =>
      let midIdx := coins.length / 2
      match coins[midIdx]? with
      | none => none
      | some coin =>
        if denom < coin.denom then find denom fuel (coins.take midIdx)
        else if denom = coin.denom then some coin
        else find denom fuel (coins.drop (midIdx + 1))

/-- `Coins.AmountOf`, on coins that need not be sorted. -/
def searchAmountOf (denom : Denom) : ℤ :=
  ((find denom coins.length coins).map Coin.amount).getD 0

end Coins

/-- `Tx.ValidateBasic` of the SDK. Missing signatures are ignored; a payer is refused further on. -/
def CosmosTx.validateBasic (tx : CosmosTx) : Except Err Unit :=
  if 2 ^ 63 ≤ tx.fee.gasLimit.toNat then
    .error (errInvalidRequest.wrapf "invalid gas supplied; %d > %d"
      [.num tx.fee.gasLimit.toNat, .num (2 ^ 63 - 1)])
  else if tx.fee.amount.any fun coin => coin.amount < 0 then
    .error (errInsufficientFee.wrapf "invalid fee provided: %s" [.str tx.fee.amount.text])
  else .ok ()

/-- ante/evm/04_validate.go:60-102 -/
def validateTx (tx : CosmosTx) : Except Err Fee :=
  match tx.validateBasic with
  | .error e => .error (e.wrapf "tx basic validation failed" [])
  | .ok () =>
    if tx.memo ≠ "" ∨ tx.timeoutHeight ≠ 0 ∨ 0 < tx.nonCriticalExtensionOptions then
      .error (errInvalidRequest.wrapf
        "for eth tx body Memo TimeoutHeight NonCriticalExtensionOptions should be empty" [])
    else if tx.extensionOptions ≠ 1 then
      .error (errInvalidRequest.wrapf "for eth tx length of ExtensionOptions should be 1" [])
    else if 0 < tx.signerInfos then
      .error (errInvalidRequest.wrapf "for eth tx AuthInfo SignerInfos should be empty" [])
    else if tx.fee.payer ≠ "" ∨ tx.fee.granter ≠ "" then
      .error (errInvalidRequest.wrapf
        "for eth tx AuthInfo Fee payer and granter should be empty" [])
    else if 0 < tx.signatures then
      .error (errInvalidRequest.wrapf "for eth tx Signatures should be empty" [])
    else .ok tx.fee

/-- x/vm/types/utils.go:91-108 -/
def unpackEthMsg : Msg → Except Err (MsgEthereumTx × TxData)
  | .other typeName => .error (errUnknownRequest.wrapf "invalid message type %T, expected %T"
      [.str typeName, .str "*types.MsgEthereumTx"])
  | .ethereumTx msg =>
    match msg.data with
    | .error e => .error (e.wrapf "failed to unpack tx data any for tx" [])
    | .ok txData => .ok (msg, txData)

/-- ante/evm/02_mempool_fee.go:13-29 -/
def checkMempoolFee (fee mempoolMinGasPrice gasLimit : LegacyDec) (isLondon : Bool) :
    Except Err Unit :=
  let requiredFee := mempoolMinGasPrice.mul gasLimit
  if isLondon then .ok ()
  else if fee.digits < requiredFee.digits then
    .error (errInsufficientFee.wrapf "got: %s, minimum required: %s"
      [.str fee.text, .str requiredFee.text])
  else .ok ()

/-- ante/evm/03_global_fee.go:20-36 -/
def checkGlobalFee (fee globalMinGasPrice gasLimit : LegacyDec) : Except Err Unit :=
  let requiredFee := globalMinGasPrice.mul gasLimit
  if globalMinGasPrice.digits = 0 then .ok ()
  else if fee.digits < requiredFee.digits then
    .error (errInsufficientFee.wrapf
      ("provided fee < minimum global fee (%s < %s). Please increase the priority tip " ++
        "(for EIP-1559 txs) or the gas prices (for access list or legacy txs)")
      [.num fee.truncateInt, .num requiredFee.truncateInt])
  else .ok ()

/-- 04_validate.go:39-55 -/
def checkDisabledCreateCall (txData : TxData) (permissions : EvmParams) : Except Err Unit :=
  if permissions.create = .restricted ∧ txData.getTo = none then
    .error (errCreateDisabled.wrapf "failed to create new contract" [])
  else if permissions.call = .restricted ∧ txData.getTo ≠ none then
    .error (errCallDisabled.wrapf "failed to perform a call" [])
  else .ok ()

/-- 04_validate.go:22-35 -/
def validateMsg (evmParams : EvmParams) (txData : TxData) (sender : Option Address) :
    Except Err Unit :=
  match sender with
  | some sender => .error (errInvalidRequest.wrapf
      "invalid from address; expected nil; got: %q" [.addr sender])
  | none => checkDisabledCreateCall txData evmParams

section

variable (chain : Chain)

/-- The sender.
ante/evm/05_signature_verification.go:65-90 -/
def signatureVerification (txData : TxData) : Except Err Address :=
  if !chain.evmParams.allowUnprotectedTxs && !chain.isProtected txData then
    .error (errNotSupported.wrapf
      ("rejected unprotected ethereum transaction; please sign your transaction according to " ++
        "EIP-155 to protect it against replay-attacks") [])
  else
    match chain.sender txData with
    | .error e => .error (errorInvalidSigner.quote
        "couldn't retrieve sender address from the ethereum transaction: " e)
    | .ok sender => .ok sender

variable {Ω : Type}

/-- x/vm/keeper/fees.go:22-42 -/
def checkSenderBalance (balance : ℤ) (txData : TxData) : Except Err Unit := do
  let cost ← txData.cost
  if cost < 0 then
    .error (errInvalidCoins.wrapf "tx cost (%s) is negative and invalid" [.num cost])
  else if balance < 0 ∨ balance < cost then
    .error (errInsufficientFunds.wrapf "sender balance < tx cost (%s < %s)"
      [.num balance, .num cost])
  else .ok ()

def Account.isContract (env : Env) (account : Account) : Bool :=
  account.codeHash ≠ env.emptyCodeHash

/-- An account that is missing is made.
ante/evm/06_account_verification.go:23-49 -/
def verifyAccountBalance (sender : Address) (txData : TxData) : KeeperM Ω Unit := do
  let account := (← get).getAccount chain.env sender
  KeeperM.ensure (¬ account.any (·.isContract chain.env))
    (errInvalidType.wrapf "the sender is not EOA: address %s" [.addr sender])
  if account = none then
    modify fun st => st.setSequence sender (some 0)
  mapError (.wrapf "failed to check sender balance" [])
    (KeeperM.check (checkSenderBalance ((account.map Account.balance).getD 0) txData))

/-- `CanTransfer`; the balance is that of a new `StateDB`.
ante/evm/07_can_transfer.go:21-61 -/
def canTransfer (msg : Message) : KeeperM Ω Unit := do
  if chain.rules.isLondon then
    let baseFee ← KeeperM.check (deref chain.getBaseFee)
    KeeperM.ensure (baseFee ≤ msg.gasFeeCap)
      (errInsufficientFee.wrapf "max fee per gas less than block base fee (%s < %s)"
        [.num msg.gasFeeCap, .num baseFee])
  let balance := (((← get).getAccount chain.env msg.sender).map Account.balance).getD 0
  KeeperM.ensure (¬ (0 < msg.value ∧ balance < msg.value))
    (errInsufficientFunds.wrapf
      "failed to transfer %s from address %s using the EVM block context transfer function"
      [.num msg.value, .addr msg.sender])

/-- The intrinsic gas in `VerifyFee`, partly in `CheckTx` only. fees.go:75-99 -/
def verifyIntrinsicGas (mode : Mode) (txData : TxData) : Except Err Unit :=
  let isContractCreation := decide (txData.getTo = none)
  match chain.intrinsicGas txData.getData txData.getAccessList isContractCreation with
  | .error e => .error (e.wrapf
      "failed to retrieve intrinsic gas, contract creation = %t; homestead = %t, istanbul = %t"
      [.str (toString isContractCreation), .str (toString chain.rules.isHomestead),
        .str (toString chain.rules.isIstanbul)])
  | .ok intrinsicGas =>
    if mode.isCheckTx ∧ txData.getGas < intrinsicGas then
      .error (errOutOfGas.wrapf "gas limit too low: %d (gas limit) < %d (intrinsic gas)"
        [.num txData.getGas.toNat, .num intrinsicGas.toNat])
    else .ok ()

/-- The check of the fee cap in `VerifyFee`.
fees.go:101-106 -/
def verifyGasFeeCap (txData : TxData) : Except Err Unit :=
  match chain.getBaseFee, deref txData.getGasFeeCap with
  | none, _ => .ok ()
  | some _, .error e => .error e
  | some baseFee, .ok gasFeeCap =>
    if gasFeeCap < baseFee then
      .error (errInsufficientFee.wrapf
        "the tx gasfeecap is lower than the tx baseFee: %s (gasfeecap), %s (basefee) "
        [.num gasFeeCap, .num baseFee])
    else .ok ()

/-- The fee in coins of 18 decimals, none if it is zero.
fees.go:69-115 -/
def verifyFee (mode : Mode) (txData : TxData) : Except Err Coins := do
  verifyIntrinsicGas chain mode txData
  verifyGasFeeCap chain txData
  let feeAmt ← txData.effectiveFee chain.getBaseFee
  if feeAmt = 0 then .ok [] else .ok [{ denom := chain.env.evmDenom, amount := feeAmt }]

/-- x/vm/types/scaling.go:76-91 -/
def convertCoinsFrom18Decimals (env : Env) (coins : Coins) : Coins :=
  coins.map fun coin =>
    if coin.denom = env.evmDenom then
      { coin with amount := env.convertAmountFrom18Decimals coin.amount }
    else coin

/-- `BankWrapper.SendCoinsFromAccountToModule` and back: coins that scale to nothing are not sent.
x/vm/wrappers/bank.go:88-111 -/
def sendConverted (env : Env) (send : Denom → ℤ → KeeperM Ω Unit) (coins : Coins) :
    KeeperM Ω Unit :=
  let convertedCoins := convertCoinsFrom18Decimals env coins
  if convertedCoins.isZero then pure ()
  else convertedCoins.forM fun coin => send coin.denom coin.amount

/-- `GetSignerAcc` and `DeductFees` of the SDK are part of it. fees.go:45-64 -/
def deductTxCostsFromUserBalance (fees : Coins) (sender : Address) : KeeperM Ω Unit := do
  KeeperM.ensure ((← get).sequence sender ≠ none)
    ((errUnknownAddress.wrapf "account %s does not exist" [.addr sender]).wrapf
      "account not found for sender %s" [.addr sender])
  mapError (.wrapf "failed to deduct full gas cost %s from the user %s balance"
      [.str fees.text, .addr sender]) do
    KeeperM.ensure (∀ coin ∈ fees, 0 < coin.amount)
      (errInsufficientFee.wrapf "invalid fee amount: %s" [.str fees.text])
    mapError (errInsufficientFunds.quote "")
      (sendConverted chain.env
        (Bank.sendCoinsFromAccountToModule chain.env sender chain.feeCollector) fees)

/-- ante/evm/08_gas_consume.go:64-83 -/
def deductFees (fees : Coins) (sender : Address) : KeeperM Ω Unit :=
  if fees.isZero then pure ()
  else mapError (.wrapf "failed to deduct transaction costs from user balance" [])
    (deductTxCostsFromUserBalance chain fees sender)

/-- 08_gas_consume.go:39-61 -/
def consumeFeesAndEmitEvent (fees : Coins) (sender : Address) : ChainM Ω Unit := do
  ChainM.onStore (deductFees chain fees sender)
  ChainM.emitEvent { kind := "tx", attributes := [("fee", fees.text)] }

/-- 08_gas_consume.go:19-36 -/
def updateCumulativeGasWanted (mode : Mode) (msgGasWanted cumulativeGasWanted : UInt64) : UInt64 :=
  if mode.isCheckTx ∧ chain.maxGasWanted ≠ 0 then
    -- the gas limit cannot be trusted, what is not used is refunded
    if chain.maxGasWanted < msgGasWanted then cumulativeGasWanted + chain.maxGasWanted
    else cumulativeGasWanted + msgGasWanted
  else cumulativeGasWanted + msgGasWanted

/-- The tip in units of `DefaultPriorityReduction`, if an `int64` holds it.
x/vm/types/tx.go:38-55 -/
def getTxPriority (txData : TxData) : Except Err ℤ := do
  let tipPrice ← txData.effectiveGasPrice chain.getBaseFee
  let tipPrice := tipPrice - chain.getBaseFee.getD 0
  let priority := tipPrice.tdiv 1000000
  return if -2 ^ 63 ≤ priority ∧ priority < 2 ^ 63 then priority else 2 ^ 63 - 1

/-- `IncrementNonce`, on the account the decorator looks up.
ante/evm/09_increment_sequence.go:13-37, mono_decorator.go:222-234 -/
def incrementNonce (sender : Address) (txNonce : UInt64) : KeeperM Ω Unit := do
  match (← get).sequence sender with
  | none => throw (errUnknownAddress.wrapf "account %s does not exist" [.addr sender])
  | some nonce =>
    KeeperM.ensure (txNonce = nonce)
      (errInvalidSequence.wrapf "invalid nonce; got %d, expected %d"
        [.num txNonce.toNat, .num nonce.toNat])
    modify fun st => st.setSequence sender (some (nonce + 1))

/-- The gas is that of the whole transaction. `GasWantedDecorator` does no more.
ante/evm/10_gas_wanted.go:35-82 -/
def checkGasWanted (tx : CosmosTx) : ChainM Ω Unit := do
  if !chain.rules.isLondon then pure ()
  else
    let s ← get
    require (tx.fee.gasLimit ≤ blockGasLimit chain s)
      (errOutOfGas.wrapf "tx gas (%d) exceeds block gas limit (%d)"
        [.num tx.fee.gasLimit.toNat, .num (blockGasLimit chain s).toNat])
    if chain.getBaseFeeEnabled then addTransientGasWanted tx.fee.gasLimit else pure ()

/-- 11_emit_event.go:54-64 -/
def emitTxHashEvent (hash : String) (blockTxIndex msgIndex : ℕ) : ChainM Ω Unit :=
  ChainM.emitEvent {
    kind := "ethereum_tx"
    attributes := [("ethereumTxHash", hash), ("txIndex", toString (blockTxIndex + msgIndex))] }

/-- `DecoratorUtils`, what changes from message to message. -/
structure DecoratorUtils where
  txGasLimit : UInt64
  gasWanted : UInt64
  minPriority : ℤ
  txFee : ℤ
  deriving DecidableEq

/-- ante/evm/utils.go:43-82 -/
def newMonoDecoratorUtils : Except Err DecoratorUtils :=
  if chain.rules.isLondon ∧ chain.getBaseFee = none then
    .error (errInvalidBaseFee.wrapf "base fee is supported but evm block context value is nil" [])
  else .ok { txGasLimit := 0, gasWanted := 0, minPriority := 2 ^ 63 - 1, txFee := 0 }

/-- 04_validate.go:108-125 -/
def checkTxFee (txFeeInfo : Option Fee) (txFee : ℤ) (txGasLimit : UInt64) : Except Err Unit :=
  match txFeeInfo with
  | none => .ok ()
  | some info =>
    let convertedAmount := chain.env.convertAmountFrom18Decimals txFee
    if info.amount.searchAmountOf chain.env.evmDenom ≠ convertedAmount then
      .error (errInvalidRequest.wrapf "invalid AuthInfo Fee Amount (%s != %s)"
        [.str info.amount.text, .num convertedAmount])
    else if info.gasLimit ≠ txGasLimit then
      .error (errInvalidRequest.wrapf "invalid AuthInfo Fee GasLimit (%d != %d)"
        [.num info.gasLimit.toNat, .num txGasLimit.toNat])
    else .ok ()

/-- The meter of the transaction gets its limit.
08_gas_consume.go:100-128 -/
def checkBlockGasLimit (gasWanted : UInt64) : ChainM Ω Unit := do
  let s ← get
  require (gasWanted ≤ blockGasLimit chain s)
    (errOutOfGas.wrapf "tx gas (%d) exceeds block gas limit (%d)"
      [.num gasWanted.toNat, .num (blockGasLimit chain s).toNat])
  modify fun s => { s with gasMeter := { limit := gasWanted, consumed := 0 } }

/-- The steps of a round that only look at the message: its sender.
mono_decorator.go:87-137 -/
def checkMessage (mode : Mode) (ethMsg : MsgEthereumTx) (txData : TxData) :
    Except Err Address := do
  let feeAmt ← txData.fee
  let gasLimit := LegacyDec.newDec txData.getGas.toNat
  (if mode.isCheckTx ∧ ¬ mode.simulate then
    checkMempoolFee (.newDec feeAmt) (chain.minGasPrices.mulInt chain.env.conversionFactor)
      gasLimit chain.rules.isLondon
  else .ok ())
  let feeAmt ← (if txData.isDynamicFee ∧ chain.getBaseFee ≠ none then
    txData.effectiveFee chain.getBaseFee
  else .ok feeAmt)
  checkGlobalFee (.newDec feeAmt) chain.getMinGasPrice gasLimit
  validateMsg chain.evmParams txData ethMsg.getFrom
  signatureVerification chain txData

/-- One round of the loop of `AnteHandle`.
mono_decorator.go:81-244 -/
def anteHandleMsg (mode : Mode) (tx : CosmosTx) (blockTxIndex : ℕ) (utils : DecoratorUtils)
    (indexed : Msg × ℕ) : ChainM Ω DecoratorUtils := do
  let (ethMsg, txData) ← fromExcept (unpackEthMsg indexed.1)
  let sender ← fromExcept (checkMessage chain mode ethMsg txData)
  ChainM.onStore (verifyAccountBalance chain sender txData)
  ChainM.onStore (canTransfer chain (txData.asMessage sender chain.getBaseFee))
  let msgFees ← fromExcept (verifyFee chain mode txData)
  consumeFeesAndEmitEvent chain msgFees sender
  let priority ← fromExcept (getTxPriority chain txData)
  let fee ← fromExcept txData.fee
  ChainM.onStore (incrementNonce sender txData.getNonce)
  checkGasWanted chain tx
  emitTxHashEvent ethMsg.hash blockTxIndex indexed.2
  return {
    txGasLimit := utils.txGasLimit + txData.getGas
    gasWanted := updateCumulativeGasWanted chain mode txData.getGas utils.gasWanted
    minPriority := min priority utils.minPriority
    txFee := utils.txFee + fee }

/-- 01_setup_ctx.go:40-61 -/
def setupContextAndResetTransientGas : ChainM Ω Unit :=
  modify fun s => { s with
    transient := { s.transient with gasUsed := 0 }
    gasMeter := { limit := 18446744073709551615, consumed := 0 } }

/-- The basic validation, which is not done again.
mono_decorator.go:53-62 -/
def basicValidation (mode : Mode) (tx : CosmosTx) : Except Err (Option Fee) :=
  if mode.isReCheckTx then .ok none else (validateTx tx).map some

/-- The priority.
mono_decorator.go:51-256 -/
def anteHandle (mode : Mode) (tx : CosmosTx) : ChainM Ω ℤ := do
  let txFeeInfo ← fromExcept (basicValidation mode tx)
  setupContextAndResetTransientGas
  let s ← get
  let utils ← fromExcept (newMonoDecoratorUtils chain)
  let utils ← tx.msgs.zipIdx.foldlM (anteHandleMsg chain mode tx s.transient.txIndex) utils
  fromExcept (checkTxFee chain txFeeInfo utils.txFee utils.txGasLimit)
  checkBlockGasLimit chain utils.gasWanted
  return utils.minPriority

end

end TacEvm
