import TacEvm.Model.EthTransaction
import TacEvm.Model.StateTransition

/-!
# The message server of `x/vm`

`EthereumTx` applies the transaction of a message and emits three events. The JSON encoder and
decoder of logs are left open; what is assumed of them is that a log is read back as it was written.

SOURCE: x/vm/keeper/msg_server.go, x/vm/types (msg.go, logs.go, legacy_tx.go, access_list_tx.go,
dynamic_fee_tx.go)
-/

namespace TacEvm

open FallibleState

def errInvalidAmount : Err := .new "invalid transaction amount"
def errInvalidGasPrice : Err := .new "invalid gas price"
def errInvalidGasFee : Err := .new "invalid gas fee"
def errInvalidGasCap : Err := .new "invalid gas cap"
def errInvalidGasLimit : Err := .new "invalid gas limit"
def errInvalidChainID : Err := .new "invalid chain-id"

/-- A check of a `Validate` method. -/
def refuseIf (p : Prop) [Decidable p] (e : Err) : Except Err Unit := if p then .error e else .ok ()

/-- The checks of the amount, which may be nil. -/
def validateAmount (amount : Option ℤ) : Except Err Unit := do
  refuseIf (amount.getD 0 < 0)
    (errInvalidAmount.wrapf "amount cannot be negative %s" [.num (amount.getD 0)])
  refuseIf (isValidInt256 (amount.getD 0) = false) (errInvalidAmount.wrapf "out of bound" [])

/-- The check of the recipient, which may be empty. -/
def validateTo (recipient : Bytes) : Except Err Unit :=
  if recipient = [] then .ok ()
  else (validateAddress recipient).mapError (Err.wrapf "invalid to address" [])

/-- utils/eth/eth.go:13-33 -/
def deriveChainID (v : Option ℕ) : Option ℕ :=
  match v with
  | none => none
  | some v =>
    if v = 0 then none
    else if v = 27 ∨ v = 28 then some 0
    else if v < 35 then none
    else some ((v - 35) / 2)

/-- legacy_tx.go:165-204 -/
def LegacyTx.validate (tx : LegacyTx) : Except Err Unit :=
  match tx.gasPrice with
  | none => .error (errInvalidGasPrice.wrapf "gas price cannot be nil" [])
  | some gasPrice => do
    refuseIf (gasPrice < 0)
      (errInvalidGasPrice.wrapf "gas price cannot be negative %s" [.num gasPrice])
    refuseIf (isValidInt256 gasPrice = false) (errInvalidGasPrice.wrapf "out of bound" [])
    refuseIf (isValidInt256 (gasPrice * tx.gasLimit.toNat) = false)
      (errInvalidGasFee.wrapf "out of bound" [])
    validateAmount tx.amount
    validateTo tx.recipient
    refuseIf (deriveChainID (rawSignatureValue tx.v) = none)
      (errInvalidChainID.wrapf "chain ID must be derived from LegacyTx txs" [])

/-- access_list_tx.go:186-226 -/
def AccessListTx.validate (tx : AccessListTx) : Except Err Unit :=
  match tx.gasPrice with
  | none => .error (errInvalidGasPrice.wrapf "cannot be nil" [])
  | some gasPrice => do
    refuseIf (isValidInt256 gasPrice = false) (errInvalidGasPrice.wrapf "out of bound" [])
    refuseIf (gasPrice < 0)
      (errInvalidGasPrice.wrapf "gas price cannot be negative %s" [.num gasPrice])
    validateAmount tx.amount
    refuseIf (isValidInt256 (gasPrice * tx.gasLimit.toNat) = false)
      (errInvalidGasFee.wrapf "out of bound" [])
    validateTo tx.recipient
    refuseIf (tx.chainID = none)
      (errInvalidChainID.wrapf "chain ID must be present on AccessList txs" [])

/-- dynamic_fee_tx.go:199-258 -/
def DynamicFeeTx.validate (tx : DynamicFeeTx) : Except Err Unit :=
  match tx.gasTipCap, tx.gasFeeCap with
  | none, _ => .error (errInvalidGasCap.wrapf "gas tip cap cannot nil" [])
  | some _, none => .error (errInvalidGasCap.wrapf "gas fee cap cannot nil" [])
  | some gasTipCap, some gasFeeCap => do
    refuseIf (gasTipCap < 0)
      (errInvalidGasCap.wrapf "gas tip cap cannot be negative %s" [.num gasTipCap])
    refuseIf (gasFeeCap < 0)
      (errInvalidGasCap.wrapf "gas fee cap cannot be negative %s" [.num gasFeeCap])
    refuseIf (isValidInt256 gasTipCap = false) (errInvalidGasCap.wrapf "out of bound" [])
    refuseIf (isValidInt256 gasFeeCap = false) (errInvalidGasCap.wrapf "out of bound" [])
    refuseIf (gasFeeCap < gasTipCap)
      (errInvalidGasCap.wrapf "max priority fee per gas higher than max fee per gas (%s > %s)"
        [.num gasTipCap, .num gasFeeCap])
    refuseIf (isValidInt256 (gasFeeCap * tx.gasLimit.toNat) = false)
      (errInvalidGasFee.wrapf "out of bound" [])
    validateAmount tx.amount
    validateTo tx.recipient
    refuseIf (tx.chainID = none)
      (errInvalidChainID.wrapf "chain ID must be present on DynamicFee txs" [])

def TxData.validate : TxData → Except Err Unit
  | .legacy tx => tx.validate
  | .accessList tx => tx.validate
  | .dynamicFee tx => tx.validate

/-- The check of the size is not used any more. msg.go:159-199 -/
def MsgEthereumTx.validateBasic (chain : Chain) (msg : MsgEthereumTx) : Except Err Unit := do
  (if msg.sender = [] then .ok ()
  else (validateAddress msg.sender).mapError (Err.wrapf "invalid from address" []))
  let txData ← msg.data.mapError (Err.wrapf "failed to unpack tx data" [])
  refuseIf (txData.getGas = 0) (errInvalidGasLimit.wrapf "gas limit must not be zero" [])
  refuseIf (2 ^ 63 ≤ txData.getGas.toNat)
    (errGasOverflow.wrapf "gas limit must be less than math.MaxInt64" [])
  txData.validate
  let txHash := quote (hashHex (chain.txHash txData))
  refuseIf (msg.hash ≠ txHash)
    (errInvalidRequest.wrapf "invalid tx hash %s, expected: %s" [.str msg.hash, .str txHash])

/-- `types.Log`, without block number and removed flag. -/
structure TextLog where
  address : Bytes
  topics : List Bytes
  data : Bytes
  txHash : Bytes
  txIndex : ℕ
  blockHash : Bytes
  index : ℕ

def newLogFromEth (env : Env) (log : Log) : TextLog where
  address := addressHex env log.address
  topics := log.topics.map hashHex
  data := log.data
  txHash := hashHex log.txHash
  txIndex := log.txIndex
  blockHash := hashHex log.blockHash
  index := log.index

def TextLog.toEthereum (log : TextLog) : Log where
  address := hexToAddress log.address
  topics := log.topics.map hexToHash
  data := log.data
  txHash := hexToHash log.txHash
  txIndex := log.txIndex
  blockHash := hexToHash log.blockHash
  index := log.index

/-- `json.Marshal` and `json.Unmarshal` of a log. -/
structure LogCodec where
  marshal : TextLog → String
  unmarshal : String → Except Err TextLog
  unmarshal_marshal : ∀ log, unmarshal (marshal log) = .ok log

def eventTypeEthereumTx : String := "ethereum_tx"
def eventTypeTxLog : String := "tx_log"

section

variable (chain : Chain) {Ω : Type} (evm : Evm Ω) (codec : LogCodec)

/-- The attributes of the event of a transaction. -/
def ethereumTxAttributes (txData : TxData) (txIndex : ℕ) (cometHash : Option String)
    (response : MsgEthereumTxResponse) : List (String × String) :=
  [("amount", toString (txData.getValue.getD 0)),
    ("ethereumTxHash", quote (hashHex response.hash)),
    ("txIndex", toString txIndex),
    ("txGasUsed", toString response.gasUsed.toNat)] ++
  (cometHash.toList.map fun hash => ("txHash", hash)) ++
  (txData.getTo.toList.map fun a => ("recipient", quote (addressHex chain.env a))) ++
  (if response.failed then [("ethereumTxFailed", response.vmError)] else [])

/-- The number of a type of transactions. -/
def TxData.txType : TxData → ℕ
  | .legacy _ => 0
  | .accessList _ => 1
  | .dynamicFee _ => 2

/-- The sender is the one the ante handler wrote. msg_server.go:30-131 -/
def ethereumTx (cometHash : Option String) (msg : MsgEthereumTx) :
    ChainM Ω MsgEthereumTxResponse := do
  let txData ← fromExcept (msg.data.mapError fun _ => .nilDereference)
  let s ← get
  let txIndex := s.transient.txIndex
  let response ← mapError (.wrapf "failed to apply transaction" [])
    (applyTransaction chain evm txData)
  let sender ← fromExcept (chain.sender txData)
  ChainM.emitEvent {
    kind := eventTypeEthereumTx
    attributes := ethereumTxAttributes chain txData txIndex cometHash response }
  ChainM.emitEvent {
    kind := eventTypeTxLog
    attributes := response.logs.map fun log =>
      ("txLog", codec.marshal (newLogFromEth chain.env log)) }
  ChainM.emitEvent {
    kind := "message"
    attributes := [("module", "evm"), ("sender", quote (addressHex chain.env sender)),
      ("txType", toString txData.txType)] }
  return response

end

end TacEvm
