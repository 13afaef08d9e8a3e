import TacEvm.Model.Ante

/-!
# Transactions of go-ethereum and messages

A transaction of go-ethereum is made into a message, and the message into a transaction again. The
pointers of go-ethereum's structures may be nil, those of a `Transaction` are not, since `NewTx`
copies the structure with zero in place of nil.

SOURCE: x/vm/types (msg.go, tx_data.go, legacy_tx.go, access_list_tx.go, dynamic_fee_tx.go,
access_list.go), utils/eth/eth.go, types/int.go; go-ethereum `core/types`
-/

namespace TacEvm

/-- `ethtypes.LegacyTx`. Signature values are unsigned, as in RLP. -/
structure EthLegacyTx where
  nonce : UInt64
  gasPrice : Option ℤ
  gas : UInt64
  /-- `To`, nil for a creation. -/
  recipient : Option Address
  value : Option ℤ
  data : Bytes
  v : Option ℕ
  r : Option ℕ
  s : Option ℕ
  deriving DecidableEq

/-- `ethtypes.AccessListTx`. -/
structure EthAccessListTx where
  chainID : Option ℤ
  nonce : UInt64
  gasPrice : Option ℤ
  gas : UInt64
  /-- `To`, nil for a creation. -/
  recipient : Option Address
  value : Option ℤ
  data : Bytes
  accessList : Option EthAccessList
  v : Option ℕ
  r : Option ℕ
  s : Option ℕ
  deriving DecidableEq

/-- `ethtypes.DynamicFeeTx`. -/
structure EthDynamicFeeTx where
  chainID : Option ℤ
  nonce : UInt64
  gasTipCap : Option ℤ
  gasFeeCap : Option ℤ
  gas : UInt64
  /-- `To`, nil for a creation. -/
  recipient : Option Address
  value : Option ℤ
  data : Bytes
  accessList : Option EthAccessList
  v : Option ℕ
  r : Option ℕ
  s : Option ℕ
  deriving DecidableEq

/-- `ethtypes.TxData`. -/
inductive EthTxData
  | legacy (tx : EthLegacyTx)
  | accessList (tx : EthAccessListTx)
  | dynamicFee (tx : EthDynamicFeeTx)
  deriving DecidableEq

/-- Zero in place of nil. -/
def nonNil {α : Type} [Zero α] (p : Option α) : Option α := some (p.getD 0)

/-- An empty list in place of nil. -/
def nonNilList (l : Option EthAccessList) : Option EthAccessList := some (l.getD [])

namespace EthTxData

/-- The `copy` methods. -/
def copy : EthTxData → EthTxData
  | legacy tx => legacy
    { tx with
      gasPrice := nonNil tx.gasPrice
      value := nonNil tx.value
      v := nonNil tx.v
      r := nonNil tx.r
      s := nonNil tx.s }
  | accessList tx => accessList
    { tx with
      chainID := nonNil tx.chainID
      gasPrice := nonNil tx.gasPrice
      value := nonNil tx.value
      accessList := nonNilList tx.accessList
      v := nonNil tx.v
      r := nonNil tx.r
      s := nonNil tx.s }
  | dynamicFee tx => dynamicFee
    { tx with
      chainID := nonNil tx.chainID
      gasTipCap := nonNil tx.gasTipCap
      gasFeeCap := nonNil tx.gasFeeCap
      value := nonNil tx.value
      accessList := nonNilList tx.accessList
      v := nonNil tx.v
      r := nonNil tx.r
      s := nonNil tx.s }

theorem copy_copy (inner : EthTxData) : inner.copy.copy = inner.copy := by
  cases inner <;> rfl

end EthTxData

/-- Nothing in it is nil but the recipient of a creation. -/
structure Transaction where
  inner : EthTxData
  copied : inner.copy = inner

def newTx (inner : EthTxData) : Transaction where
  inner := inner.copy
  copied := inner.copy_copy

theorem Transaction.ext {tx tx' : Transaction} (h : tx.inner = tx'.inner) : tx = tx' := by
  cases tx
  cases tx'
  cases h
  rfl

namespace Transaction

variable (tx : Transaction)

def nonce : UInt64 :=
  match tx.inner with
  | .legacy tx => tx.nonce
  | .accessList tx => tx.nonce
  | .dynamicFee tx => tx.nonce

def gas : UInt64 :=
  match tx.inner with
  | .legacy tx => tx.gas
  | .accessList tx => tx.gas
  | .dynamicFee tx => tx.gas

def recipient : Option Address :=
  match tx.inner with
  | .legacy tx => tx.recipient
  | .accessList tx => tx.recipient
  | .dynamicFee tx => tx.recipient

def data : Bytes :=
  match tx.inner with
  | .legacy tx => tx.data
  | .accessList tx => tx.data
  | .dynamicFee tx => tx.data

def value : Option ℤ :=
  match tx.inner with
  | .legacy tx => tx.value
  | .accessList tx => tx.value
  | .dynamicFee tx => tx.value

/-- `GasPrice`, which is the fee cap. -/
def gasPrice : Option ℤ :=
  match tx.inner with
  | .legacy tx => tx.gasPrice
  | .accessList tx => tx.gasPrice
  | .dynamicFee tx => tx.gasFeeCap

def gasFeeCap : Option ℤ := tx.gasPrice

def gasTipCap : Option ℤ :=
  match tx.inner with
  | .legacy tx => tx.gasPrice
  | .accessList tx => tx.gasPrice
  | .dynamicFee tx => tx.gasTipCap

def accessList : Option EthAccessList :=
  match tx.inner with
  | .legacy _ => none
  | .accessList tx => tx.accessList
  | .dynamicFee tx => tx.accessList

/-- That of a legacy transaction is not modelled: `SetSignatureValues` takes no notice of it. -/
def chainId : Option ℤ :=
  match tx.inner with
  | .legacy _ => none
  | .accessList tx => tx.chainID
  | .dynamicFee tx => tx.chainID

def rawSignatureValues : Option ℕ × Option ℕ × Option ℕ :=
  match tx.inner with
  | .legacy tx => (tx.v, tx.r, tx.s)
  | .accessList tx => (tx.v, tx.r, tx.s)
  | .dynamicFee tx => (tx.v, tx.r, tx.s)

end Transaction

/-- `big.Int.Bytes`: as many bytes as there have to be. -/
def bigBytes (n : ℕ) : Bytes := beBytes (if n = 0 then 0 else n.log2 / 8 + 1) n

/-- What `SetSignatureValues` keeps of a signature value. -/
def signatureBytes (p : Option ℕ) : Bytes :=
  match p with
  | none => []
  | some n => bigBytes n

/-- What `RawSignatureValues` makes of it.
eth.go:37-48 -/
def rawSignatureValue (bz : Bytes) : Option ℕ := if 0 < bz.length then some (beNat bz) else none

def isValidInt256 (i : ℤ) : Bool := i.natAbs < 2 ^ 256

def safeNewIntFromBigInt (i : ℤ) : Except Err ℤ :=
  if isValidInt256 i then .ok i else .error (.errorf "big int out of bound: %s" [.num i])

/-- A pointer that is converted if it is not nil. -/
def safeNewInt (p : Option ℤ) : Except Err (Option ℤ) :=
  match p with
  | none => .ok none
  | some i => (safeNewIntFromBigInt i).map some

/-- In `SetSignatureValues` `sdkmath.NewIntFromBigInt` panics. -/
def signatureChainID (p : Option ℤ) : Except Err (Option ℤ) :=
  match p with
  | none => .ok none
  | some i =>
    if isValidInt256 i then .ok (some i) else .error (.panic "NewIntFromBigInt() out of bound")

/-! ## From a transaction to a message -/

section

variable (env : Env)

/-- `NewAccessList` of a list that is not nil. -/
def AccessTuple.newAccessList (ethAccessList : EthAccessList) : List AccessTuple :=
  ethAccessList.map fun tuple =>
    { address := addressHex env tuple.1, storageKeys := tuple.2.map hashHex }

/-- The recipient as it is written. -/
def writtenRecipient (recipient : Option Address) : Bytes :=
  match recipient with
  | none => []
  | some a => addressHex env a

/-- legacy_tx.go:17-47 -/
def newLegacyTx (tx : Transaction) : Except Err LegacyTx := do
  let (v, r, s) := tx.rawSignatureValues
  let amount ← safeNewInt tx.value
  let gasPrice ← safeNewInt tx.gasPrice
  return {
    nonce := tx.nonce
    gasPrice := gasPrice
    gasLimit := tx.gas
    recipient := writtenRecipient env tx.recipient
    amount := amount
    data := tx.data
    v := signatureBytes v
    r := signatureBytes r
    s := signatureBytes s }

/-- access_list_tx.go:18-53 -/
def newAccessListTx (tx : Transaction) : Except Err AccessListTx := do
  let (v, r, s) := tx.rawSignatureValues
  let amount ← safeNewInt tx.value
  let gasPrice ← safeNewInt tx.gasPrice
  let chainID ← signatureChainID tx.chainId
  return {
    chainID := chainID
    nonce := tx.nonce
    gasPrice := gasPrice
    gasLimit := tx.gas
    recipient := writtenRecipient env tx.recipient
    amount := amount
    data := tx.data
    accesses := tx.accessList.map (AccessTuple.newAccessList env)
    v := signatureBytes v
    r := signatureBytes r
    s := signatureBytes s }

/-- dynamic_fee_tx.go:18-61 -/
def newDynamicFeeTx (tx : Transaction) : Except Err DynamicFeeTx := do
  let (v, r, s) := tx.rawSignatureValues
  let amount ← safeNewInt tx.value
  let gasFeeCap ← safeNewInt tx.gasFeeCap
  let gasTipCap ← safeNewInt tx.gasTipCap
  let chainID ← signatureChainID tx.chainId
  return {
    chainID := chainID
    nonce := tx.nonce
    gasTipCap := gasTipCap
    gasFeeCap := gasFeeCap
    gasLimit := tx.gas
    recipient := writtenRecipient env tx.recipient
    amount := amount
    data := tx.data
    accesses := tx.accessList.map (AccessTuple.newAccessList env)
    v := signatureBytes v
    r := signatureBytes r
    s := signatureBytes s }

/-- tx_data.go:57-73 -/
def newTxDataFromTx (tx : Transaction) : Except Err TxData :=
  match tx.inner with
  | .dynamicFee _ => (newDynamicFeeTx env tx).map .dynamicFee
  | .accessList _ => (newAccessListTx env tx).map .accessList
  | .legacy _ => (newLegacyTx env tx).map .legacy

/-- `hash` gives the hash of a transaction. The data can always be packed. msg.go:135-149 -/
def MsgEthereumTx.fromEthereumTx (hash : Transaction → Hash) (msg : MsgEthereumTx)
    (tx : Transaction) : Except Err MsgEthereumTx := do
  let txData ← newTxDataFromTx env tx
  return { msg with data := .ok txData, hash := quote (hashHex (hash tx)) }

end

/-! ## From a message to a transaction -/

/-- An access list without elements is nil in the source, and is copied as an empty one. -/
def TxData.asEthereumData (txData : TxData) : EthTxData :=
  match txData with
  | .legacy tx => .legacy {
      nonce := tx.nonce
      gasPrice := tx.gasPrice
      gas := tx.gasLimit
      recipient := txData.getTo
      value := tx.amount
      data := tx.data
      v := rawSignatureValue tx.v
      r := rawSignatureValue tx.r
      s := rawSignatureValue tx.s }
  | .accessList tx => .accessList {
      chainID := tx.chainID
      nonce := tx.nonce
      gasPrice := tx.gasPrice
      gas := tx.gasLimit
      recipient := txData.getTo
      value := tx.amount
      data := tx.data
      accessList := tx.accesses.map toEthAccessList
      v := rawSignatureValue tx.v
      r := rawSignatureValue tx.r
      s := rawSignatureValue tx.s }
  | .dynamicFee tx => .dynamicFee {
      chainID := tx.chainID
      nonce := tx.nonce
      gasTipCap := tx.gasTipCap
      gasFeeCap := tx.gasFeeCap
      gas := tx.gasLimit
      recipient := txData.getTo
      value := tx.amount
      data := tx.data
      accessList := tx.accesses.map toEthAccessList
      v := rawSignatureValue tx.v
      r := rawSignatureValue tx.r
      s := rawSignatureValue tx.s }

/-- `AsTransaction`, nil if the data cannot be unpacked.
msg.go:286-293 -/
def MsgEthereumTx.asTransaction (msg : MsgEthereumTx) : Option Transaction :=
  match msg.data with
  | .error _ => none
  | .ok txData => some (newTx txData.asEthereumData)

end TacEvm
