import TacEvm.Model.Hex

/-!
# Ethereum transactions

The three types of transactions as the messages carry them. A nil price is dereferenced as soon as a
fee is computed; the getters return an `Option` and the fees an `Except`.

SOURCE: x/vm/types (tx_data.go, legacy_tx.go, access_list_tx.go, dynamic_fee_tx.go, access_list.go)
-/

namespace TacEvm

structure AccessTuple where
  address : Bytes
  storageKeys : List Bytes
  deriving DecidableEq

/-- `ethtypes.AccessList`. -/
abbrev EthAccessList := List (Address × List Hash)

def toEthAccessList (al : List AccessTuple) : EthAccessList :=
  al.map fun tuple =>
    (hexToAddress tuple.address, tuple.storageKeys.map fun key => bytesToHash (fromHex key))

structure LegacyTx where
  nonce : UInt64
  gasPrice : Option ℤ
  gasLimit : UInt64
  /-- `To`, empty for a creation. -/
  recipient : Bytes
  amount : Option ℤ
  data : Bytes
  v : Bytes
  r : Bytes
  s : Bytes
  deriving DecidableEq

structure AccessListTx where
  chainID : Option ℤ
  nonce : UInt64
  gasPrice : Option ℤ
  gasLimit : UInt64
  /-- `To`, empty for a creation. -/
  recipient : Bytes
  amount : Option ℤ
  data : Bytes
  accesses : Option (List AccessTuple)
  v : Bytes
  r : Bytes
  s : Bytes
  deriving DecidableEq

structure DynamicFeeTx where
  chainID : Option ℤ
  nonce : UInt64
  gasTipCap : Option ℤ
  gasFeeCap : Option ℤ
  gasLimit : UInt64
  /-- `To`, empty for a creation. -/
  recipient : Bytes
  amount : Option ℤ
  data : Bytes
  accesses : Option (List AccessTuple)
  v : Bytes
  r : Bytes
  s : Bytes
  deriving DecidableEq

inductive TxData
  | legacy (tx : LegacyTx)
  | accessList (tx : AccessListTx)
  | dynamicFee (tx : DynamicFeeTx)
  deriving DecidableEq

/-- A nil pointer is dereferenced. -/
def deref (p : Option ℤ) : Except Err ℤ :=
  match p with
  | some n => .ok n
  | none => .error .nilDereference

def fee (gasPrice : Option ℤ) (gas : UInt64) : Except Err ℤ :=
  (deref gasPrice).map fun gasPrice => gasPrice * gas.toNat

def cost (fee : ℤ) (value : Option ℤ) : ℤ := fee + value.getD 0

/-- x/vm/types/utils.go:132-134 -/
def effectiveGasPrice (baseFee feeCap tipCap : ℤ) : ℤ := min (tipCap + baseFee) feeCap

namespace TxData

variable (txData : TxData)

/-- Whether `TxType` is `ethtypes.DynamicFeeTxType`. -/
def isDynamicFee : Bool :=
  match txData with
  | dynamicFee _ => true
  | _ => false

def getNonce : UInt64 :=
  match txData with
  | legacy tx => tx.nonce
  | accessList tx => tx.nonce
  | dynamicFee tx => tx.nonce

def getGas : UInt64 :=
  match txData with
  | legacy tx => tx.gasLimit
  | accessList tx => tx.gasLimit
  | dynamicFee tx => tx.gasLimit

/-- `GetGasFeeCap`, which is also `GetGasPrice`. -/
def getGasFeeCap : Option ℤ :=
  match txData with
  | legacy tx => tx.gasPrice
  | accessList tx => tx.gasPrice
  | dynamicFee tx => tx.gasFeeCap

def getGasTipCap : Option ℤ :=
  match txData with
  | legacy tx => tx.gasPrice
  | accessList tx => tx.gasPrice
  | dynamicFee tx => tx.gasTipCap

def getValue : Option ℤ :=
  match txData with
  | legacy tx => tx.amount
  | accessList tx => tx.amount
  | dynamicFee tx => tx.amount

/-- The recipient as it is written. -/
def recipient : Bytes :=
  match txData with
  | legacy tx => tx.recipient
  | accessList tx => tx.recipient
  | dynamicFee tx => tx.recipient

/-- Without a recipient a contract is created. -/
def getTo : Option Address :=
  if txData.recipient = [] then none else some (hexToAddress txData.recipient)

def getData : Bytes :=
  match txData with
  | legacy tx => tx.data
  | accessList tx => tx.data
  | dynamicFee tx => tx.data

/-- `GetAccessList`; nil and empty lists are not told apart. -/
def getAccessList : EthAccessList :=
  match txData with
  | legacy _ => []
  | accessList tx => toEthAccessList (tx.accesses.getD [])
  | dynamicFee tx => toEthAccessList (tx.accesses.getD [])

/-- `Fee`, the most the sender is willing to pay. -/
def fee : Except Err ℤ := TacEvm.fee txData.getGasFeeCap txData.getGas

def cost : Except Err ℤ := txData.fee.map fun fee => TacEvm.cost fee txData.getValue

/-- The price of the types without a tip does not depend on the base fee. -/
def effectiveGasPrice (baseFee : Option ℤ) : Except Err ℤ :=
  match txData with
  | legacy tx => deref tx.gasPrice
  | accessList tx => deref tx.gasPrice
  | dynamicFee tx => do
    let feeCap ← deref tx.gasFeeCap
    let tipCap ← deref tx.gasTipCap
    let baseFee ← deref baseFee
    return TacEvm.effectiveGasPrice baseFee feeCap tipCap

def effectiveFee (baseFee : Option ℤ) : Except Err ℤ :=
  (txData.effectiveGasPrice baseFee).map fun gasPrice => gasPrice * txData.getGas.toNat

end TxData

/-! ## The message of the EVM -/

structure Message where
  sender : Address
  recipient : Option Address
  nonce : UInt64
  value : ℤ
  gas : UInt64
  gasPrice : ℤ
  gasFeeCap : ℤ
  gasTipCap : ℤ
  data : Bytes
  accessList : EthAccessList

/-- The price of a message: with a base fee the effective one. -/
def messageGasPrice (baseFee : Option ℤ) (feeCap tipCap : ℤ) : ℤ :=
  match baseFee with
  | none => feeCap
  | some baseFee => effectiveGasPrice baseFee feeCap tipCap

/-- `AsMessage` once the sender is known; zero in place of nil. -/
def TxData.asMessage (txData : TxData) (sender : Address) (baseFee : Option ℤ) : Message where
  sender := sender
  recipient := txData.getTo
  nonce := txData.getNonce
  value := txData.getValue.getD 0
  gas := txData.getGas
  gasPrice :=
    messageGasPrice baseFee (txData.getGasFeeCap.getD 0) (txData.getGasTipCap.getD 0)
  gasFeeCap := txData.getGasFeeCap.getD 0
  gasTipCap := txData.getGasTipCap.getD 0
  data := txData.getData
  accessList := txData.getAccessList

theorem deref_ok {p : Option ℤ} {n : ℤ} : deref p = .ok n ↔ p = some n := by
  cases p with
  | none => exact iff_of_false (by simp [deref]) (by simp)
  | some q => simp [deref]

theorem messageGasPrice_flat {baseFee : Option ℤ} (hbase : ∀ b, baseFee = some b → 0 ≤ b) (p : ℤ) :
    messageGasPrice baseFee p p = p := by
  cases baseFee with
  | none => rfl
  | some b =>
    have hnonneg := hbase b rfl
    simp only [messageGasPrice, effectiveGasPrice]
    omega

/-- **The two prices agree** where the fee can be computed.
dynamic_fee_tx.go, legacy_tx.go; go-ethereum `AsMessage` -/
theorem TxData.asMessage_gasPrice {txData : TxData} {baseFee : Option ℤ} {p : ℤ}
    (hbase : ∀ b, baseFee = some b → 0 ≤ b) (h : txData.effectiveGasPrice baseFee = .ok p)
    (sender : Address) : (txData.asMessage sender baseFee).gasPrice = p := by
  cases txData with
  | legacy tx =>
    have hprice : tx.gasPrice = some p := deref_ok.mp h
    simp only [asMessage, getGasFeeCap, getGasTipCap, hprice, Option.getD_some]
    exact messageGasPrice_flat hbase p
  | accessList tx =>
    have hprice : tx.gasPrice = some p := deref_ok.mp h
    simp only [asMessage, getGasFeeCap, getGasTipCap, hprice, Option.getD_some]
    exact messageGasPrice_flat hbase p
  | dynamicFee tx =>
    simp only [TxData.effectiveGasPrice] at h
    cases hcap : tx.gasFeeCap with
    | none =>
      rw [hcap] at h
      cases h
    | some cap =>
      cases htip : tx.gasTipCap with
      | none =>
        rw [hcap, htip] at h
        cases h
      | some tip =>
        cases baseFee with
        | none =>
          rw [hcap, htip] at h
          cases h
        | some b =>
          rw [hcap, htip] at h
          cases h
          simp only [asMessage, getGasFeeCap, getGasTipCap, hcap, htip, Option.getD_some]
          rfl

end TacEvm
