import TacEvm.Library.Rlp
import TacEvm.Model.EthTransaction

/-!
# Transactions as bytes

A transaction is an RLP list of its fields, after a byte for its type unless it is a legacy one. A
negative number cannot be written, and `Hash` takes no notice of the error of the encoder.

SOURCE: x/vm/types/msg.go:317-324; go-ethereum `core/types`, `rlp`
-/

namespace TacEvm

def rlpNat (n : ℕ) : Rlp.Item := .bytes (Rlp.natBytes n)

/-- A number that is not negative; nil is written as zero. -/
def rlpInt (p : Option ℤ) : Rlp.Item := rlpNat (p.getD 0).toNat

def rlpAddress (a : Address) : Rlp.Item := .bytes (beBytes 20 a.toNat)

/-- `To`: nil is written as an empty string. -/
def rlpRecipient : Option Address → Rlp.Item
  | none => .bytes []
  | some a => rlpAddress a

def rlpAccessList (l : EthAccessList) : Rlp.Item :=
  .list (l.map fun tuple =>
    .list [rlpAddress tuple.1, .list (tuple.2.map fun key => .bytes (hashBytes key))])

namespace EthTxData

/-- The list of the fields, in the order of the structures. -/
def rlp : EthTxData → Rlp.Item
  | legacy tx => .list
    [rlpNat tx.nonce.toNat, rlpInt tx.gasPrice, rlpNat tx.gas.toNat, rlpRecipient tx.recipient,
      rlpInt tx.value, .bytes tx.data, rlpNat (tx.v.getD 0), rlpNat (tx.r.getD 0),
      rlpNat (tx.s.getD 0)]
  | accessList tx => .list
    [rlpInt tx.chainID, rlpNat tx.nonce.toNat, rlpInt tx.gasPrice, rlpNat tx.gas.toNat,
      rlpRecipient tx.recipient, rlpInt tx.value, .bytes tx.data,
      rlpAccessList (tx.accessList.getD []), rlpNat (tx.v.getD 0), rlpNat (tx.r.getD 0),
      rlpNat (tx.s.getD 0)]
  | dynamicFee tx => .list
    [rlpInt tx.chainID, rlpNat tx.nonce.toNat, rlpInt tx.gasTipCap, rlpInt tx.gasFeeCap,
      rlpNat tx.gas.toNat, rlpRecipient tx.recipient, rlpInt tx.value, .bytes tx.data,
      rlpAccessList (tx.accessList.getD []), rlpNat (tx.v.getD 0), rlpNat (tx.r.getD 0),
      rlpNat (tx.s.getD 0)]

/-- The byte of the type, which a legacy transaction does not have. -/
def typeBytes : EthTxData → Bytes
  | legacy _ => []
  | accessList _ => [1]
  | dynamicFee _ => [2]

/-- The numbers that could be negative. -/
def integers : EthTxData → List ℤ
  | legacy tx => [tx.gasPrice.getD 0, tx.value.getD 0]
  | accessList tx => [tx.chainID.getD 0, tx.gasPrice.getD 0, tx.value.getD 0]
  | dynamicFee tx =>
    [tx.chainID.getD 0, tx.gasTipCap.getD 0, tx.gasFeeCap.getD 0, tx.value.getD 0]

end EthTxData

namespace Transaction

variable (tx : Transaction)

/-- The encoder does not meet a negative number. -/
def Encodable : Prop := ∀ i ∈ tx.inner.integers, 0 ≤ i

instance : Decidable tx.Encodable :=
  inferInstanceAs (Decidable (∀ i ∈ tx.inner.integers, 0 ≤ i))

/-- `MarshalBinary` of a transaction that can be encoded. -/
def marshalBinary : Bytes := tx.inner.typeBytes ++ tx.inner.rlp.encode

/-- `rlpHash` of a legacy transaction, `prefixedRlpHash` of others. -/
def hashed : Bytes := tx.inner.typeBytes ++ if tx.Encodable then tx.inner.rlp.encode else []

end Transaction

/-- `Transaction.UnmarshalBinary`, a strict decoder. -/
structure Decoder where
  decode : Bytes → Except Err Transaction
  decode_ok : ∀ b tx, decode b = .ok tx ↔ b.length < 2 ^ 64 ∧ tx.Encodable ∧ b = tx.marshalBinary

/-- msg.go:317-324 -/
def MsgEthereumTx.unmarshalBinary (env : Env) (decoder : Decoder) (msg : MsgEthereumTx)
    (b : Bytes) : Except Err MsgEthereumTx := do
  let tx ← decoder.decode b
  msg.fromEthereumTx env (fun tx => env.keccak256 tx.hashed) tx

end TacEvm
