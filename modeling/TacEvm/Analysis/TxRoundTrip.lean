import TacEvm.Model.Devnet
import TacEvm.Model.EthTransaction

/-!
# A transaction is carried without loss

Addresses, hashes, signature values and numbers of at most 256 bits are read back as they were
written, so the transaction of a message is the one it was made from.
-/

namespace TacEvm

open FallibleState

variable {env : Env}

theorem beNat_bigBytes (n : ℕ) : beNat (bigBytes n) = n := by
  rw [bigBytes, beNat_beBytes]
  split
  · rename_i hzero
    rw [hzero, Nat.zero_mod]
  refine Nat.mod_eq_of_lt ?_
  have hlog : n < 2 ^ (n.log2 + 1) := Nat.lt_log2_self
  have hle : n.log2 + 1 ≤ 8 * (n.log2 / 8 + 1) := by omega
  calc n < 2 ^ (n.log2 + 1) := hlog
    _ ≤ 2 ^ (8 * (n.log2 / 8 + 1)) := Nat.pow_le_pow_right (by decide) hle
    _ = 256 ^ (n.log2 / 8 + 1) := by rw [pow_mul]; rfl

theorem nonNil_rawSignatureValue (p : Option ℕ) :
    nonNil (rawSignatureValue (signatureBytes p)) = nonNil p := by
  cases p with
  | none => rfl
  | some n =>
    have hread := beNat_bigBytes n
    show nonNil (rawSignatureValue (bigBytes n)) = some n
    unfold rawSignatureValue
    split
    · rw [hread]
      rfl
    have hempty : bigBytes n = [] := List.length_eq_zero_iff.mp (by omega)
    rw [hempty] at hread
    rw [← hread]
    rfl

theorem getTo_writtenRecipient (txData : TxData) (recipient : Option Address)
    (h : txData.recipient = writtenRecipient env recipient) : txData.getTo = recipient := by
  rw [TxData.getTo, h]
  cases recipient with
  | none => rfl
  | some a =>
    have hne : writtenRecipient env (some a) ≠ [] := List.cons_ne_nil _ _
    rw [if_neg hne, writtenRecipient, hexToAddress_addressHex]

theorem toEthAccessList_newAccessList (al : EthAccessList) :
    toEthAccessList (AccessTuple.newAccessList env al) = al := by
  rw [toEthAccessList, AccessTuple.newAccessList, List.map_map]
  refine (List.map_congr_left fun tuple _ => ?_).trans (List.map_id al)
  have hkeys : (tuple.2.map hashHex).map (fun key => bytesToHash (fromHex key)) = tuple.2 := by
    rw [List.map_map]
    refine (List.map_congr_left fun key _ => ?_).trans (List.map_id tuple.2)
    exact hexToHash_hashHex key
  rw [Function.comp_apply, hexToAddress_addressHex, hkeys]
  rfl

theorem map_toEthAccessList (al : Option EthAccessList) :
    (al.map (AccessTuple.newAccessList env)).map toEthAccessList = al := by
  have hinv : toEthAccessList ∘ AccessTuple.newAccessList env = id :=
    funext toEthAccessList_newAccessList
  rw [Option.map_map, hinv, Option.map_id, id_eq]

/-- Not negative, and of at most 256 bits. -/
def Fits (p : Option ℤ) : Prop := 0 ≤ p.getD 0 ∧ p.getD 0 < 2 ^ 256

instance (p : Option ℤ) : Decidable (Fits p) := inferInstanceAs (Decidable (_ ∧ _))

theorem Fits.isValidInt256 {i : ℤ} (h : Fits (some i)) : isValidInt256 i = true := by
  obtain ⟨hnonneg, hlt⟩ := h
  rw [Option.getD_some] at hnonneg hlt
  unfold TacEvm.isValidInt256
  rw [decide_eq_true_eq]
  omega

theorem Fits.safeNewInt {p : Option ℤ} (h : Fits p) : safeNewInt p = .ok p := by
  cases p with
  | none => rfl
  | some i =>
    simp only [TacEvm.safeNewInt, safeNewIntFromBigInt, h.isValidInt256, if_true]
    rfl

theorem Fits.signatureChainID {p : Option ℤ} (h : Fits p) : signatureChainID p = .ok p := by
  cases p with
  | none => rfl
  | some i => simp only [TacEvm.signatureChainID, h.isValidInt256, if_true]

/-- The value, the prices and the chain id of a transaction. -/
structure Transaction.Fits (tx : Transaction) : Prop where
  value : TacEvm.Fits tx.value
  gasPrice : TacEvm.Fits tx.gasPrice
  gasTipCap : TacEvm.Fits tx.gasTipCap
  chainId : TacEvm.Fits tx.chainId

/-- **The data of a message** are a copy of the transaction. -/
theorem newTxDataFromTx_copy {tx : Transaction} (h : tx.Fits) :
    ∃ txData, newTxDataFromTx env tx = .ok txData ∧ txData.asEthereumData.copy = tx.inner.copy := by
  obtain ⟨inner, hcopied⟩ := tx
  have hcap : Fits (Transaction.mk inner hcopied).gasFeeCap := h.gasPrice
  cases inner with
  | legacy t =>
    refine ⟨.legacy ?_, except_map_ok.mpr ⟨_, ?_, rfl⟩, ?_⟩
    rotate_left
    · rw [newLegacyTx, h.value.safeNewInt, h.gasPrice.safeNewInt]
      rfl
    simp only [TxData.asEthereumData, EthTxData.copy, nonNil_rawSignatureValue]
    rw [@getTo_writtenRecipient env _ t.recipient rfl]
    rfl
  | accessList t =>
    refine ⟨.accessList ?_, except_map_ok.mpr ⟨_, ?_, rfl⟩, ?_⟩
    rotate_left
    · rw [newAccessListTx, h.value.safeNewInt, h.gasPrice.safeNewInt, h.chainId.signatureChainID]
      rfl
    simp only [TxData.asEthereumData, EthTxData.copy, nonNil_rawSignatureValue, map_toEthAccessList]
    rw [@getTo_writtenRecipient env _ t.recipient rfl]
    rfl
  | dynamicFee t =>
    refine ⟨.dynamicFee ?_, except_map_ok.mpr ⟨_, ?_, rfl⟩, ?_⟩
    rotate_left
    · rw [newDynamicFeeTx, h.value.safeNewInt, hcap.safeNewInt, h.gasTipCap.safeNewInt,
        h.chainId.signatureChainID]
      rfl
    simp only [TxData.asEthereumData, EthTxData.copy, nonNil_rawSignatureValue, map_toEthAccessList]
    rw [@getTo_writtenRecipient env _ t.recipient rfl]
    rfl

/-- **A transaction is carried without loss.** -/
theorem asTransaction_fromEthereumTx (hash : Transaction → Hash) (msg : MsgEthereumTx)
    {tx : Transaction} (h : tx.Fits) :
    ∃ msg', msg.fromEthereumTx env hash tx = .ok msg' ∧ msg'.asTransaction = some tx ∧
      msg'.hash = quote (hashHex (hash tx)) := by
  obtain ⟨txData, hdata, hcopy⟩ := @newTxDataFromTx_copy env tx h
  have hinner := hcopy.trans tx.copied
  refine ⟨_, except_bind_ok.mpr ⟨txData, hdata, rfl⟩, ?_, rfl⟩
  exact congrArg some (Transaction.ext hinner)

namespace Devnet

/-- An unsigned creation with a tip and an access list. -/
def unsignedTx : Transaction := newTx <| .dynamicFee {
  chainID := some 9001
  nonce := 3
  gasTipCap := some 2
  gasFeeCap := some 7
  gas := 90000
  recipient := none
  value := none
  data := [1, 2, 0]
  accessList := some [(0xC0, [1, 0]), (0xA1, [])]
  v := none
  r := none
  s := none }

end Devnet

/-- A creation that is not signed. -/
theorem asTransaction_fromEthereumTx_unsigned :
    ∃ msg', MsgEthereumTx.fromEthereumTx Devnet.env18 (fun _ => 0)
        { data := .error .nilDereference, sender := [], hash := "" } Devnet.unsignedTx = .ok msg' ∧
      msg'.asTransaction = some Devnet.unsignedTx := by
  obtain ⟨msg', hmsg, htx, -⟩ := @asTransaction_fromEthereumTx Devnet.env18
    (fun _ => 0) { data := .error .nilDereference, sender := [], hash := "" }
    Devnet.unsignedTx ⟨by decide, by decide, by decide, by decide⟩
  exact ⟨msg', hmsg, htx⟩

end TacEvm
