import TacEvm.Analysis.TxRoundTrip
import TacEvm.Model.EthEncoding

/-!
# Decoding transactions

The bytes of a transaction determine it, as long as none of its numbers is negative.
`UnmarshalBinary` converts its amounts with a check; the chain id of the two newer types is
converted by `SetSignatureValues`, which panics.
-/

namespace TacEvm

open FallibleState EthTxData

/-! ## Fields are read back -/

variable {n m : ℕ}

theorem rlpNat_inj (h : rlpNat n = rlpNat m) : n = m :=
  Rlp.natBytes_injective (Rlp.Item.bytes.inj h)

theorem rlpUInt64_inj {n m : UInt64} (h : rlpNat n.toNat = rlpNat m.toNat) : n = m :=
  UInt64.toNat_inj.1 (rlpNat_inj h)

variable {α : Type}

theorem nonNil_inj [Zero α] {p q : Option α} (hp : nonNil p = p) (hq : nonNil q = q)
    (h : p.getD 0 = q.getD 0) : p = q := by
  rw [← hp, ← hq, nonNil, nonNil, h]

theorem rlpInt_inj {p q : Option ℤ} (hp : nonNil p = p) (hq : nonNil q = q) (hp0 : 0 ≤ p.getD 0)
    (hq0 : 0 ≤ q.getD 0) (h : rlpInt p = rlpInt q) : p = q := by
  have htoNat := rlpNat_inj h
  exact nonNil_inj hp hq (by omega)

theorem rlpSignature_inj {p q : Option ℕ} (hp : nonNil p = p) (hq : nonNil q = q)
    (h : rlpNat (p.getD 0) = rlpNat (q.getD 0)) : p = q :=
  nonNil_inj hp hq (rlpNat_inj h)

theorem beBytes_inj {k : ℕ} (hn : n < 256 ^ k) (hm : m < 256 ^ k) (h : beBytes k n = beBytes k m) :
    n = m := by
  have hread := congrArg beNat h
  rwa [beNat_beBytes, beNat_beBytes, Nat.mod_eq_of_lt hn, Nat.mod_eq_of_lt hm] at hread

theorem rlpAddress_inj {a b : Address} (h : rlpAddress a = rlpAddress b) : a = b := by
  apply BitVec.eq_of_toNat_eq
  have ha : a.toNat < 256 ^ 20 := a.isLt.trans_eq (by norm_num)
  have hb : b.toNat < 256 ^ 20 := b.isLt.trans_eq (by norm_num)
  exact beBytes_inj ha hb (Rlp.Item.bytes.inj h)

theorem rlpRecipient_inj {p q : Option Address} (h : rlpRecipient p = rlpRecipient q) : p = q := by
  cases p with
  | none =>
    cases q with
    | none => rfl
    | some b =>
      have hlength := congrArg List.length (Rlp.Item.bytes.inj h)
      rw [length_beBytes] at hlength
      cases hlength
  | some a =>
    cases q with
    | none =>
      have hlength := congrArg List.length (Rlp.Item.bytes.inj h)
      rw [length_beBytes] at hlength
      cases hlength
    | some b => rw [rlpAddress_inj h]

theorem hashBytes_inj {a b : Hash} (h : hashBytes a = hashBytes b) : a = b := by
  rw [← bytesToHash_hashBytes a, h, bytesToHash_hashBytes]

theorem rlpAccessList_inj {l l' : EthAccessList} (h : rlpAccessList l = rlpAccessList l') :
    l = l' := by
  refine List.map_injective_iff.2 ?_ (Rlp.Item.list.inj h)
  rintro ⟨a, keys⟩ ⟨a', keys'⟩ htuple
  obtain ⟨haddress, hkeys, -⟩ : rlpAddress a = rlpAddress a' ∧ _ ∧ True := by
    simpa only [Rlp.Item.list.injEq, List.cons.injEq] using htuple
  have hsame : keys = keys' := by
    refine List.map_injective_iff.2 ?_ hkeys
    intro key key' hkey
    exact hashBytes_inj (Rlp.Item.bytes.inj hkey)
  rw [rlpAddress_inj haddress, hsame]

theorem rlpAccesses_inj {p q : Option EthAccessList} (hp : nonNilList p = p) (hq : nonNilList q = q)
    (h : rlpAccessList (p.getD []) = rlpAccessList (q.getD [])) : p = q := by
  rw [← hp, ← hq, nonNilList, nonNilList, rlpAccessList_inj h]

/-! ## Transactions are read back -/

namespace EthTxData

variable {a b : EthTxData}

/-- Every field is read back by the lemma for its type; the lists of two types differ in their
lengths. -/
theorem rlp_inj (ha : a.copy = a) (hb : b.copy = b) (ha0 : ∀ i ∈ a.integers, 0 ≤ i)
    (hb0 : ∀ i ∈ b.integers, 0 ≤ i) (h : a.rlp = b.rlp) : a = b := by
  cases a with
  | legacy a =>
    cases b with
    | legacy b =>
      obtain ⟨⟩ := a
      obtain ⟨⟩ := b
      simp only [copy, legacy.injEq, EthLegacyTx.mk.injEq, true_and] at ha hb ⊢
      simp only [integers, List.forall_mem_cons] at ha0 hb0
      simp only [rlp, Rlp.Item.list.injEq, List.cons.injEq] at h
      obtain ⟨hnonce, hprice, hgas, hto, hvalue, hdata, hv, hr, hs, -⟩ := h
      obtain ⟨haprice, havalue, hav, har, has⟩ := ha
      obtain ⟨hbprice, hbvalue, hbv, hbr, hbs⟩ := hb
      exact ⟨rlpUInt64_inj hnonce, rlpInt_inj haprice hbprice ha0.1 hb0.1 hprice,
        rlpUInt64_inj hgas, rlpRecipient_inj hto,
        rlpInt_inj havalue hbvalue ha0.2.1 hb0.2.1 hvalue, Rlp.Item.bytes.inj hdata,
        rlpSignature_inj hav hbv hv, rlpSignature_inj har hbr hr, rlpSignature_inj has hbs hs⟩
    | accessList b => simp [rlp] at h
    | dynamicFee b => simp [rlp] at h
  | accessList a =>
    cases b with
    | legacy b => simp [rlp] at h
    | accessList b =>
      obtain ⟨⟩ := a
      obtain ⟨⟩ := b
      simp only [copy, accessList.injEq, EthAccessListTx.mk.injEq, true_and] at ha hb ⊢
      simp only [integers, List.forall_mem_cons] at ha0 hb0
      simp only [rlp, Rlp.Item.list.injEq, List.cons.injEq] at h
      obtain ⟨hchain, hnonce, hprice, hgas, hto, hvalue, hdata, hlist, hv, hr, hs, -⟩ := h
      obtain ⟨hachain, haprice, havalue, halist, hav, har, has⟩ := ha
      obtain ⟨hbchain, hbprice, hbvalue, hblist, hbv, hbr, hbs⟩ := hb
      exact ⟨rlpInt_inj hachain hbchain ha0.1 hb0.1 hchain, rlpUInt64_inj hnonce,
        rlpInt_inj haprice hbprice ha0.2.1 hb0.2.1 hprice, rlpUInt64_inj hgas,
        rlpRecipient_inj hto, rlpInt_inj havalue hbvalue ha0.2.2.1 hb0.2.2.1 hvalue,
        Rlp.Item.bytes.inj hdata, rlpAccesses_inj halist hblist hlist,
        rlpSignature_inj hav hbv hv, rlpSignature_inj har hbr hr, rlpSignature_inj has hbs hs⟩
    | dynamicFee b => simp [rlp] at h
  | dynamicFee a =>
    cases b with
    | legacy b => simp [rlp] at h
    | accessList b => simp [rlp] at h
    | dynamicFee b =>
      obtain ⟨⟩ := a
      obtain ⟨⟩ := b
      simp only [copy, dynamicFee.injEq, EthDynamicFeeTx.mk.injEq, true_and] at ha hb ⊢
      simp only [integers, List.forall_mem_cons] at ha0 hb0
      simp only [rlp, Rlp.Item.list.injEq, List.cons.injEq] at h
      obtain ⟨hchain, hnonce, htip, hcap, hgas, hto, hvalue, hdata, hlist, hv, hr, hs, -⟩ := h
      obtain ⟨hachain, hatip, hacap, havalue, halist, hav, har, has⟩ := ha
      obtain ⟨hbchain, hbtip, hbcap, hbvalue, hblist, hbv, hbr, hbs⟩ := hb
      exact ⟨rlpInt_inj hachain hbchain ha0.1 hb0.1 hchain, rlpUInt64_inj hnonce,
        rlpInt_inj hatip hbtip ha0.2.1 hb0.2.1 htip,
        rlpInt_inj hacap hbcap ha0.2.2.1 hb0.2.2.1 hcap, rlpUInt64_inj hgas,
        rlpRecipient_inj hto, rlpInt_inj havalue hbvalue ha0.2.2.2.1 hb0.2.2.2.1 hvalue,
        Rlp.Item.bytes.inj hdata, rlpAccesses_inj halist hblist hlist,
        rlpSignature_inj hav hbv hv, rlpSignature_inj har hbr hr, rlpSignature_inj has hbs hs⟩

theorem rlp_eq_list (a : EthTxData) : ∃ items, a.rlp = .list items := by
  cases a with
  | legacy a => exact ⟨_, rfl⟩
  | accessList a => exact ⟨_, rfl⟩
  | dynamicFee a => exact ⟨_, rfl⟩

theorem typeBytes_cases (a : EthTxData) :
    a.typeBytes = [] ∨ ∃ t, a.typeBytes = [t] ∧ t.toNat < 128 := by
  cases a with
  | legacy a => exact .inl rfl
  | accessList a => exact .inr ⟨1, rfl, by decide⟩
  | dynamicFee a => exact .inr ⟨2, rfl, by decide⟩

/-- Nothing, or bytes that start with one from 128 on. -/
def Headed (bz : Bytes) : Prop := ∀ b rest, bz = b :: rest → 128 ≤ b.toNat

theorem headed_rlp (h : a.rlp.encode.length < 2 ^ 64) : Headed a.rlp.encode := by
  obtain ⟨items, heq⟩ := a.rlp_eq_list
  rw [heq] at h ⊢
  obtain ⟨first, more, hcons, hlarge⟩ := Rlp.encode_list_eq_cons h
  intro b rest hsame
  rw [hcons] at hsame
  cases hsame
  exact hlarge

theorem typeBytes_append_inj {x y : Bytes} (hx : Headed x) (hy : Headed y)
    (h : a.typeBytes ++ x = b.typeBytes ++ y) : a.typeBytes = b.typeBytes ∧ x = y := by
  rcases a.typeBytes_cases with ha | ⟨t, ha, ht⟩
  · rcases b.typeBytes_cases with hb | ⟨u, hb, hu⟩
    · rw [ha, hb] at h ⊢
      exact ⟨rfl, h⟩
    · rw [ha, hb] at h
      have := hx u y h
      omega
  · rcases b.typeBytes_cases with hb | ⟨u, hb, hu⟩
    · rw [ha, hb] at h
      have := hy t x h.symm
      omega
    · rw [ha, hb] at h ⊢
      obtain ⟨rfl, rfl⟩ := List.cons_eq_cons.1 h
      exact ⟨rfl, rfl⟩

end EthTxData

namespace Transaction

variable {tx tx' : Transaction}

theorem marshalBinary_inj (hsize : tx.marshalBinary.length < 2 ^ 64) (h0 : tx.Encodable)
    (h0' : tx'.Encodable) (h : tx.marshalBinary = tx'.marshalBinary) : tx = tx' := by
  have hsize' : tx'.marshalBinary.length < 2 ^ 64 := h ▸ hsize
  unfold marshalBinary at h hsize hsize'
  rw [List.length_append] at hsize hsize'
  have hlength : tx.inner.rlp.encode.length < 2 ^ 64 := by omega
  obtain ⟨-, hsame⟩ := typeBytes_append_inj (headed_rlp hlength) (headed_rlp (by omega)) h
  exact Transaction.ext (rlp_inj tx.copied tx'.copied h0 h0' (Rlp.encode_inj hlength hsame))

theorem hashed_of_encodable (h0 : tx.Encodable) : tx.hashed = tx.marshalBinary := by
  unfold hashed marshalBinary
  rw [if_pos h0]

/-- What is hashed determines a transaction that can be encoded. -/
theorem hashed_inj (hsize : tx.marshalBinary.length < 2 ^ 64) (h0 : tx.Encodable)
    (h : tx.hashed = tx'.hashed) : tx = tx' := by
  rw [hashed_of_encodable h0] at h
  by_cases h0' : tx'.Encodable
  · rw [hashed_of_encodable h0'] at h
    exact marshalBinary_inj hsize h0 h0' h
  have hshort : tx'.hashed = tx'.inner.typeBytes ++ [] := by
    unfold hashed
    rw [if_neg h0']
  have hlength : tx.inner.rlp.encode.length < 2 ^ 64 := by
    unfold marshalBinary at hsize
    rw [List.length_append] at hsize
    omega
  rw [hshort] at h
  obtain ⟨-, hnil⟩ := typeBytes_append_inj (headed_rlp hlength)
    (fun b rest hcons => by cases hcons) h
  exact absurd hnil (Rlp.encode_ne_nil _)

end Transaction

open Classical in
noncomputable def canonicalDecoder : Decoder where
  decode := fun b =>
    if h : ∃ tx : Transaction, b.length < 2 ^ 64 ∧ tx.Encodable ∧ b = tx.marshalBinary then
      .ok h.choose
    else .error (.new "transaction type not supported")
  decode_ok := by
    intro b tx
    constructor
    · intro h
      split at h
      · rename_i hexists
        cases h
        exact hexists.choose_spec
      · cases h
    · rintro ⟨hsize, h0, rfl⟩
      have hexists : ∃ tx' : Transaction, tx.marshalBinary.length < 2 ^ 64 ∧ tx'.Encodable ∧
          tx.marshalBinary = tx'.marshalBinary := ⟨tx, hsize, h0, rfl⟩
      obtain ⟨-, h0', hsame⟩ := hexists.choose_spec
      rw [dif_pos hexists, ← Transaction.marshalBinary_inj hsize h0 h0' hsame]

/-! ## Messages of decoded transactions -/

/-- The chain id, where a transaction has one of its own. -/
def EthTxData.chainIds : EthTxData → List ℤ
  | .legacy _ => []
  | .accessList tx => [tx.chainID.getD 0]
  | .dynamicFee tx => [tx.chainID.getD 0]

/-- The amounts and prices. -/
def EthTxData.amounts : EthTxData → List ℤ
  | .legacy tx => [tx.gasPrice.getD 0, tx.value.getD 0]
  | .accessList tx => [tx.gasPrice.getD 0, tx.value.getD 0]
  | .dynamicFee tx => [tx.gasTipCap.getD 0, tx.gasFeeCap.getD 0, tx.value.getD 0]

theorem EthTxData.integers_eq (a : EthTxData) : a.integers = a.chainIds ++ a.amounts := by
  cases a <;> rfl

section Conversion

variable {α : Type} {p : Option ℤ} {f : Option ℤ → Except Err α}

theorem safeNewInt_bind : (safeNewInt p >>= f) =
    if isValidInt256 (p.getD 0) then f p
    else .error (.errorf "big int out of bound: %s" [.num (p.getD 0)]) := by
  cases p with
  | none => rfl
  | some i =>
    dsimp only [safeNewInt, safeNewIntFromBigInt, Option.getD_some]
    by_cases hvalid : isValidInt256 i = true
    · rw [if_pos hvalid, if_pos hvalid]
      rfl
    · rw [if_neg hvalid, if_neg hvalid]
      rfl

theorem signatureChainID_bind : (signatureChainID p >>= f) =
    if isValidInt256 (p.getD 0) then f p
    else .error (.panic "NewIntFromBigInt() out of bound") := by
  cases p with
  | none => rfl
  | some i =>
    dsimp only [signatureChainID, Option.getD_some]
    by_cases hvalid : isValidInt256 i = true
    · rw [if_pos hvalid, if_pos hvalid]
      rfl
    · rw [if_neg hvalid, if_neg hvalid]
      rfl

end Conversion

/-- Data are made, or an amount is an error, or the chain id a panic. -/
inductive Converts (inner : EthTxData) {α : Type} (r : Except Err α) : Prop
  | data (a : α) (h : r = .ok a) (hamounts : ∀ i ∈ inner.amounts, isValidInt256 i = true)
      (hchain : ∀ i ∈ inner.chainIds, isValidInt256 i = true)
  | refused (e : Err) (h : r = .error e) (hvalue : e.IsValue)
      (hamount : ∃ i ∈ inner.amounts, isValidInt256 i = false)
  | panics (text : String) (h : r = .error (.panic text))
      (hamounts : ∀ i ∈ inner.amounts, isValidInt256 i = true)
      (hchain : ∃ i ∈ inner.chainIds, isValidInt256 i = false)

variable {inner : EthTxData} {i : ℤ} {r : Except Err α}

theorem Converts.amount (hmem : i ∈ inner.amounts) (h : isValidInt256 i = true → Converts inner r) :
    Converts inner (if isValidInt256 i then r
      else .error (.errorf "big int out of bound: %s" [.num i])) := by
  by_cases hvalid : isValidInt256 i = true
  · rw [if_pos hvalid]
    exact h hvalid
  · rw [if_neg hvalid]
    refine .refused _ rfl (fun text => ?_) ⟨i, hmem, by simpa using hvalid⟩
    intro hpanic
    cases hpanic

theorem Converts.chainId {a : α} (hchain : inner.chainIds = [i])
    (hamounts : ∀ i ∈ inner.amounts, isValidInt256 i = true) :
    Converts inner (if isValidInt256 i then .ok a
      else .error (.panic "NewIntFromBigInt() out of bound")) := by
  by_cases hvalid : isValidInt256 i = true
  · rw [if_pos hvalid]
    refine .data a rfl hamounts ?_
    rw [hchain]
    intro j hj
    rw [List.mem_singleton.1 hj, hvalid]
  · rw [if_neg hvalid]
    refine .panics _ rfl hamounts ⟨i, ?_, by simpa using hvalid⟩
    rw [hchain]
    exact List.mem_singleton_self i

theorem Converts.map {β : Type} (h : Converts inner r) (f : α → β) : Converts inner (r.map f) := by
  rcases h with ⟨a, rfl, hamounts, hchain⟩ | ⟨e, rfl, hvalue, hamount⟩ |
    ⟨text, rfl, hamounts, hchain⟩
  · exact .data (f a) rfl hamounts hchain
  · exact .refused e rfl hvalue hamount
  · exact .panics text rfl hamounts hchain

theorem newLegacyTx_converts (env : Env) (tx : Transaction) {t : EthLegacyTx}
    (ht : tx.inner = .legacy t) : Converts tx.inner (newLegacyTx env tx) := by
  simp only [newLegacyTx, safeNewInt_bind, Transaction.value, Transaction.gasPrice, ht]
  refine Converts.amount (by simp [amounts]) fun hv => ?_
  refine Converts.amount (by simp [amounts]) fun hp => ?_
  refine .data _ rfl ?_ ?_
  · simp [amounts, hv, hp]
  · simp [chainIds]

theorem newAccessListTx_converts (env : Env) (tx : Transaction) {t : EthAccessListTx}
    (ht : tx.inner = .accessList t) : Converts tx.inner (newAccessListTx env tx) := by
  simp only [newAccessListTx, safeNewInt_bind, signatureChainID_bind, Transaction.value,
    Transaction.gasPrice, Transaction.chainId, ht]
  refine Converts.amount (by simp [amounts]) fun hv => ?_
  refine Converts.amount (by simp [amounts]) fun hp => ?_
  refine Converts.chainId rfl ?_
  simp [amounts, hv, hp]

theorem newDynamicFeeTx_converts (env : Env) (tx : Transaction) {t : EthDynamicFeeTx}
    (ht : tx.inner = .dynamicFee t) : Converts tx.inner (newDynamicFeeTx env tx) := by
  simp only [newDynamicFeeTx, safeNewInt_bind, signatureChainID_bind, Transaction.value,
    Transaction.gasFeeCap, Transaction.gasPrice, Transaction.gasTipCap, Transaction.chainId, ht]
  refine Converts.amount (by simp [amounts]) fun hv => ?_
  refine Converts.amount (by simp [amounts]) fun hf => ?_
  refine Converts.amount (by simp [amounts]) fun hp => ?_
  refine Converts.chainId rfl ?_
  simp [amounts, hv, hf, hp]

theorem newTxDataFromTx_converts (env : Env) (tx : Transaction) :
    Converts tx.inner (newTxDataFromTx env tx) := by
  unfold newTxDataFromTx
  cases ht : tx.inner with
  | legacy t =>
    have hdata := (newLegacyTx_converts env tx ht).map TxData.legacy
    rwa [ht] at hdata
  | accessList t =>
    have hdata := (newAccessListTx_converts env tx ht).map TxData.accessList
    rwa [ht] at hdata
  | dynamicFee t =>
    have hdata := (newDynamicFeeTx_converts env tx ht).map TxData.dynamicFee
    rwa [ht] at hdata

/-- A message, or an error because a number does not fit. -/
def ReturnsNormally (tx : Transaction) (r : Except Err MsgEthereumTx) : Prop :=
  (∃ msg, r = .ok msg) ∨
    ∃ e, r = .error e ∧ e.IsValue ∧ ∃ i ∈ tx.inner.integers, isValidInt256 i = false

/-- Decoding returns just when the chain id fits, or an amount fails first. -/
theorem unmarshalBinary_returns_iff (env : Env) (decoder : Decoder) (msg : MsgEthereumTx)
    (b : Bytes) (tx : Transaction) (h : decoder.decode b = .ok tx) :
    ReturnsNormally tx (msg.unmarshalBinary env decoder b) ↔
      (∀ i ∈ tx.inner.chainIds, isValidInt256 i = true) ∨
        ∃ i ∈ tx.inner.amounts, isValidInt256 i = false := by
  have hrun : msg.unmarshalBinary env decoder b =
      (newTxDataFromTx env tx).map fun txData =>
        { msg with data := .ok txData, hash := quote (hashHex (env.keccak256 tx.hashed)) } := by
    unfold MsgEthereumTx.unmarshalBinary MsgEthereumTx.fromEthereumTx
    rw [h]
    show (newTxDataFromTx env tx >>= fun txData => pure _) = _
    cases newTxDataFromTx env tx with
    | error e => rfl
    | ok txData => rfl
  rw [hrun]
  rcases (newTxDataFromTx_converts env tx).map _ with ⟨m, hok, hamounts, hchain⟩ |
    ⟨e, herror, hvalue, i, hi, hinvalid⟩ | ⟨text, hpanic, hamounts, i, hi, hinvalid⟩
  · rw [hok]
    exact iff_of_true (.inl ⟨m, rfl⟩) (.inl hchain)
  · rw [herror]
    refine iff_of_true (.inr ⟨e, rfl, hvalue, i, ?_, hinvalid⟩) (.inr ⟨i, hi, hinvalid⟩)
    rw [EthTxData.integers_eq]
    exact List.mem_append_right _ hi
  · rw [hpanic]
    refine iff_of_false ?_ ?_
    · rintro (⟨m, hok⟩ | ⟨e, herror, hvalue, -⟩)
      · cases hok
      · cases herror
        exact hvalue text rfl
    · rintro (hchain | ⟨j, hj, hlarge⟩)
      · rw [hchain i hi] at hinvalid
        cases hinvalid
      · rw [hamounts j hj] at hlarge
        cases hlarge

namespace Devnet

/-- A call of the contract `0xC1` on a chain with this id. -/
def chainTx (chainID : ℤ) : Transaction := newTx <| .dynamicFee {
  chainID := some chainID
  nonce := 0
  gasTipCap := some 1
  gasFeeCap := some 1
  gas := 21000
  recipient := some 0xC1
  value := some 0
  data := []
  accessList := some []
  v := some 0
  r := some 1
  s := some 1 }

/-- What `UnmarshalBinary` is called on. -/
def emptyMsg : MsgEthereumTx := { data := .error .nilDereference, sender := [], hash := "" }

end Devnet

open Devnet

theorem decode_chainTx {chainID : ℤ} (hsize : (chainTx chainID).marshalBinary.length < 2 ^ 64)
    (hnonneg : 0 ≤ chainID) :
    canonicalDecoder.decode (chainTx chainID).marshalBinary = .ok (chainTx chainID) := by
  refine (canonicalDecoder.decode_ok _ _).2 ⟨hsize, ?_, rfl⟩
  show ∀ i ∈ [chainID, 1, 1, 0], 0 ≤ i
  simpa using hnonneg

theorem unmarshalBinary_returns_devnet :
    ReturnsNormally (chainTx 9001)
      (emptyMsg.unmarshalBinary env18 canonicalDecoder (chainTx 9001).marshalBinary) := by
  have hdecode := @decode_chainTx 9001 (by decide +kernel) (by decide)
  rw [unmarshalBinary_returns_iff _ _ _ _ _ hdecode]
  refine .inl ?_
  decide

/-- **A chain id of 257 bits**: the conversion panics. -/
theorem unmarshalBinary_panics :
    canonicalDecoder.decode (chainTx (2 ^ 256)).marshalBinary = .ok (chainTx (2 ^ 256)) ∧
      emptyMsg.unmarshalBinary env18 canonicalDecoder (chainTx (2 ^ 256)).marshalBinary =
        .error (.panic "NewIntFromBigInt() out of bound") := by
  have hdecode := @decode_chainTx (2 ^ 256) (by decide +kernel) (by decide)
  refine ⟨hdecode, ?_⟩
  unfold MsgEthereumTx.unmarshalBinary
  rw [hdecode]
  rfl

end TacEvm
