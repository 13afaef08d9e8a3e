import TacEvm.Analysis.TxEncoding
import TacEvm.Analysis.TxEvents

/-!
# What the hash of a message says

`ValidateBasic` compares hashes, and the bytes that are hashed determine a transaction without
negative numbers. A negative chain id passes, and all such transactions of one type have the same
hash.
-/

namespace TacEvm

open FallibleState

/-! ## What the validation leaves -/

theorem validateAmount_ok {amount : Option ℤ} (h : validateAmount amount = .ok ()) :
    0 ≤ amount.getD 0 := by
  obtain ⟨_, hsign, -⟩ := except_bind_ok.1 h
  exact not_lt.1 (refuseIf_ok hsign)

namespace TxData

variable {d d' : TxData}

/-- The transaction of the data. -/
def transaction (d : TxData) : Transaction := newTx d.asEthereumData

/-- What the validation of the fields gives. -/
theorem validate_ok (h : d.validate = .ok ()) :
    ∃ cap tip, d.getGasFeeCap = some cap ∧ d.getGasTipCap = some tip ∧ 0 ≤ cap ∧ 0 ≤ tip ∧
      0 ≤ d.getValue.getD 0 := by
  cases d with
  | legacy tx =>
    change tx.validate = _ at h
    unfold LegacyTx.validate at h
    split at h
    · cases h
    rename_i price hprice
    obtain ⟨_, hsign, h⟩ := except_bind_ok.1 h
    obtain ⟨_, -, h⟩ := except_bind_ok.1 h
    obtain ⟨_, -, h⟩ := except_bind_ok.1 h
    obtain ⟨_, hamount, -⟩ := except_bind_ok.1 h
    have hnonneg := not_lt.1 (refuseIf_ok hsign)
    exact ⟨price, price, hprice, hprice, hnonneg, hnonneg, validateAmount_ok hamount⟩
  | accessList tx =>
    change tx.validate = _ at h
    unfold AccessListTx.validate at h
    split at h
    · cases h
    rename_i price hprice
    obtain ⟨_, -, h⟩ := except_bind_ok.1 h
    obtain ⟨_, hsign, h⟩ := except_bind_ok.1 h
    obtain ⟨_, hamount, -⟩ := except_bind_ok.1 h
    have hnonneg := not_lt.1 (refuseIf_ok hsign)
    exact ⟨price, price, hprice, hprice, hnonneg, hnonneg, validateAmount_ok hamount⟩
  | dynamicFee tx =>
    change tx.validate = _ at h
    unfold DynamicFeeTx.validate at h
    split at h
    · cases h
    · cases h
    rename_i tip cap htip hcap
    obtain ⟨_, htipSign, h⟩ := except_bind_ok.1 h
    obtain ⟨_, hcapSign, h⟩ := except_bind_ok.1 h
    obtain ⟨_, -, h⟩ := except_bind_ok.1 h
    obtain ⟨_, -, h⟩ := except_bind_ok.1 h
    obtain ⟨_, -, h⟩ := except_bind_ok.1 h
    obtain ⟨_, -, h⟩ := except_bind_ok.1 h
    obtain ⟨_, hamount, -⟩ := except_bind_ok.1 h
    exact ⟨cap, tip, hcap, htip, not_lt.1 (refuseIf_ok hcapSign),
      not_lt.1 (refuseIf_ok htipSign), validateAmount_ok hamount⟩

theorem amounts_nonneg (h : d.validate = .ok ()) : ∀ i ∈ d.transaction.inner.amounts, 0 ≤ i := by
  obtain ⟨cap, tip, hcap, htip, hcapNonneg, htipNonneg, hvalue⟩ := validate_ok h
  have hfeeCap : 0 ≤ d.getGasFeeCap.getD 0 := by rwa [hcap]
  have htipCap : 0 ≤ d.getGasTipCap.getD 0 := by rwa [htip]
  have hprices := List.forall_mem_cons.2 ⟨hfeeCap, List.forall_mem_singleton.2 hvalue⟩
  cases d with
  | legacy tx => exact hprices
  | accessList tx => exact hprices
  | dynamicFee tx =>
    exact List.forall_mem_cons.2 ⟨htipCap, hprices⟩

theorem encodable_iff (h : d.validate = .ok ()) :
    d.transaction.Encodable ↔ ∀ i ∈ d.transaction.inner.chainIds, 0 ≤ i := by
  have hamounts := amounts_nonneg h
  unfold Transaction.Encodable
  rw [EthTxData.integers_eq]
  constructor
  · intro hall i hi
    exact hall i (List.mem_append_left _ hi)
  · intro hchain i hi
    rcases List.mem_append.1 hi with hi | hi
    · exact hchain i hi
    · exact hamounts i hi

/-- What data say of the fees. -/
structure SameFees (d d' : TxData) : Prop where
  gas : d.getGas = d'.getGas
  fee : d.fee = d'.fee
  cost : d.cost = d'.cost
  effectiveFee : ∀ baseFee, d.effectiveFee baseFee = d'.effectiveFee baseFee

theorem effectiveGasPrice_eq (d : TxData) (baseFee : Option ℤ) :
    d.effectiveGasPrice baseFee =
      if d.isDynamicFee then do
        let feeCap ← deref d.getGasFeeCap
        let tipCap ← deref d.getGasTipCap
        let baseFee ← deref baseFee
        return TacEvm.effectiveGasPrice baseFee feeCap tipCap
      else deref d.getGasFeeCap := by
  cases d <;> rfl

section Reading

variable (d : TxData)

theorem isDynamicFee_eq : d.isDynamicFee = decide (d.transaction.inner.typeBytes = [2]) := by
  cases d <;> rfl

theorem gas_transaction : d.transaction.gas = d.getGas := by
  cases d <;> rfl

theorem gasPrice_transaction : d.transaction.gasPrice = nonNil d.getGasFeeCap := by
  cases d <;> rfl

theorem gasTipCap_transaction : d.transaction.gasTipCap = nonNil d.getGasTipCap := by
  cases d <;> rfl

theorem value_transaction : d.transaction.value = nonNil d.getValue := by
  cases d <;> rfl

end Reading

/-- Equal Ethereum transactions have equal fees. -/
theorem sameFees (h : d.validate = .ok ()) (h' : d'.validate = .ok ())
    (hsame : d.transaction = d'.transaction) : SameFees d d' := by
  obtain ⟨cap, tip, hcap, htip, -⟩ := validate_ok h
  obtain ⟨cap', tip', hcap', htip', -⟩ := validate_ok h'
  have hgas : d.getGas = d'.getGas := by
    rw [← gas_transaction, hsame, gas_transaction]
  have hfeeCap : d.getGasFeeCap = d'.getGasFeeCap := by
    have hread := gasPrice_transaction d
    rw [hsame, gasPrice_transaction, hcap, hcap'] at hread
    rw [hcap, hcap']
    exact hread.symm
  have htipCap : d.getGasTipCap = d'.getGasTipCap := by
    have hread := gasTipCap_transaction d
    rw [hsame, gasTipCap_transaction, htip, htip'] at hread
    rw [htip, htip']
    exact hread.symm
  have hvalue : d.getValue.getD 0 = d'.getValue.getD 0 := by
    have hread := value_transaction d
    rw [hsame, value_transaction] at hread
    exact (Option.some.inj hread).symm
  have htype : d.isDynamicFee = d'.isDynamicFee := by
    rw [isDynamicFee_eq, hsame, isDynamicFee_eq]
  have hfee : d.fee = d'.fee := by
    unfold TxData.fee
    rw [hfeeCap, hgas]
  constructor
  · exact hgas
  · exact hfee
  · unfold TxData.cost TacEvm.cost
    rw [hfee, hvalue]
  · intro baseFee
    unfold TxData.effectiveFee
    rw [effectiveGasPrice_eq, effectiveGasPrice_eq, htype, hfeeCap, htipCap, hgas]

end TxData

section Messages

variable {chain : Chain} {m m' : MsgEthereumTx} {d d' : TxData}

/-- The hash of a transaction is that of its bytes. -/
def HashesTransactions (chain : Chain) : Prop :=
  ∀ d : TxData, chain.txHash d = chain.env.keccak256 d.transaction.hashed

/-- Two messages with one transaction, and one gas and fee. -/
def SameTransaction (m m' : MsgEthereumTx) : Prop :=
  m.asTransaction = m'.asTransaction ∧ ∃ d d', m.data = .ok d ∧ m'.data = .ok d' ∧ d.SameFees d'

theorem MsgEthereumTx.validateBasic_data (hdata : m.data = .ok d)
    (h : m.validateBasic chain = .ok ()) :
    d.validate = .ok () ∧ m.hash = quote (hashHex (chain.txHash d)) := by
  obtain ⟨d', hdata', hvalid⟩ := MsgEthereumTx.validateBasic_ok h
  rw [hdata] at hdata'
  cases hdata'
  exact hvalid

theorem quote_hashHex_inj {a b : Hash} (h : quote (hashHex a) = quote (hashHex b)) : a = b := by
  have hbytes := congrArg (fun s : String => ascii s.toList) h
  simp only [ascii_quote] at hbytes
  rw [← hexToHash_hashHex a, hbytes, hexToHash_hashHex]

/-- The same data with the next nonce. -/
def TxData.nextNonce : TxData → TxData
  | .legacy tx => .legacy { tx with nonce := tx.nonce + 1 }
  | .accessList tx => .accessList { tx with nonce := tx.nonce + 1 }
  | .dynamicFee tx => .dynamicFee { tx with nonce := tx.nonce + 1 }

theorem TxData.getGas_nextNonce (d : TxData) : d.nextNonce.getGas = d.getGas := by
  cases d <;> rfl

theorem TxData.validate_nextNonce (d : TxData) : d.nextNonce.validate = d.validate := by
  cases d <;> rfl

theorem TxData.nonce_nextNonce (d : TxData) :
    d.nextNonce.transaction.nonce = d.transaction.nonce + 1 := by
  cases d <;> rfl

theorem TxData.hashed_nextNonce (h : ¬ d.transaction.Encodable) :
    d.nextNonce.transaction.hashed = d.transaction.hashed := by
  have hintegers : d.nextNonce.transaction.inner.integers = d.transaction.inner.integers := by
    cases d <;> rfl
  have htype : d.nextNonce.transaction.inner.typeBytes = d.transaction.inner.typeBytes := by
    cases d <;> rfl
  have h' : ¬ d.nextNonce.transaction.Encodable := by
    unfold Transaction.Encodable
    rw [hintegers]
    exact h
  unfold Transaction.hashed
  rw [if_neg h, if_neg h', htype]

theorem validateBasic_eq (hdata : m.data = .ok d) :
    m.validateBasic chain = (do
      (if m.sender = [] then .ok ()
      else (validateAddress m.sender).mapError (Err.wrapf "invalid from address" []))
      refuseIf (d.getGas = 0) (errInvalidGasLimit.wrapf "gas limit must not be zero" [])
      refuseIf (2 ^ 63 ≤ d.getGas.toNat)
        (errGasOverflow.wrapf "gas limit must be less than math.MaxInt64" [])
      d.validate
      refuseIf (m.hash ≠ quote (hashHex (chain.txHash d)))
        (errInvalidRequest.wrapf "invalid tx hash %s, expected: %s"
          [.str m.hash, .str (quote (hashHex (chain.txHash d)))])) := by
  unfold MsgEthereumTx.validateBasic
  rw [hdata]
  rfl

theorem validateBasic_nextNonce (hhash : HashesTransactions chain) (hdata : m.data = .ok d)
    (h : ¬ d.transaction.Encodable) :
    { m with data := .ok d.nextNonce }.validateBasic chain = m.validateBasic chain := by
  have hsame : chain.txHash d.nextNonce = chain.txHash d := by
    rw [hhash, hhash, TxData.hashed_nextNonce h]
  have hnext : { m with data := .ok d.nextNonce }.data = .ok d.nextNonce := rfl
  rw [validateBasic_eq hdata, validateBasic_eq hnext, TxData.getGas_nextNonce,
    TxData.validate_nextNonce, hsame]

/-- The hash of a valid message identifies it just when the chain id is not negative. -/
theorem validateBasic_identifies_iff (chain : Chain) (hhash : HashesTransactions chain)
    (m : MsgEthereumTx) (d : TxData) (hdata : m.data = .ok d)
    (hvalid : m.validateBasic chain = .ok ())
    (hsize : d.transaction.marshalBinary.length < 2 ^ 64)
    (hcollision : ∀ bz, chain.env.keccak256 bz = chain.env.keccak256 d.transaction.hashed →
      bz = d.transaction.hashed) :
    (∀ m' : MsgEthereumTx, m'.validateBasic chain = .ok () → m'.hash = m.hash →
      SameTransaction m m') ↔ ∀ i ∈ d.transaction.inner.chainIds, 0 ≤ i := by
  obtain ⟨hd, hmhash⟩ := MsgEthereumTx.validateBasic_data hdata hvalid
  rw [← TxData.encodable_iff hd]
  constructor
  · intro hall
    by_contra hnot
    obtain ⟨hsame, -⟩ := hall { m with data := .ok d.nextNonce }
      ((validateBasic_nextNonce hhash hdata hnot).trans hvalid) rfl
    have htx : m.asTransaction = some d.transaction := by
      unfold MsgEthereumTx.asTransaction
      rw [hdata]
      rfl
    have hnonce : d.transaction.nonce = d.transaction.nonce + 1 := by
      rw [htx] at hsame
      rw [← TxData.nonce_nextNonce]
      exact congrArg Transaction.nonce (Option.some.inj hsame)
    have htoNat := congrArg UInt64.toNat hnonce
    rw [UInt64.toNat_add, UInt64.toNat_one] at htoNat
    omega
  · intro hencodable m' hvalid' hsameHash
    obtain ⟨d', hdata', -⟩ := MsgEthereumTx.validateBasic_ok hvalid'
    obtain ⟨hd', hmhash'⟩ := MsgEthereumTx.validateBasic_data hdata' hvalid'
    rw [hmhash, hmhash'] at hsameHash
    have hhashes := quote_hashHex_inj hsameHash
    rw [hhash, hhash] at hhashes
    have htx : d.transaction = d'.transaction :=
      Transaction.hashed_inj hsize hencodable (hcollision _ hhashes).symm
    refine ⟨?_, d, d', hdata, hdata', TxData.sameFees hd hd' htx⟩
    unfold MsgEthereumTx.asTransaction
    rw [hdata, hdata']
    exact congrArg some htx

end Messages

namespace Devnet

/-- A creation on a chain with this id. -/
def chainData (chainID : ℤ) (nonce : UInt64) (amount : Option ℤ) : TxData := .dynamicFee {
  chainID := some chainID
  nonce := nonce
  gasTipCap := some 1
  gasFeeCap := some 1
  gasLimit := 21000
  recipient := []
  amount := amount
  data := []
  accesses := none
  v := []
  r := [1]
  s := [1] }

/-- The chain on which nothing else has the hash of these bytes. -/
def hashingChain (bz : Bytes) : Chain :=
  let keccak : Bytes → Hash := fun bz' => if bz' = bz then 1 else 0
  { chain18 with
    env := { env18 with keccak256 := keccak }
    txHash := fun d => keccak d.transaction.hashed }

/-- A message with the hash of its data. -/
def hashedMsg (bz : Bytes) (d : TxData) : MsgEthereumTx :=
  { data := .ok d, sender := [], hash := quote (hashHex ((hashingChain bz).txHash d)) }

end Devnet

open Devnet

theorem hashingChain_inj {bz bz' : Bytes}
    (h : (hashingChain bz).env.keccak256 bz' = (hashingChain bz).env.keccak256 bz) :
    bz' = bz := by
  by_contra hne
  have hvalues : (if bz' = bz then (1 : Hash) else 0) = if bz = bz then 1 else 0 := h
  rw [if_neg hne, if_pos rfl] at hvalues
  exact absurd hvalues (by decide)

theorem refuseIf_of_not {p : Prop} [Decidable p] {e : Err} (h : ¬ p) : refuseIf p e = .ok () :=
  if_neg h

theorem validateBasic_hashedMsg {bz : Bytes} {d : TxData} (hgas : d.getGas = 21000)
    (hd : d.validate = .ok ()) :
    (hashedMsg bz d).validateBasic (hashingChain bz) = .ok () := by
  have hdata : (hashedMsg bz d).data = .ok d := rfl
  have hhash : ¬ (hashedMsg bz d).hash ≠
      quote (hashHex ((hashingChain bz).txHash d)) := not_not.2 rfl
  rw [validateBasic_eq hdata, hgas, hd, refuseIf_of_not hhash, refuseIf_of_not (by decide),
    refuseIf_of_not (by decide)]
  rfl

theorem hash_hashedMsg {bz : Bytes} {d d' : TxData}
    (h : d.transaction.hashed = d'.transaction.hashed) :
    (hashedMsg bz d).hash = (hashedMsg bz d').hash := by
  have htxHash : (hashingChain bz).txHash d = (hashingChain bz).txHash d' :=
    congrArg (fun x => if x = bz then (1 : Hash) else 0) h
  exact congrArg (fun x => quote (hashHex x)) htxHash

/-- An amount of nil and an amount of zero are one transaction. -/
theorem validateBasic_identifies_devnet :
    SameTransaction
      (hashedMsg (chainData 9001 0 none).transaction.hashed (chainData 9001 0 none))
      (hashedMsg (chainData 9001 0 none).transaction.hashed (chainData 9001 0 (some 0))) := by
  have hsame : (chainData 9001 0 (some 0)).transaction.hashed =
      (chainData 9001 0 none).transaction.hashed := rfl
  refine (validateBasic_identifies_iff
    (hashingChain (chainData 9001 0 none).transaction.hashed) (fun _ => rfl)
    (hashedMsg (chainData 9001 0 none).transaction.hashed (chainData 9001 0 none))
    (chainData 9001 0 none) rfl ?_ ?_ (fun _ => hashingChain_inj)).2 ?_ _ ?_ ?_
  · exact validateBasic_hashedMsg rfl (by decide +kernel)
  · decide +kernel
  · decide
  · exact validateBasic_hashedMsg rfl (by decide +kernel)
  · exact hash_hashedMsg hsame

/-- **A negative chain id**: two creations have one hash. -/
theorem validateBasic_negativeChainID :
    (hashedMsg [2] (chainData (-1) 0 none)).validateBasic (hashingChain [2]) = .ok () ∧
      (hashedMsg [2] (chainData (-1) 7 none)).validateBasic (hashingChain [2]) = .ok () ∧
      (hashedMsg [2] (chainData (-1) 0 none)).hash = (hashedMsg [2] (chainData (-1) 7 none)).hash ∧
      (hashedMsg [2] (chainData (-1) 0 none)).asTransaction ≠
        (hashedMsg [2] (chainData (-1) 7 none)).asTransaction := by
  have hsame : (chainData (-1) 0 none).transaction.hashed =
      (chainData (-1) 7 none).transaction.hashed := by decide +kernel
  refine ⟨validateBasic_hashedMsg rfl (by decide +kernel),
    validateBasic_hashedMsg rfl (by decide +kernel), hash_hashedMsg hsame, ?_⟩
  intro h
  have hnonce := congrArg (Option.map Transaction.nonce) h
  exact absurd hnonce (by decide)

end TacEvm
