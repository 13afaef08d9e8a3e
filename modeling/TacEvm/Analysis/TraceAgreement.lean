import TacEvm.Model.Devnet
import TacEvm.Model.Tracing

/-!
# One trace and the traces of a block

The two loops carry the same state and index of logs forward. They differ in the index of a
transaction: `TraceTx` counts on from the last predecessor whose sender could be recovered.
-/

namespace TacEvm

open Devnet

variable {chain : Chain} {Ω : Type} {evm : Evm Ω} {baseFee : Option ℤ} {ctx : Context Ω}

/-- A transaction is traced after those before it. -/
theorem getElem?_traceTxs {txs : List TxData} {k : ℕ} {tx : TxData} (htx : txs[k]? = some tx)
    {cfg cfg' : TxConfig} (hblock : cfg'.blockHash = cfg.blockHash)
    (hlog : cfg'.logIndex = cfg.logIndex) (i : ℕ) :
    (traceTxs chain evm baseFee ctx cfg i txs)[k]? =
      some
        { ctx := (runPredecessors chain evm baseFee ctx cfg' i (txs.take k)).1
          txConfig := { (runPredecessors chain evm baseFee ctx cfg' i (txs.take k)).2 with
            txHash := chain.txHash tx
            txIndex := i + k }
          baseFee := baseFee } := by
  induction txs generalizing ctx cfg cfg' i k with
  | nil => cases htx
  | cons first txs ih =>
    obtain ⟨block, txHash, txIndex, logIndex⟩ := cfg
    obtain ⟨block', txHash', txIndex', logIndex'⟩ := cfg'
    subst hblock hlog
    rw [traceTxs]
    cases k with
    | zero =>
      cases htx
      rfl
    | succ k =>
      rw [List.getElem?_cons_succ, List.take_succ_cons, runPredecessors, traceTx,
        show i + (k + 1) = i + 1 + k by omega]
      cases chain.sender first with
      | error e => exact ih htx (by rfl) (by rfl) _
      | ok sender =>
        dsimp only
        cases (applyMessageWithConfig chain evm (first.asMessage sender baseFee) true
            ⟨_, chain.txHash first, i, _⟩).run ctx with
        | error e ctx' => exact ih htx (by rfl) (by rfl) _
        | ok res ctx' => exact ih htx (by rfl) (by rfl) _

section Index

variable (chain evm ctx)

/-- The index follows the transactions with a sender. -/
theorem txIndex_runPredecessors_concat (baseFee : Option ℤ) (cfg : TxConfig) (i : ℕ)
    (txs : List TxData) (tx : TxData) :
    (runPredecessors chain evm baseFee ctx cfg i (txs ++ [tx])).2.txIndex =
      if (chain.sender tx).isOk then i + txs.length
      else (runPredecessors chain evm baseFee ctx cfg i txs).2.txIndex := by
  induction txs generalizing ctx cfg i with
  | nil =>
    simp only [List.nil_append, runPredecessors]
    cases chain.sender tx with
    | error e => rfl
    | ok sender =>
      dsimp only
      cases (applyMessageWithConfig chain evm (tx.asMessage sender baseFee) true
          { cfg with txHash := chain.txHash tx, txIndex := i }).run ctx with
      | error e ctx' => rfl
      | ok res ctx' => rfl
  | cons first txs ih =>
    have hplace : i + (first :: txs).length = i + 1 + txs.length := by
      rw [List.length_cons]
      omega
    rw [List.cons_append, runPredecessors, runPredecessors, hplace]
    cases chain.sender first with
    | error e => exact ih _ _ _
    | ok sender =>
      dsimp only
      cases (applyMessageWithConfig chain evm (first.asMessage sender baseFee) true
          { cfg with txHash := chain.txHash first, txIndex := i }).run ctx with
      | error e ctx' => exact ih _ _ _
      | ok res ctx' => exact ih _ _ _

theorem txIndex_runPredecessors_le (baseFee : Option ℤ) (cfg : TxConfig) (hcfg : cfg.txIndex = 0)
    (txs : List TxData) :
    (runPredecessors chain evm baseFee ctx cfg 0 txs).2.txIndex ≤ txs.length - 1 := by
  induction txs using List.reverseRecOn with
  | nil => exact hcfg.le
  | append_singleton txs tx ih =>
    rw [txIndex_runPredecessors_concat, List.length_append, List.length_singleton]
    split
    · omega
    · omega

/-- The index of a transaction traced alone is its place, after a known sender. -/
theorem txIndex_traceAfter (calculated : Option ℤ) (txs : List TxData) (tx : TxData) :
    (traceAfter chain evm ctx calculated txs tx).txConfig.txIndex = txs.length ↔
      ∀ prev ∈ txs.tail.getLast?, (chain.sender prev).isOk := by
  unfold traceAfter
  rcases List.eq_nil_or_concat txs with rfl | ⟨init, last, rfl⟩
  · simp [runPredecessors, emptyTxConfig]
  have hle := txIndex_runPredecessors_le chain evm ctx (calculated.or chain.getBaseFee)
    (emptyTxConfig chain) rfl init
  rw [List.concat_eq_append]
  dsimp only
  rw [if_neg (by simp), txIndex_runPredecessors_concat, List.length_append,
    List.length_singleton, Nat.add_right_cancel_iff]
  cases init with
  | nil => simp [runPredecessors, emptyTxConfig]
  | cons first init =>
    rw [List.cons_append, List.tail_cons, List.getLast?_concat]
    cases hsender : (chain.sender last).isOk with
    | true => simp [hsender]
    | false =>
      simp only [List.length_cons, Nat.add_sub_cancel] at hle
      simp [hsender]
      omega

end Index

/-- **A trace agrees with that of its block** if and only if it is one of the first two, or the
sender before it can be recovered. -/
theorem traceAfter_eq_traceBlock_iff (chain : Chain) (evm : Evm Ω) (ctx : Context Ω)
    (calculated : Option ℤ) {txs : List TxData} {i : ℕ} {tx : TxData} (htx : txs[i]? = some tx) :
    (traceBlock chain evm ctx calculated txs)[i]? =
        some (traceAfter chain evm ctx calculated (txs.take i) tx) ↔
      ∀ prev ∈ (txs.take i).tail.getLast?, (chain.sender prev).isOk := by
  have hlength : (txs.take i).length = i :=
    List.length_take_of_le (List.getElem?_eq_some_iff.mp htx).1.le
  rw [← txIndex_traceAfter chain evm ctx calculated _ tx, traceBlock,
    getElem?_traceTxs htx rfl rfl, Option.some.injEq, hlength, Nat.zero_add]
  constructor
  · intro h
    rw [← h]
  · intro h
    unfold traceAfter at h ⊢
    dsimp only at h ⊢
    rw [h]

/-- A chain where the sender of a nonce cannot be recovered. -/
def Devnet.unsignedChain (nonce : UInt64) : Chain :=
  { chain18 with
    sender := fun tx =>
      if tx.getNonce = nonce then .error (.errorf "invalid transaction v, r, s values" [])
      else .ok 0xA1 }

def Devnet.tracedTxs : List TxData :=
  [legacyTx 0 21000 [1], legacyTx 1 21000 [1], legacyTx 2 21000 [1]]

theorem traceAfter_eq_traceBlock_iff_devnet :
    (traceBlock (unsignedChain 0) Devnet.evm (chainState 9).ctx none tracedTxs)[2]? =
      some (traceAfter (unsignedChain 0) Devnet.evm (chainState 9).ctx none
        (tracedTxs.take 2) (legacyTx 2 21000 [1])) :=
  (traceAfter_eq_traceBlock_iff _ _ _ _ (by rfl)).mpr
    fun prev hprev => by
      cases hprev
      rfl

/-- After a transaction without a sender the index is too small. -/
theorem txIndex_after_unsigned :
    (traceBlock (unsignedChain 1) Devnet.evm (chainState 9).ctx none
      tracedTxs).map
      (fun traced => traced.txConfig.txIndex) = [0, 1, 2] ∧
    (traceAfter (unsignedChain 1) Devnet.evm (chainState 9).ctx none
      (tracedTxs.take 2) (legacyTx 2 21000 [1])).txConfig.txIndex = 1 :=
  ⟨by rfl, by rfl⟩

end TacEvm
