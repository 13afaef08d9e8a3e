import TacEvm.Analysis.EventParsing
import TacEvm.Model.KvIndexer

/-!
# What the indexer saves for a block

The indexer goes through the places of the listed messages in their order and numbers what it saves
from zero on (`indexTxs_ok`), as long as each listed transaction is `Readable`.
-/

namespace TacEvm

open FallibleState

/-- The Ethereum messages among the messages of a transaction. -/
def ethereumMsgs (msgs : List SdkMsg) : List MsgEthereumTx :=
  msgs.filterMap fun
    | .ethereumTx msg => some msg
    | _ => none

@[simp]
theorem ethereumMsgs_map (msgs : List MsgEthereumTx) :
    ethereumMsgs (msgs.map SdkMsg.ethereumTx) = msgs := by
  induction msgs with
  | nil => rfl
  | cons msg msgs ih => exact congrArg (msg :: ·) ih

theorem ethereumMsgs_eq_nil {msgs : List SdkMsg} (h : ∀ msg, .ethereumTx msg ∉ msgs) :
    ethereumMsgs msgs = [] := by
  unfold ethereumMsgs
  rw [List.filterMap_eq_nil_iff]
  intro msg hmsg
  cases msg with
  | ethereumTx m => exact absurd hmsg (h m)
  | _ => rfl

/-- A message of a block and where it is. -/
structure Place where
  txIndex : ℕ
  msgIndex : ℕ
  msg : MsgEthereumTx

/-- The places of the messages of a transaction, from a number on. -/
def placesFrom (txIndex : ℕ) : ℕ → List MsgEthereumTx → List Place
  | _, [] => []
  | msgIndex, msg :: msgs => ⟨txIndex, msgIndex, msg⟩ :: placesFrom txIndex (msgIndex + 1) msgs

@[simp]
theorem length_placesFrom (txIndex msgIndex : ℕ) (msgs : List MsgEthereumTx) :
    (placesFrom txIndex msgIndex msgs).length = msgs.length := by
  induction msgs generalizing msgIndex with
  | nil => rfl
  | cons msg msgs ih => rw [placesFrom, List.length_cons, List.length_cons, ih]

theorem getElem?_placesFrom (txIndex msgIndex i : ℕ) (msgs : List MsgEthereumTx) :
    (placesFrom txIndex msgIndex msgs)[i]? =
      msgs[i]?.map fun msg => ⟨txIndex, msgIndex + i, msg⟩ := by
  induction msgs generalizing msgIndex i with
  | nil => rfl
  | cons msg msgs ih =>
    cases i with
    | zero => rfl
    | succ i =>
      rw [placesFrom, List.getElem?_cons_succ, List.getElem?_cons_succ, ih, Nat.add_right_comm,
        Nat.add_assoc]

/-- The messages of a transaction, if it is listed. -/
def listedMsgs (raw : Except Err AppTx) (result : ExecTxResult) : List MsgEthereumTx :=
  if txSucessOrExpectedFailure result = false then []
  else
    match raw with
    | .error _ => []
    | .ok tx => ethereumMsgs tx.msgs

/-- The places of the listed messages, from a transaction on. -/
def listedPlaces : List (Except Err AppTx) → List ExecTxResult → ℕ → List Place
  | raw :: txs, result :: results, txIndex =>
    placesFrom txIndex 0 (listedMsgs raw result) ++ listedPlaces txs results (txIndex + 1)
  | _, _, _ => []

section

variable {raws : List (Except Err AppTx)} {results : List ExecTxResult}

/-- The number of a message among those listed. -/
theorem getElem?_listedPlaces {raw : Except Err AppTx} {result : ExecTxResult} {l j k : ℕ}
    {msg : MsgEthereumTx} (hraw : raws[l]? = some raw) (hresult : results[l]? = some result)
    (hmsg : (listedMsgs raw result)[j]? = some msg) :
    (listedPlaces raws results k)[(listedPlaces (raws.take l) (results.take l) k).length + j]? =
      some ⟨k + l, j, msg⟩ := by
  induction raws generalizing results l k with
  | nil => cases hraw
  | cons raw₀ raws ih =>
    cases results with
    | nil => cases hresult
    | cons result₀ results =>
      cases l with
      | zero =>
        cases hraw
        cases hresult
        have hj : j < (listedMsgs raw result).length := (List.getElem?_eq_some_iff.mp hmsg).1
        have hplace := getElem?_placesFrom k 0 j (listedMsgs raw result)
        rw [hmsg, Option.map_some, Nat.zero_add] at hplace
        show (placesFrom k 0 _ ++ _)[0 + j]? = _
        rw [Nat.zero_add, List.getElem?_append_left (by rw [length_placesFrom]; exact hj), hplace]
        rfl
      | succ l =>
        have hrest := @ih results l (k + 1) hraw hresult
        rw [Nat.add_right_comm] at hrest
        rw [List.take_succ_cons, List.take_succ_cons, listedPlaces, listedPlaces,
          List.length_append, Nat.add_assoc, List.getElem?_append_right (Nat.le_add_right _ _),
          Nat.add_sub_cancel_left]
        exact hrest

/-- The number of a place: what is listed before, and its index. -/
theorem number_of_place {i k : ℕ} {place : Place}
    (h : (listedPlaces raws results k)[i]? = some place) :
    ∃ (l : ℕ) (raw : Except Err AppTx) (result : ExecTxResult), raws[l]? = some raw ∧
      results[l]? = some result ∧ place.txIndex = k + l ∧
      (listedMsgs raw result)[place.msgIndex]? = some place.msg ∧
      i = (listedPlaces (raws.take l) (results.take l) k).length + place.msgIndex := by
  induction raws generalizing results i k with
  | nil => cases h
  | cons raw raws ih =>
    cases results with
    | nil => cases h
    | cons result results =>
      rw [listedPlaces] at h
      by_cases hi : i < (placesFrom k 0 (listedMsgs raw result)).length
      · rw [List.getElem?_append_left hi, getElem?_placesFrom] at h
        obtain ⟨msg, hmsg, rfl⟩ := Option.map_eq_some_iff.mp h
        refine ⟨0, raw, result, rfl, rfl, rfl, ?_, ?_⟩
        · rw [Nat.zero_add]
          exact hmsg
        · show i = 0 + (0 + i)
          omega
      · rw [List.getElem?_append_right (Nat.not_lt.mp hi)] at h
        obtain ⟨l, raw', result', hraw, hresult, htx, hmsg, hnumber⟩ := ih h
        refine ⟨l + 1, raw', result', hraw, hresult, by omega, hmsg, ?_⟩
        rw [List.take_succ_cons, List.take_succ_cons, listedPlaces, List.length_append]
        omega

end

/-- What is saved for a place, under a number. -/
structure SavedAt (height : ℤ) (place : Place) (index : ℤ) (saved : Hash × TxResult) : Prop where
  hash : saved.1 = hexToHash (ascii place.msg.hash.toList)
  height : saved.2.height = height
  txIndex : saved.2.txIndex = place.txIndex % 2 ^ 32
  msgIndex : saved.2.msgIndex = place.msgIndex % 2 ^ 32
  ethTxIndex : saved.2.ethTxIndex = index

/-- What is saved for a list of places, numbered from `start` on. -/
def Saves (height : ℤ) : List Place → ℕ → List (Hash × TxResult) → Prop
  | [], _, saved => saved = []
  | place :: places, start, saved =>
    ∃ head rest, saved = head :: rest ∧ SavedAt height place start head ∧
      Saves height places (start + 1) rest

namespace Saves

variable {height : ℤ} {places places' : List Place} {start : ℕ}
  {saved saved' : List (Hash × TxResult)}

theorem append (h : Saves height places start saved)
    (h' : Saves height places' (start + places.length) saved') :
    Saves height (places ++ places') start (saved ++ saved') := by
  induction places generalizing start saved with
  | nil =>
    cases h
    exact h'
  | cons place places ih =>
    obtain ⟨head, rest, rfl, hhead, hrest⟩ := h
    refine ⟨head, rest ++ saved', rfl, hhead, ih hrest ?_⟩
    rw [List.length_cons] at h'
    rw [Nat.add_assoc, Nat.add_comm 1]
    exact h'

theorem exists_place (h : Saves height places start saved) {i : ℕ} {r : Hash × TxResult}
    (hr : saved[i]? = some r) :
    ∃ place, places[i]? = some place ∧ SavedAt height place (start + i : ℕ) r := by
  induction places generalizing start saved i with
  | nil =>
    cases h
    cases hr
  | cons place₀ places ih =>
    obtain ⟨head, rest, rfl, hhead, hrest⟩ := h
    cases i with
    | zero =>
      cases hr
      exact ⟨place₀, rfl, hhead⟩
    | succ i =>
      obtain ⟨place, hplace, hsaved⟩ := ih hrest hr
      refine ⟨place, hplace, ?_⟩
      rw [Nat.add_right_comm] at hsaved
      exact hsaved

theorem getElem? (h : Saves height places start saved) {i : ℕ} {place : Place}
    (hplace : places[i]? = some place) :
    ∃ r, saved[i]? = some r ∧ SavedAt height place (start + i : ℕ) r := by
  induction places generalizing start saved i with
  | nil => cases hplace
  | cons place₀ places ih =>
    obtain ⟨head, rest, rfl, hhead, hrest⟩ := h
    cases i with
    | zero =>
      cases hplace
      exact ⟨head, rfl, hhead⟩
    | succ i =>
      obtain ⟨r, hr, hsaved⟩ := ih hrest hplace
      refine ⟨r, hr, ?_⟩
      rw [Nat.add_right_comm] at hsaved
      exact hsaved

end Saves

/-- The messages of a transaction are numbered from the start. -/
theorem indexMsgs_ok {height : ℤ} {txIndex : ℕ} {result : ExecTxResult} {txs : ParsedTxs}
    {msgs : List MsgEthereumTx} {msgIndex start : ℕ} (gas : UInt64)
    (houtcome : ∀ (i : ℕ) (msg : MsgEthereumTx), msgs[i]? = some msg →
      indexedOutcome result txs msg (msgIndex + i) ≠ none)
    (hfits : start + msgs.length < 2 ^ 31) :
    ∃ saved, indexMsgs height txIndex result txs (msgs.map SdkMsg.ethereumTx) msgIndex gas start =
        .ok (saved, (start + msgs.length : ℕ)) ∧
      Saves height (placesFrom txIndex msgIndex msgs) start saved := by
  induction msgs generalizing msgIndex start gas with
  | nil => exact ⟨[], rfl, rfl⟩
  | cons msg msgs ih =>
    obtain ⟨⟨gasUsed, failed⟩, hhead⟩ := Option.ne_none_iff_exists'.mp (houtcome 0 msg rfl)
    have hrest : ∀ (i : ℕ) (msg' : MsgEthereumTx), msgs[i]? = some msg' →
        indexedOutcome result txs msg' (msgIndex + 1 + i) ≠ none := by
      intro i msg' hmsg'
      rw [Nat.add_assoc, Nat.add_comm 1]
      exact houtcome (i + 1) msg' hmsg'
    rw [List.length_cons] at hfits
    obtain ⟨saved, hindex, hsaves⟩ := @ih (msgIndex + 1) (start + 1) (gas + gasUsed) hrest
      (by omega)
    -- the counter stays below its limit
    have hnext : ((start : ℤ) + 1).bmod (2 ^ 32) = (start + 1 : ℕ) := by
      rw [Int.bmod_eq_of_le (by omega) (by omega)]
      rfl
    have hstep : indexMsgs height txIndex result txs ((msg :: msgs).map SdkMsg.ethereumTx) msgIndex
        gas start = .ok ((hexToHash (ascii msg.hash.toList),
          { height := height
            txIndex := txIndex % 2 ^ 32
            msgIndex := msgIndex % 2 ^ 32
            ethTxIndex := start
            failed := failed
            gasUsed := gasUsed
            cumulativeGasUsed := gas + gasUsed }) :: saved, (start + (msgs.length + 1) : ℕ)) := by
      rw [List.map_cons, indexMsgs]
      rw [Nat.add_zero] at hhead
      rw [hhead]
      dsimp only
      rw [hnext, hindex, Nat.add_assoc, Nat.add_comm 1]
      rfl
    exact ⟨_, hstep, _, saved, rfl, ⟨rfl, rfl, rfl, rfl, rfl⟩, hsaves⟩

/-- A listed transaction has readable Ethereum messages, or none. -/
inductive Readable (raw : Except Err AppTx) (result : ExecTxResult) : Prop
  | notListed (h : txSucessOrExpectedFailure result = false)
  | notDecoded {e : Err} (h : raw = .error e)
  | other {tx : AppTx} (h : raw = .ok tx) (option : isEthTx tx = false)
      (messages : ∀ msg, .ethereumTx msg ∉ tx.msgs)
  | ethereum {tx : AppTx} (h : raw = .ok tx) (option : isEthTx tx = true)
      (msgs : List MsgEthereumTx) (messages : tx.msgs = msgs.map SdkMsg.ethereumTx)
      (txs : ParsedTxs) (parsed : parseTxResult result (some tx) = .ok txs)
      (entries : result.code = 0 → msgs.length ≤ txs.txs.length)

/-- The indexer saves every listed message of a transaction. -/
theorem indexTx_ok {height : ℤ} {txIndex start : ℕ} {raw : Except Err AppTx}
    {result : ExecTxResult} (h : Readable raw result)
    (hfits : start + (listedMsgs raw result).length < 2 ^ 31) :
    ∃ saved, indexTx height txIndex raw result start =
        .ok (saved, (start + (listedMsgs raw result).length : ℕ)) ∧
      Saves height (placesFrom txIndex 0 (listedMsgs raw result)) start saved := by
  by_cases hlisted : txSucessOrExpectedFailure result = false
  · unfold indexTx listedMsgs
    rw [if_pos hlisted, if_pos hlisted]
    exact ⟨[], rfl, rfl⟩
  unfold listedMsgs at hfits
  unfold indexTx listedMsgs
  rw [if_neg hlisted] at hfits
  rw [if_neg hlisted, if_neg hlisted]
  cases h with
  | notListed h => exact absurd h hlisted
  | notDecoded h =>
    subst h
    exact ⟨[], rfl, rfl⟩
  | @other tx h option messages =>
    subst h
    dsimp only
    rw [if_pos option, ethereumMsgs_eq_nil messages]
    exact ⟨[], rfl, rfl⟩
  | @ethereum tx h option msgs messages txs parsed entries =>
    subst h
    dsimp only at hfits ⊢
    rw [messages, ethereumMsgs_map] at hfits
    rw [if_neg (by simp [option]), parsed, messages, ethereumMsgs_map]
    refine indexMsgs_ok 0 ?_ hfits
    intro i msg hmsg
    unfold indexedOutcome
    split
    · simp
    rename_i hcode
    have hlt : i < msgs.length := (List.getElem?_eq_some_iff.mp hmsg).1
    have hplace : i < txs.txs.length := by omega
    have hentry : txs.getTxByMsgIndex ((0 + i : ℕ) : ℤ) = some (txs.txs.get ⟨i, hplace⟩) := by
      rw [getTxByMsgIndex_natCast, Nat.zero_add]
      exact List.getElem?_eq_getElem hplace
    rw [hentry]
    simp

/-- **The indexer goes through the listed messages** and numbers them. -/
theorem indexTxs_ok {height : ℤ} {txs : List (Except Err AppTx)} {results : List ExecTxResult}
    {txIndex start : ℕ} (hlength : results.length = txs.length)
    (hreadable : ∀ (i : ℕ) (raw : Except Err AppTx) (result : ExecTxResult),
      txs[i]? = some raw → results[i]? = some result → Readable raw result)
    (hfits : start + (listedPlaces txs results txIndex).length < 2 ^ 31) :
    ∃ saved, indexTxs height txs results txIndex start = .ok saved ∧
      Saves height (listedPlaces txs results txIndex) start saved := by
  induction txs generalizing results txIndex start with
  | nil =>
    cases List.length_eq_zero_iff.mp hlength
    exact ⟨[], rfl, rfl⟩
  | cons raw txs ih =>
    cases results with
    | nil => cases hlength
    | cons result results =>
      rw [listedPlaces, List.length_append, length_placesFrom] at hfits
      obtain ⟨saved, hindex, hsaves⟩ := @indexTx_ok height txIndex start raw result
        (hreadable 0 raw result rfl rfl) (by omega)
      obtain ⟨rest, hrest, hsavesRest⟩ := @ih results (txIndex + 1)
        (start + (listedMsgs raw result).length) (Nat.succ.inj hlength)
        (fun i raw' result' hraw' hresult' => hreadable (i + 1) raw' result' hraw' hresult')
        (by omega)
      refine ⟨saved ++ rest, ?_, ?_⟩
      · exact except_bind_ok.mpr ⟨_, hindex, except_bind_ok.mpr ⟨rest, hrest, rfl⟩⟩
      · refine hsaves.append ?_
        rw [length_placesFrom]
        exact hsavesRest

end TacEvm
