import TacEvm.Analysis.BlockIndexing
import TacEvm.Analysis.TxEvents

/-!
# The index of a transaction in its block

The chain counts the messages of the transactions that succeed; the indexer also counts those of
transactions that fail in a way the server expects. The numbers agree exactly if none of the second
kind comes before one that succeeds.
-/

namespace TacEvm

open FallibleState Devnet

variable {Ω : Type} {chain : Chain} {app : App Ω} {tx : AppTx}

/-- An Ethereum transaction of the application. -/
structure AppTx.IsEthereum (tx : AppTx) (msgs : List MsgEthereumTx) : Prop where
  option : tx.extensionOptions = [extensionOptionsEthereumTx]
  messages : tx.msgs = msgs.map SdkMsg.ethereumTx
  nonempty : msgs ≠ []

/-! ## A transaction that fails -/

theorem finishTx_failed {dropped written : ChainState Ω} {meter : GasMeter}
    {anteEvents : List Event} {outcome : Except Err (List Event)}
    (h : (finishTx chain dropped written meter anteEvents outcome).1.code ≠ 0) :
    (finishTx chain dropped written meter anteEvents outcome).1.events = anteEvents ∧
      (finishTx chain dropped written meter anteEvents outcome).2.transient =
        dropped.transient := by
  unfold finishTx at h ⊢
  dsimp only at h ⊢
  split at h
  · exact ⟨rfl, rfl⟩
  · cases outcome with
    | error e => exact ⟨rfl, rfl⟩
    | ok events => exact absurd rfl h

variable {msgs : List MsgEthereumTx} {s : ChainState Ω}

/-- **What failure means**: the counter stays, and no events but those of the ante handler. -/
theorem runTx_failed (heth : tx.IsEthereum msgs) (hcode : (runTx chain app tx s).1.code ≠ 0) :
    (runTx chain app tx s).2.transient.txIndex = s.transient.txIndex ∧
      (Event.ofKind eventTypeEthereumTx (runTx chain app tx s).1.events = [] ∨
        Event.ofKind eventTypeEthereumTx (runTx chain app tx s).1.events =
          msgs.zipIdx.map fun p => txHashEvent p.1.hash (s.transient.txIndex + p.2)) := by
  unfold runTx at hcode ⊢
  split at hcode
  · rename_i hgas
    rw [if_pos hgas]
    exact ⟨rfl, .inl rfl⟩
  rename_i hgas
  rw [if_neg hgas]
  cases hvalid : validateBasicTxMsgs chain app tx with
  | error e =>
    rw [hvalid] at hcode
    obtain ⟨hevents, htransient⟩ := finishTx_failed hcode
    exact ⟨congrArg Transient.txIndex htransient, .inl (by rw [hevents]; rfl)⟩
  | ok u =>
    rw [hvalid] at hcode
    dsimp only at hcode ⊢
    cases hante : (newAnteHandler chain app.decorators .deliver tx).run s.newContext with
    | error e s₁ =>
      rw [hante] at hcode
      obtain ⟨hevents, htransient⟩ := finishTx_failed hcode
      exact ⟨congrArg Transient.txIndex htransient, .inl (by rw [hevents]; rfl)⟩
    | ok priority s₁ =>
      rw [hante] at hcode
      dsimp only at hcode ⊢
      -- what the ante handler left
      obtain ⟨msg₀, hmsg₀⟩ := List.exists_mem_of_ne_nil msgs heth.nonempty
      have hmem : .ethereumTx msg₀ ∈ tx.msgs := by
        rw [heth.messages]
        exact List.mem_map_of_mem hmsg₀
      have hmono := newAnteHandler_ethereumTx hmem hante
      have hcosmos : tx.toCosmosTx.msgs = msgs.map Msg.ethereumTx := by
        show tx.msgs.map SdkMsg.toMsg = _
        rw [heth.messages, List.map_map]
        rfl
      obtain ⟨hanteEth, -⟩ := anteHandle_events hcosmos hmono
      obtain ⟨ms, utils, haccepted⟩ := anteHandle_ok hmono
      have hindex := haccepted.counters.1
      have hleft : ∀ r : ExecTxResult × ChainState Ω, r.1.events = s₁.ctx.events ∧
          r.2.transient = s₁.transient →
          r.2.transient.txIndex = s.transient.txIndex ∧
            (Event.ofKind eventTypeEthereumTx r.1.events = [] ∨
              Event.ofKind eventTypeEthereumTx r.1.events = msgs.zipIdx.map fun p =>
                txHashEvent p.1.hash (s.transient.txIndex + p.2)) := by
        rintro r ⟨hevents, htransient⟩
        refine ⟨?_, .inr ?_⟩
        · rw [htransient, hindex]
          rfl
        · rw [hevents, hanteEth]
          rfl
      cases hmsgs : (runMsgs chain app tx).run s₁ with
      | error e s₂ =>
        rw [hmsgs] at hcode
        exact hleft _ (finishTx_failed hcode)
      | ok events s₂ =>
        rw [hmsgs] at hcode
        exact hleft _ (finishTx_failed hcode)

/-- Every hash event is parsed to an entry. -/
theorem foldlM_txHashEvents (l : List (String × ℕ)) (hindex : ∀ p ∈ l, p.2 < 2 ^ 31)
    {st : ParseState} (hformat : st.format ≠ some .format1) :
    ∃ st', (l.map fun p => txHashEvent p.1 p.2).foldlM parseEvent st = .ok st' ∧
      st'.parsed.txs.length = st.parsed.txs.length + l.length := by
  induction l generalizing st with
  | nil => exact ⟨st, rfl, rfl⟩
  | cons p l ih =>
    have hreads : ∃ entry, fillTxAttributes (newParsedTx st.parsed.txs.length)
        (txHashEvent p.1 p.2).attributes = .ok entry :=
      ⟨_, except_bind_ok.mpr ⟨_, rfl, except_bind_ok.mpr
        ⟨_, fillTxAttribute_txIndex _ (hindex p List.mem_cons_self), rfl⟩⟩⟩
    obtain ⟨entry, hentry⟩ := hreads
    have hstep : ∃ table, parseEvent st (txHashEvent p.1 p.2) = .ok
        { format := some (st.format.getD .format2)
          eventIndex := st.eventIndex
          parsed := { txs := st.parsed.txs ++ [entry], txHashes := table } } := by
      refine ⟨Function.update st.parsed.txHashes entry.hash (some st.parsed.txs.length), ?_⟩
      show ((st.parsed.newTx (txHashEvent p.1 p.2).attributes).map _ : Except Err ParseState) = _
      rw [ParsedTxs.newTx, hentry]
      rfl
    obtain ⟨table, hstep⟩ := hstep
    have hnext : some (st.format.getD .format2) ≠ some EventFormat.format1 := by
      cases hst : st.format with
      | none => simp
      | some format =>
        rw [hst] at hformat
        exact hformat
    obtain ⟨st', hrest, hlength⟩ := @ih
      (fun p' hp' => hindex p' (List.mem_cons_of_mem p hp')) ⟨_, _, ⟨_, table⟩⟩ hnext
    refine ⟨st', except_bind_ok.mpr ⟨_, hstep, hrest⟩, ?_⟩
    rw [hlength, List.length_append, List.length_singleton, List.length_cons]
    omega

theorem failedTxs_ok {msgs : List MsgEthereumTx} (hmsgs : tx.msgs = msgs.map SdkMsg.ethereumTx)
    {ps : List ParsedTx} {i : ℕ} (h : i + ps.length ≤ msgs.length) :
    ∃ ps', failedTxs tx i ps = .ok ps' ∧ ps'.length = ps.length := by
  induction ps generalizing i with
  | nil => exact ⟨[], rfl, rfl⟩
  | cons p ps ih =>
    rw [List.length_cons] at h
    obtain ⟨rest, hrest, hlength⟩ := @ih (i + 1) (by omega)
    have hplace : i < msgs.length := by omega
    have hgas : ∃ gas, gasLimitAt tx i = .ok gas := by
      unfold gasLimitAt
      rw [hmsgs, List.getElem?_map, List.getElem?_eq_getElem hplace]
      exact ⟨_, rfl⟩
    obtain ⟨gas, hgas⟩ := hgas
    refine ⟨_, except_bind_ok.mpr ⟨gas, hgas, except_bind_ok.mpr ⟨rest, hrest, rfl⟩⟩, ?_⟩
    rw [List.length_cons, List.length_cons, hlength]

/-- What a failed transaction returns can be parsed. -/
theorem parseTxResult_failed (heth : tx.IsEthereum msgs)
    (hfits : s.transient.txIndex + msgs.length ≤ 2 ^ 31) (hcode : (runTx chain app tx s).1.code ≠ 0)
    : ∃ parsed, parseTxResult (runTx chain app tx s).1 (some tx) = .ok parsed := by
  obtain ⟨-, hevents⟩ := runTx_failed heth hcode
  generalize (runTx chain app tx s).1 = result at hcode hevents
  have hfold : ∃ st, result.events.foldlM parseEvent
      { format := none, eventIndex := 0, parsed := ParsedTxs.empty } = .ok st ∧
        st.parsed.txs.length ≤ msgs.length := by
    rw [foldlM_parseEvent]
    rcases hevents with hnone | hante
    · rw [hnone]
      exact ⟨_, rfl, Nat.zero_le _⟩
    have hindex : ∀ p ∈ msgs.zipIdx.map (fun p => (p.1.hash, s.transient.txIndex + p.2)),
        p.2 < 2 ^ 31 := by
      intro p hp
      obtain ⟨q, hq, rfl⟩ := List.mem_map.mp hp
      obtain ⟨-, hlt, -⟩ := List.mem_zipIdx hq
      omega
    obtain ⟨st, hfold, hlength⟩ := @foldlM_txHashEvents _ hindex
      { format := none, eventIndex := 0, parsed := ParsedTxs.empty } (by simp)
    rw [List.map_map] at hfold
    rw [List.length_map, List.length_zipIdx] at hlength
    refine ⟨st, ?_, ?_⟩
    · rw [hante]
      exact hfold
    · rw [hlength]
      exact (Nat.zero_add _).le
  obtain ⟨st, hst, hle⟩ := hfold
  -- the entries after the gas of a single message
  have hgas : ∃ p : ParsedTxs, p.txs.length ≤ msgs.length ∧
      parseTxResult result (some tx) = (failedTxs tx 0 p.txs >>= fun txs =>
        pure { p with txs := txs }) := by
    unfold parseTxResult
    rw [hst]
    show ∃ p : ParsedTxs, p.txs.length ≤ msgs.length ∧ (if result.code = 0 then _ else _) = _
    rw [if_neg hcode]
    rcases htxs : st.parsed.txs with - | ⟨first, - | ⟨second, rest⟩⟩
    · exact ⟨st.parsed, hle, by rw [htxs]⟩
    · rw [htxs] at hle
      exact ⟨{ st.parsed with txs := [{ first with gasUsed := result.gasUsed }] }, hle, rfl⟩
    · exact ⟨st.parsed, hle, by rw [htxs]⟩
  obtain ⟨p, hlength, hparse⟩ := hgas
  obtain ⟨ps', hfailed, -⟩ := @failedTxs_ok tx msgs heth.messages p.txs 0 (by omega)
  exact ⟨_, hparse.trans (except_bind_ok.mpr ⟨ps', hfailed, rfl⟩)⟩

/-! ## A transaction that could not be committed -/

theorem fillFormat_append {front : List Char} (hfront : '%' ∉ front) (rest : List Char)
    (args : List String) : fillFormat (front ++ rest) args = front ++ fillFormat rest args := by
  induction front with
  | nil => rfl
  | cons c front ih =>
    have hc : '%' ≠ c := fun h => hfront (h ▸ List.mem_cons_self)
    have hmem : '%' ∉ front := fun h => hfront (List.mem_cons_of_mem c h)
    rw [List.cons_append, List.cons_append, fillFormat, ih hmem]
    intro _ _ _ _ _ hpercent _
    exact hc hpercent.symm

theorem Err.toList_text (env : Env) (e : Err) :
    (e.text env).toList = fillFormat e.format.toList (e.args.map (Arg.text env)) :=
  String.toList_ofList

theorem Err.toList_text_wrapped {env : Env} {cause : Err} {format : String}
    (hformat : '%' ∉ format.toList) :
    ((Err.wrapped cause format []).text env).toList =
      format.toList ++ (": ".toList ++ (cause.text env).toList) := by
  have hcolon : '%' ∉ ": ".toList := by decide
  rw [Err.toList_text, Err.toList_text]
  show fillFormat (format ++ ": " ++ cause.format).toList (cause.args.map (Arg.text env)) = _
  rw [String.toList_append, String.toList_append, List.append_assoc, fillFormat_append hformat,
    fillFormat_append hcolon]

theorem Err.toList_text_wrapped_num {env : Env} {cause : Err} {format : String}
    {front : List Char} (hformat : format.toList = front ++ ['%', 'd']) (hfront : '%' ∉ front)
    (n : ℤ) :
    ((Err.wrapped cause format [.num n]).text env).toList =
      front ++ ((toString n).toList ++ (": ".toList ++ (cause.text env).toList)) := by
  have hcolon : '%' ∉ ": ".toList := by decide
  rw [Err.toList_text, Err.toList_text]
  show fillFormat (format ++ ": " ++ cause.format).toList
    (toString n :: cause.args.map (Arg.text env)) = _
  rw [String.toList_append, String.toList_append, List.append_assoc, hformat, List.append_assoc,
    fillFormat_append hfront]
  show front ++ ((toString n).toList ++ fillFormat (": ".toList ++ _) _) = _
  rw [fillFormat_append hcolon]

/-- The error of a message that could not be committed. -/
def commitFailure (msgIndex : ℕ) (cause : Err) : Err :=
  .wrapped (.wrapped (.wrapped (.wrapped cause "failed to commit stateDB" [])
    "failed to apply ethereum core message" []) "failed to apply transaction" [])
    "failed to execute message; message index: %d" [.num msgIndex]

variable {result : ExecTxResult}

/-- A failed commit counts as an expected failure. -/
theorem listed_of_commitFailure {env : Env} {msgIndex : ℕ} {cause : Err}
    (hlog : result.log = (commitFailure msgIndex cause).text env) :
    txSucessOrExpectedFailure result = true := by
  have hcommit : stateDBCommitError.toList <:+: result.log.toList := by
    have hnumbered := @Err.toList_text_wrapped_num env
      (.wrapped (.wrapped (.wrapped cause "failed to commit stateDB" [])
        "failed to apply ethereum core message" []) "failed to apply transaction" [])
      "failed to execute message; message index: %d"
      "failed to execute message; message index: ".toList (by decide) (by decide) msgIndex
    rw [hlog, commitFailure, hnumbered, Err.toList_text_wrapped (by decide),
      Err.toList_text_wrapped (by decide), Err.toList_text_wrapped (by decide)]
    have hskip : ∀ {front rest text : List Char}, text <:+: rest → text <:+: front ++ rest :=
      fun h => h.trans (List.suffix_append _ _).isInfix
    exact hskip (hskip (hskip (hskip (hskip (hskip (hskip (List.prefix_append _ _).isInfix))))))
  unfold txSucessOrExpectedFailure txStateDBCommitError containsText
  rw [decide_eq_true hcommit, Bool.or_true]

section Runs

variable {txs : List AppTx} {s : ChainState Ω}

theorem length_runTxs (txs : List AppTx) (s : ChainState Ω) :
    (runTxs chain app txs s).1.length = txs.length := by
  induction txs generalizing s with
  | nil => rfl
  | cons tx txs ih => rw [runTxs, List.length_cons, List.length_cons, ih]

theorem runTxs_take (txs : List AppTx) (l : ℕ) (s : ChainState Ω) :
    (runTxs chain app (txs.take l) s).1 = (runTxs chain app txs s).1.take l := by
  induction txs generalizing l s with
  | nil => simp [runTxs]
  | cons tx txs ih =>
    cases l with
    | zero => rfl
    | succ l =>
      rw [List.take_succ_cons, runTxs, runTxs, List.take_succ_cons, ih]

theorem getElem?_runTxs {l : ℕ} (htx : txs[l]? = some tx) :
    (runTxs chain app txs s).1[l]? =
      some (runTx chain app tx (runTxs chain app (txs.take l) s).2).1 := by
  induction txs generalizing l s with
  | nil => cases htx
  | cons tx₀ txs ih =>
    cases l with
    | zero =>
      cases htx
      rfl
    | succ l =>
      rw [List.take_succ_cons, runTxs, runTxs, List.getElem?_cons_succ]
      exact ih htx

/-- The number of messages whose results pass a test. -/
def countMsgs (p : ExecTxResult → Bool) : List AppTx → List ExecTxResult → ℕ
  | tx :: txs, result :: results =>
    (if p result then tx.msgs.length else 0) + countMsgs p txs results
  | _, _ => 0

/-- A transaction succeeds. -/
def succeeds (result : ExecTxResult) : Bool := decide (result.code = 0)

/-- The index counts the messages that succeed. -/
theorem txIndex_runTxs (hevm : app.evm.Emits Event.Foreign)
    (heth : ∀ tx ∈ txs, ∃ msgs, tx.IsEthereum msgs) :
    (runTxs chain app txs s).2.transient.txIndex =
      s.transient.txIndex + countMsgs succeeds txs (runTxs chain app txs s).1 := by
  induction txs generalizing s with
  | nil => rfl
  | cons tx txs ih =>
    obtain ⟨msgs, htx⟩ := heth tx List.mem_cons_self
    have hrest := @ih (runTx chain app tx s).2 fun tx' h' => heth tx' (List.mem_cons_of_mem tx h')
    have hlength : tx.msgs.length = msgs.length := by rw [htx.messages, List.length_map]
    rw [runTxs]
    rw [hrest, countMsgs]
    by_cases hcode : (runTx chain app tx s).1.code = 0
    · obtain ⟨runs, hdelivered⟩ := runTx_ethereumTx hevm htx.messages hcode
      have hpass : succeeds (runTx chain app tx s).1 = true := decide_eq_true hcode
      rw [hdelivered.txIndex, if_pos hpass, hlength, Nat.add_assoc]
    · have hfail : ¬ succeeds (runTx chain app tx s).1 = true :=
        fun h => hcode (of_decide_eq_true h)
      rw [(runTx_failed htx hcode).1, if_neg hfail, Nat.zero_add]

end Runs

section Counting

variable {p q : ExecTxResult → Bool}

theorem countMsgs_le (txs : List AppTx) (results : List ExecTxResult) :
    countMsgs p txs results ≤ (txs.map fun tx => tx.msgs.length).sum := by
  induction txs generalizing results with
  | nil => exact Nat.le_refl _
  | cons tx txs ih =>
    cases results with
    | nil => exact Nat.zero_le _
    | cons result results =>
      have hrest := ih results
      rw [countMsgs, List.map_cons, List.sum_cons]
      split
      · omega
      · omega

variable {txs : List AppTx}

theorem countMsgs_take_le (results : List ExecTxResult) {l : ℕ} (htx : txs[l]? = some tx) :
    countMsgs p (txs.take l) results + tx.msgs.length ≤ (txs.map fun tx => tx.msgs.length).sum := by
  obtain ⟨hl, rfl⟩ := List.getElem?_eq_some_iff.mp htx
  have hpart := countMsgs_le (p := p) (txs.take l) results
  have hsplit : txs = txs.take l ++ txs[l] :: txs.drop (l + 1) := by
    rw [List.getElem_cons_drop, List.take_append_drop]
  have hsum := congrArg (fun txs => (txs.map fun tx => tx.msgs.length).sum) hsplit
  rw [List.map_append, List.sum_append, List.map_cons, List.sum_cons] at hsum
  omega

theorem countMsgs_mono (h : ∀ r, p r = true → q r = true) (txs : List AppTx)
    (results : List ExecTxResult) : countMsgs p txs results ≤ countMsgs q txs results := by
  induction txs generalizing results with
  | nil => exact Nat.le_refl _
  | cons tx txs ih =>
    cases results with
    | nil => exact Nat.le_refl _
    | cons result results =>
      have hrest := ih results
      rw [countMsgs, countMsgs]
      by_cases hp : p result = true
      · rw [if_pos hp, if_pos (h result hp)]
        omega
      · rw [if_neg hp]
        omega

/-- **When two counts agree**: no transaction passes only one test. -/
theorem countMsgs_eq_iff (h : ∀ r, p r = true → q r = true) (hne : ∀ tx ∈ txs, tx.msgs ≠ [])
    {results : List ExecTxResult} (hlength : results.length = txs.length) :
    countMsgs p txs results = countMsgs q txs results ↔ ∀ r ∈ results, q r = true → p r = true := by
  induction txs generalizing results with
  | nil =>
    cases List.length_eq_zero_iff.mp hlength
    simp [countMsgs]
  | cons tx txs ih =>
    cases results with
    | nil => cases hlength
    | cons result results =>
      have hrest := @ih (fun tx' h' => hne tx' (List.mem_cons_of_mem tx h')) results
        (Nat.succ.inj hlength)
      have hmono := countMsgs_mono h txs results
      have hpos : 0 < tx.msgs.length := List.length_pos_iff.mpr (hne tx List.mem_cons_self)
      rw [countMsgs, countMsgs, List.forall_mem_cons, ← hrest]
      by_cases hq : q result = true
      · by_cases hp : p result = true
        · rw [if_pos hp, if_pos hq]
          simp only [hp, implies_true, true_and]
          omega
        · rw [if_neg hp, if_pos hq]
          refine ⟨fun hsame => ?_, fun hall => absurd (hall.1 hq) hp⟩
          omega
      · have hp : ¬ p result = true := fun hp => hq (h result hp)
        rw [if_neg hp, if_neg hq]
        simp only [hq, Bool.false_eq_true, false_implies, true_and]
        omega

theorem length_listedPlaces (heth : ∀ tx ∈ txs, ∃ msgs, tx.IsEthereum msgs)
    (results : List ExecTxResult) (k : ℕ) :
    (listedPlaces (txs.map .ok) results k).length =
      countMsgs txSucessOrExpectedFailure txs results := by
  induction txs generalizing results k with
  | nil => rfl
  | cons tx txs ih =>
    cases results with
    | nil => rfl
    | cons result results =>
      obtain ⟨msgs, htx⟩ := heth tx List.mem_cons_self
      have hrest := ih (fun tx' h' => heth tx' (List.mem_cons_of_mem tx h')) results (k + 1)
      rw [List.map_cons, listedPlaces, List.length_append, length_placesFrom, hrest, countMsgs]
      unfold listedMsgs
      cases txSucessOrExpectedFailure result with
      | false => simp
      | true => simp [htx.messages]

end Counting

/-! ## The three views of a message -/

/-- The messages of a transaction as they are executed. -/
def executedMsgs (chain : Chain) (app : App Ω) (tx : AppTx) (s : ChainState Ω) : List MsgRun :=
  match (newAnteHandler chain app.decorators .deliver tx).run s.newContext with
  | .error _ _ => []
  | .ok _ s₁ =>
    match (messageRuns chain app tx (ethereumMsgs tx.msgs)).run s₁ with
    | .error _ _ => []
    | .ok runs _ => runs

theorem EthereumDelivered.executedMsgs_eq {runs : List MsgRun} {s' : ChainState Ω}
    (h : EthereumDelivered chain app tx msgs result runs s s') (heth : tx.IsEthereum msgs) :
    executedMsgs chain app tx s = runs := by
  obtain ⟨priority, s₁, s₂, hante, hruns⟩ := h.executed
  unfold executedMsgs
  rw [hante]
  dsimp only
  rw [heth.messages, ethereumMsgs_map, hruns]

/-- A message has one index in events, logs, parser and indexer. -/
structure OneIndex (chain : Chain) (app : App Ω) (height : ℤ) (saved : List (Hash × TxResult))
    (l : ℕ) (tx : AppTx) (result : ExecTxResult) (j : ℕ) (m : MsgRun) : Prop where
  event : m.event chain app tx j ∈ result.events
  logs : ∀ log ∈ m.response.logs, log.txIndex = m.txIndex
  parser : ∃ r, parseTxIndexerResult height l result (some tx)
    (fun txs => txs.getTxByMsgIndex j) = .ok r ∧ r.ethTxIndex = m.txIndex
  stored : ∃ r ∈ saved, r.2.txIndex = l ∧ r.2.msgIndex = j
  indexer : ∀ r ∈ saved, r.2.txIndex = l → r.2.msgIndex = j → r.2.ethTxIndex = m.txIndex

namespace EthereumDelivered

variable {msgs : List MsgEthereumTx} {result : ExecTxResult} {runs : List MsgRun}
  {s s' : ChainState Ω}

variable {j : ℕ} {m : MsgRun}

variable (h : EthereumDelivered chain app tx msgs result runs s s')
include h

theorem event_mem (hm : runs[j]? = some m) : m.event chain app tx j ∈ result.events := by
  have hmem : m.event chain app tx j ∈ Event.ofKind eventTypeEthereumTx result.events := by
    rw [h.ethereum]
    refine List.mem_append_right _ (List.mem_map.mpr ⟨(m, j), ?_, rfl⟩)
    exact List.mem_zipIdx_iff_getElem?.mpr hm
  exact (List.mem_filter.mp hmem).1

theorem parseTxIndexerResult (hfits : s.transient.txIndex + msgs.length ≤ 2 ^ 31)
    (hm : runs[j]? = some m) (height : ℤ) (l : ℕ) :
    ∃ r, TacEvm.parseTxIndexerResult height l result (some tx)
      (fun txs => txs.getTxByMsgIndex j) = .ok r ∧ r.ethTxIndex = m.txIndex := by
  have hentry : ParsedTxs.getTxByMsgIndex
      { txs := entriesFrom 0 (runs.map MsgRun.report)
        txHashes := hashTable (fun _ => none) 0 (runs.map MsgRun.report) } (j : ℤ) =
      some (m.report.entry (0 + j)) := by
    rw [getTxByMsgIndex_natCast, getElem?_entriesFrom, List.getElem?_map, hm]
    rfl
  unfold TacEvm.parseTxIndexerResult
  rw [h.parseTxResult hfits (some tx)]
  dsimp only [Except.mapError, bind, Except.bind]
  rw [hentry]
  exact ⟨_, rfl, rfl⟩

end EthereumDelivered

section Block

variable {txs : List AppTx} {s : ChainState Ω}

variable {l : ℕ}

/-- What the indexer saves is numbered from what is listed before. -/
theorem saved_of_tx {msgs : List MsgEthereumTx} (heth : tx.IsEthereum msgs)
    {results : List ExecTxResult} {height : ℤ} {saved : List (Hash × TxResult)}
    (hsize : txs.length + (txs.map fun tx => tx.msgs.length).sum < 2 ^ 31)
    (hsaves : Saves height (listedPlaces (txs.map .ok) results 0) 0 saved) {l j : ℕ}
    (htx : txs[l]? = some tx) {result : ExecTxResult} (hresult : results[l]? = some result)
    (hcode : result.code = 0) (hj : j < msgs.length) :
    (∃ r ∈ saved, r.2.txIndex = l ∧ r.2.msgIndex = j) ∧
      ∀ r ∈ saved, r.2.txIndex = l → r.2.msgIndex = j → r.2.ethTxIndex =
        ((listedPlaces ((txs.take l).map .ok) (results.take l) 0).length + j : ℕ) := by
  have hraw : (txs.map Except.ok : List (Except Err AppTx))[l]? = some (.ok tx) := by
    rw [List.getElem?_map, htx]
    rfl
  have hlisted : listedMsgs (.ok tx) result = msgs := by
    unfold listedMsgs
    rw [if_neg (by simp [txSucessOrExpectedFailure, hcode])]
    dsimp only
    rw [heth.messages, ethereumMsgs_map]
  -- the places of a block fit in 32 bits
  have hplaceFits : ∀ {l' : ℕ} {tx' : AppTx}, txs[l']? = some tx' →
      l' < 2 ^ 32 ∧ tx'.msgs.length < 2 ^ 32 := by
    intro l' tx' htx'
    have hlt : l' < txs.length := (List.getElem?_eq_some_iff.mp htx').1
    have hle : tx'.msgs.length ≤ (txs.map fun tx => tx.msgs.length).sum :=
      List.le_sum_of_mem (List.mem_map_of_mem (List.mem_of_getElem? htx'))
    omega
  obtain ⟨hl, hlength⟩ := hplaceFits htx
  rw [heth.messages, List.length_map] at hlength
  constructor
  · obtain ⟨msg, hmsg⟩ : ∃ msg, msgs[j]? = some msg := ⟨_, List.getElem?_eq_getElem hj⟩
    obtain ⟨r, hr, hsaved⟩ := hsaves.getElem? (getElem?_listedPlaces hraw hresult (hlisted ▸ hmsg))
    refine ⟨r, List.mem_of_getElem? hr, ?_, ?_⟩
    · rw [hsaved.txIndex]
      dsimp only
      omega
    · rw [hsaved.msgIndex]
      dsimp only
      omega
  · intro r hr htxIndex hmsgIndex
    obtain ⟨i, hi, hget⟩ := List.getElem_of_mem hr
    obtain ⟨place, hplace, hsaved⟩ := hsaves.exists_place
      ((List.getElem?_eq_getElem hi).trans (congrArg some hget))
    obtain ⟨l', raw', result', hraw', hresult', hplaceTx, hplaceMsg, hnumber⟩ :=
      number_of_place hplace
    rw [List.getElem?_map] at hraw'
    obtain ⟨tx', htx', rfl⟩ := Option.map_eq_some_iff.mp hraw'
    have hl' : l' = l := by
      have hfits := (hplaceFits htx').1
      have hindex := hsaved.txIndex
      omega
    subst hl'
    rw [hresult] at hresult'
    rw [htx] at htx'
    cases hresult'
    cases htx'
    rw [hlisted] at hplaceMsg
    have hj' : place.msgIndex = j := by
      have hlt : place.msgIndex < msgs.length := (List.getElem?_eq_some_iff.mp hplaceMsg).1
      have hindex := hsaved.msgIndex
      omega
    rw [hsaved.ethTxIndex, hnumber, hj', List.map_take, Nat.zero_add]

section

variable (hevm : app.evm.Emits Event.Foreign) (heth : ∀ tx ∈ txs, ∃ msgs, tx.IsEthereum msgs)
  (hstart : s.transient.txIndex = 0)
include hevm heth hstart

theorem txIndex_take_le (htx : txs[l]? = some tx) :
    (runTxs chain app (txs.take l) s).2.transient.txIndex + tx.msgs.length ≤
      (txs.map fun tx => tx.msgs.length).sum := by
  rw [txIndex_runTxs hevm fun tx' h' => heth tx' (List.mem_of_mem_take h'), hstart, Nat.zero_add]
  exact countMsgs_take_le _ htx

/-- Every transaction of a run can be read by the indexer. -/
theorem readable_runTxs (hsize : (txs.map fun tx => tx.msgs.length).sum < 2 ^ 31)
    {raw : Except Err AppTx} {result : ExecTxResult}
    (hraw : (txs.map Except.ok : List (Except Err AppTx))[l]? = some raw)
    (hresult : (runTxs chain app txs s).1[l]? = some result) : Readable raw result := by
  rw [List.getElem?_map] at hraw
  obtain ⟨tx, htx, rfl⟩ := Option.map_eq_some_iff.mp hraw
  rw [getElem?_runTxs htx] at hresult
  cases hresult
  obtain ⟨msgs, hmsgs⟩ := heth tx (List.mem_of_getElem? htx)
  have hle : (runTxs chain app (txs.take l) s).2.transient.txIndex + tx.msgs.length ≤ _ :=
    txIndex_take_le hevm heth hstart htx
  rw [hmsgs.messages, List.length_map] at hle
  have hoption : isEthTx tx = true := decide_eq_true hmsgs.option
  generalize (runTxs chain app (txs.take l) s).2 = s at hle ⊢
  by_cases hcode : (runTx chain app tx s).1.code = 0
  · obtain ⟨runs, hdelivered⟩ := runTx_ethereumTx hevm hmsgs.messages hcode
    refine .ethereum rfl hoption msgs hmsgs.messages _ (hdelivered.parseTxResult (by omega) _)
      fun _ => ?_
    rw [length_entriesFrom, List.length_map, hdelivered.length]
  · obtain ⟨parsed, hparsed⟩ := parseTxResult_failed hmsgs (by omega) hcode
    exact .ethereum rfl hoption msgs hmsgs.messages parsed hparsed fun h => absurd h hcode

theorem indexTxs_runTxs (hsize : (txs.map fun tx => tx.msgs.length).sum < 2 ^ 31) (height : ℤ) :
    ∃ saved, indexTxs height (txs.map .ok) (runTxs chain app txs s).1 0 0 = .ok saved ∧
      Saves height (listedPlaces (txs.map .ok) (runTxs chain app txs s).1 0) 0 saved := by
  have hlength : (runTxs chain app txs s).1.length =
      (txs.map Except.ok : List (Except Err AppTx)).length := by
    rw [length_runTxs, List.length_map]
  have hlisted : 0 + (listedPlaces (txs.map .ok) (runTxs chain app txs s).1 0).length < 2 ^ 31 := by
    have hle := countMsgs_le (p := txSucessOrExpectedFailure) txs (runTxs chain app txs s).1
    rw [length_listedPlaces heth]
    omega
  exact indexTxs_ok hlength (fun l raw result => readable_runTxs hevm heth hstart hsize) hlisted

/-- The index of a message, on the chain and as it is saved. -/
theorem oneIndex_at
    (hsize : txs.length + (txs.map fun tx => tx.msgs.length).sum < 2 ^ 31) {height : ℤ}
    {saved : List (Hash × TxResult)}
    (hsaves : Saves height (listedPlaces (txs.map .ok) (runTxs chain app txs s).1 0) 0 saved)
    {j : ℕ} (htx : txs[l]? = some tx) {result : ExecTxResult}
    (hresult : (runTxs chain app txs s).1[l]? = some result) (hcode : result.code = 0)
    (hj : j < tx.msgs.length) :
    ∃ m, (executedMsgs chain app tx (runTxs chain app (txs.take l) s).2)[j]? = some m ∧
      (OneIndex chain app height saved l tx result j m ↔
        ∀ r ∈ (runTxs chain app txs s).1.take l,
          txSucessOrExpectedFailure r = true → succeeds r = true) := by
  obtain ⟨msgs, hmsgs⟩ := heth tx (List.mem_of_getElem? htx)
  have htake : ∀ tx' ∈ txs.take l, ∃ msgs, tx'.IsEthereum msgs :=
    fun tx' h' => heth tx' (List.mem_of_mem_take h')
  have hbound : (runTxs chain app (txs.take l) s).2.transient.txIndex + tx.msgs.length ≤ _ :=
    txIndex_take_le hevm heth hstart htx
  have hindex : (runTxs chain app (txs.take l) s).2.transient.txIndex = _ :=
    txIndex_runTxs hevm htake
  rw [hstart, Nat.zero_add, runTxs_take] at hindex
  rw [hmsgs.messages, List.length_map] at hj hbound
  obtain ⟨hstored, hnumber⟩ := saved_of_tx hmsgs hsize hsaves htx hresult hcode hj
  rw [length_listedPlaces htake] at hnumber
  -- the execution of the transaction
  have hsame := hresult
  rw [getElem?_runTxs htx] at hsame
  cases hsame
  obtain ⟨runs, hdelivered⟩ := runTx_ethereumTx hevm hmsgs.messages hcode
  obtain ⟨m, hm⟩ : ∃ m, runs[j]? = some m :=
    ⟨_, List.getElem?_eq_getElem (hdelivered.length ▸ hj)⟩
  have hmIndex := hdelivered.index j m hm
  refine ⟨m, by rw [hdelivered.executedMsgs_eq hmsgs]; exact hm, ?_⟩
  have hlisted : ∀ r, succeeds r = true → txSucessOrExpectedFailure r = true := by
    intro r hr
    simp [txSucessOrExpectedFailure, of_decide_eq_true hr]
  have hne : ∀ tx' ∈ txs.take l, tx'.msgs ≠ [] := by
    intro tx' htx'
    obtain ⟨msgs', hmsgs'⟩ := htake tx' htx'
    rw [hmsgs'.messages]
    exact fun h => hmsgs'.nonempty (List.map_eq_nil_iff.mp h)
  rw [← countMsgs_eq_iff hlisted hne (by rw [List.length_take, List.length_take, length_runTxs])]
  constructor
  · intro hone
    obtain ⟨r, hr, hrTx, hrMsg⟩ := hstored
    have hleft := hone.indexer r hr hrTx hrMsg
    have hright := hnumber r hr hrTx hrMsg
    omega
  · intro hcount
    refine ⟨hdelivered.event_mem hm, hdelivered.logs m (List.mem_of_getElem? hm),
      hdelivered.parseTxIndexerResult (by omega) hm height l, hstored, fun r hr hrTx hrMsg => ?_⟩
    have hright := hnumber r hr hrTx hrMsg
    omega

end

/-- No expected failure comes before a success. -/
def ExpectedFailuresLast (results : List ExecTxResult) : Prop :=
  ∀ (i l : ℕ) (r r' : ExecTxResult), i < l → results[i]? = some r → results[l]? = some r' →
    r'.code = 0 → txSucessOrExpectedFailure r = true → r.code = 0

/-- **One index everywhere** if and only if the failures that the server expects come last. -/
theorem oneIndex_iff_expectedFailuresLast (hevm : app.evm.Emits Event.Foreign) {block : Block}
    (htxs : block.txs = txs.map .ok) (heth : ∀ tx ∈ txs, ∃ msgs, tx.IsEthereum msgs)
    (hstart : s.transient.txIndex = 0) :
    ∃ saved, (∀ (codec : ResultCodec) (db : IndexDb),
        indexBlock codec db block (runTxs chain app txs s).1 =
          .ok (saved.foldl (saveTxResult codec) db)) ∧
      ((∀ (l : ℕ) (tx : AppTx) (result : ExecTxResult), txs[l]? = some tx →
          (runTxs chain app txs s).1[l]? = some result → result.code = 0 →
          ∀ j < tx.msgs.length, ∃ m,
            (executedMsgs chain app tx (runTxs chain app (txs.take l) s).2)[j]? = some m ∧
            OneIndex chain app block.height saved l tx result j m) ↔
        ExpectedFailuresLast (runTxs chain app txs s).1) := by
  have hsize := block.size
  have hcount : (txs.map .ok).map messageCount = txs.map fun tx => tx.msgs.length := by
    rw [List.map_map]
    rfl
  rw [htxs, hcount, List.length_map] at hsize
  obtain ⟨saved, hindex, hsaves⟩ := indexTxs_runTxs hevm heth hstart (by omega) block.height
  refine ⟨saved, fun codec db => by rw [indexBlock, htxs, hindex]; rfl, ?_, ?_⟩
  · intro hviews i l r r' hil hr hr' hcode hlisted
    have hlt : l < txs.length := by
      have hplace := (List.getElem?_eq_some_iff.mp hr').1
      rw [length_runTxs] at hplace
      exact hplace
    have htx := List.getElem?_eq_getElem hlt
    obtain ⟨msgs, hmsgs⟩ := heth _ (List.mem_of_getElem? htx)
    have hpos : 0 < txs[l].msgs.length := by
      rw [hmsgs.messages, List.length_map]
      exact List.length_pos_iff.mpr hmsgs.nonempty
    obtain ⟨m, hm, hiff⟩ := oneIndex_at hevm heth hstart hsize hsaves htx hr' hcode hpos
    obtain ⟨m', hm', hone⟩ := hviews l _ r' htx hr' hcode 0 hpos
    rw [hm] at hm'
    cases hm'
    have hmem : r ∈ (runTxs chain app txs s).1.take l := by
      refine List.mem_of_getElem? (i := i) ?_
      rw [List.getElem?_take_of_lt hil]
      exact hr
    exact of_decide_eq_true (hiff.mp hone r hmem hlisted)
  · intro hlast l tx result htx hresult hcode j hj
    obtain ⟨m, hm, hiff⟩ := oneIndex_at hevm heth hstart hsize hsaves htx hresult hcode hj
    refine ⟨m, hm, hiff.mpr ?_⟩
    intro r hr hlisted
    obtain ⟨i, hi, hget⟩ := List.mem_take_iff_getElem.mp hr
    have hri : (runTxs chain app txs s).1[i]? = some r :=
      (List.getElem?_eq_getElem (by omega)).trans (congrArg some hget)
    exact decide_eq_true (hlast i l r result (by omega) hri hresult hcode hlisted)

end Block

theorem Devnet.payingEvm_emits (P : Event → Prop) : payingEvm.Emits P := by
  intro msg gas db c hc
  rcases hc with hc | hc
  · cases hc
  · dsimp only [payingEvm] at hc
    split at hc
    · cases hc
    · simp at hc

/-- A block with two payments to `0xC1`. -/
def Devnet.paymentBlock (value value' : ℤ) : Block where
  height := 1
  txs := [.ok (payment 0 value), .ok (payment 1 value')]
  height_pos := by decide
  height_lt := by decide
  size := (by decide : 2 + (1 + (1 + 0)) < 2 ^ 31)

theorem Devnet.payment_isEthereum (nonce : UInt64) (value : ℤ) :
    ∃ msgs, (payment nonce value).IsEthereum msgs :=
  ⟨_, rfl, rfl, List.cons_ne_nil _ _⟩

theorem Devnet.payments_areEthereum (value value' : ℤ) :
    ∀ tx ∈ [payment 0 value, payment 1 value'], ∃ msgs, tx.IsEthereum msgs := by
  intro tx htx
  rcases List.mem_pair.mp htx with rfl | rfl
  · exact payment_isEthereum 0 value
  · exact payment_isEthereum 1 value'

/-- A payment that is refused after one without a value. -/
theorem oneIndex_iff_expectedFailuresLast_devnet :
    (runTxs blockingChain (Devnet.app payingEvm)
        [payment 0 0, payment 1 1] (chainState 100000)).1.map ExecTxResult.code = [0, 1] ∧
      ∃ saved, ∀ result, (runTxs blockingChain (Devnet.app payingEvm)
          [payment 0 0, payment 1 1] (chainState 100000)).1[0]? = some result →
        ∃ m, (executedMsgs blockingChain (Devnet.app payingEvm)
            (payment 0 0) (chainState 100000))[0]? = some m ∧
          OneIndex blockingChain (Devnet.app payingEvm) 1 saved 0 (payment 0 0) result 0 m := by
  have hcodes : (runTxs blockingChain (Devnet.app payingEvm)
      [payment 0 0, payment 1 1] (chainState 100000)).1.map ExecTxResult.code = [0, 1] := by
    decide +kernel
  obtain ⟨saved, -, hiff⟩ := @oneIndex_iff_expectedFailuresLast Unit blockingChain
    (Devnet.app payingEvm) [payment 0 0, payment 1 1]
    (chainState 100000) (payingEvm_emits _) (paymentBlock 0 1) rfl
    (payments_areEthereum 0 1) rfl
  refine ⟨hcodes, saved, fun result hresult => ?_⟩
  have hcodeAt : ∀ (l : ℕ) (r : ExecTxResult), (runTxs blockingChain
      (Devnet.app payingEvm) [payment 0 0, payment 1 1]
        (chainState 100000)).1[l]? = some r → ([0, 1] : List ℕ)[l]? = some r.code := by
    intro l r hr
    rw [← hcodes, List.getElem?_map, hr]
    rfl
  have hlast : ExpectedFailuresLast (runTxs blockingChain (Devnet.app payingEvm)
      [payment 0 0, payment 1 1] (chainState 100000)).1 := by
    rintro i l r r' hil - hr' hcode -
    have hplace := hcodeAt l r' hr'
    rw [hcode] at hplace
    rcases l with - | - | l
    · omega
    · cases hplace
    · cases hplace
  have hcode : result.code = 0 := (Option.some.inj (hcodeAt 0 result hresult)).symm
  exact hiff.mpr hlast 0 _ result rfl hresult hcode 0 (by decide)

/-- Why a payment to `0xC1` is refused. -/
def Devnet.refusal : Err :=
  .wrapped (.errorf "%s is not allowed to receive funds: unauthorized" [.addr 0xC1])
    "failed to set account" []

theorem Devnet.payment_log :
    (runTx blockingChain (Devnet.app payingEvm) (payment 0 1)
      (chainState 100000)).1.log = (commitFailure 0 refusal).text blockingChain.env := by
  rfl

/-- **A payment that cannot be committed** shifts the next index. -/
theorem oneIndex_commitFailure :
    ∃ saved refused accepted m entry r,
      (runTxs blockingChain (Devnet.app payingEvm)
        [payment 0 1, payment 1 0] (chainState 100000)).1 = [refused, accepted] ∧
      refused.code = 1 ∧ accepted.code = 0 ∧
      indexTxs 1 (paymentBlock 1 0).txs [refused, accepted] 0 0 = .ok saved ∧
      (executedMsgs blockingChain (Devnet.app payingEvm) (payment 1 0)
        (runTxs blockingChain (Devnet.app payingEvm) [payment 0 1]
          (chainState 100000)).2)[0]? = some m ∧
      m.event blockingChain (Devnet.app payingEvm) (payment 1 0) 0 ∈
        accepted.events ∧ m.txIndex = 0 ∧
      parseTxIndexerResult 1 1 accepted (some (payment 1 0))
        (fun txs => txs.getTxByMsgIndex 0) = .ok r ∧ r.ethTxIndex = 0 ∧
      entry ∈ saved ∧ entry.2.txIndex = 1 ∧ entry.2.msgIndex = 0 ∧ entry.2.ethTxIndex = 1 := by
  -- the two results
  obtain ⟨refused, hrefused⟩ : ∃ r, (runTx blockingChain (Devnet.app payingEvm)
    (payment 0 1) (chainState 100000)).1 = r := ⟨_, rfl⟩
  obtain ⟨s₁, hs₁⟩ : ∃ s₁, (runTxs blockingChain (Devnet.app payingEvm)
    [payment 0 1] (chainState 100000)).2 = s₁ := ⟨_, rfl⟩
  obtain ⟨accepted, haccepted⟩ : ∃ r, (runTx blockingChain (Devnet.app payingEvm)
    (payment 1 0) s₁).1 = r := ⟨_, rfl⟩
  have hresults : (runTxs blockingChain (Devnet.app payingEvm)
      [payment 0 1, payment 1 0] (chainState 100000)).1 = [refused, accepted] := by
    rw [runTxs, runTxs] at hs₁
    rw [runTxs, runTxs, runTxs]
    rw [hs₁, hrefused, haccepted]
  have hcodes : (runTxs blockingChain (Devnet.app payingEvm)
      [payment 0 1, payment 1 0] (chainState 100000)).1.map ExecTxResult.code = [1, 0] := by
    decide +kernel
  have hindex : s₁.transient.txIndex = 0 := by
    rw [← hs₁]
    decide +kernel
  rw [hresults] at hcodes
  obtain ⟨hrefusedCode, hacceptedCode, -⟩ : refused.code = 1 ∧ accepted.code = 0 ∧ True := by
    simpa using hcodes
  have hlisted : txSucessOrExpectedFailure refused = true := by
    rw [← hrefused]
    exact listed_of_commitFailure payment_log
  -- what the indexer saves
  have heth := payments_areEthereum 1 0
  have hindexed := @indexTxs_runTxs Unit blockingChain
    (Devnet.app payingEvm) [payment 0 1, payment 1 0]
    (chainState 100000) (payingEvm_emits _) heth rfl (by decide) 1
  rw [hresults] at hindexed
  obtain ⟨saved, hsaved, hsaves⟩ := hindexed
  obtain ⟨msgs, hmsgs⟩ := payment_isEthereum 1 0
  have hlength : msgs.length = 1 := by
    have h := congrArg List.length hmsgs.messages
    rw [List.length_map] at h
    exact h.symm
  obtain ⟨⟨entry, hentry, hentryTx, hentryMsg⟩, hnumber⟩ := @saved_of_tx (payment 1 0)
    [payment 0 1, payment 1 0] msgs hmsgs [refused, accepted] 1 saved (by decide)
    hsaves 1 0 rfl accepted rfl hacceptedCode (by omega)
  have hbefore : (listedPlaces (([payment 0 1, payment 1 0].take 1).map .ok)
      ([refused, accepted].take 1) 0).length = 1 := by
    rw [length_listedPlaces fun tx htx => heth tx (List.mem_of_mem_take htx)]
    show (if txSucessOrExpectedFailure refused = true then 1 else 0) + 0 = 1
    rw [if_pos hlisted]
  -- what the chain has
  rw [← haccepted] at hacceptedCode
  obtain ⟨runs, hdelivered⟩ :=
    runTx_ethereumTx (payingEvm_emits _) hmsgs.messages hacceptedCode
  rw [haccepted] at hdelivered hacceptedCode
  obtain ⟨m, hm⟩ : ∃ m, runs[0]? = some m :=
    ⟨_, List.getElem?_eq_getElem (by rw [hdelivered.length]; omega)⟩
  have hmIndex : m.txIndex = 0 := by rw [hdelivered.index 0 m hm, hindex]
  obtain ⟨r, hr, hrIndex⟩ := hdelivered.parseTxIndexerResult (by omega) hm 1 1
  refine ⟨saved, refused, accepted, m, entry, r, hresults, hrefusedCode, hacceptedCode, hsaved, ?_,
    hdelivered.event_mem hm, hmIndex, hr, ?_, hentry, hentryTx, hentryMsg, ?_⟩
  · rw [hs₁, hdelivered.executedMsgs_eq hmsgs]
    exact hm
  · rw [hrIndex, hmIndex]
    rfl
  · rw [hnumber entry hentry hentryTx hentryMsg, hbefore]
    rfl

end TacEvm
