import TacEvm.Analysis.AnteRouting
import TacEvm.Analysis.MessageRuns
import TacEvm.Model.DevnetApp

/-!
# Reading the events of a transaction back

The JSON-RPC server finds the messages of a transaction in their order, each with the hash, the
index, the gas and the outcome of its execution, and its logs. The index of the last message has to
fit in 31 bits.
-/

namespace TacEvm

open FallibleState Devnet

variable {Ω : Type} {chain : Chain} {app : App Ω} {tx : AppTx}

/-- The attributes the parser looks at. -/
def parsedKeys : List String := ["ethereumTxHash", "txIndex", "txGasUsed", "ethereumTxFailed"]

variable {attrs : List (String × String)}

theorem fillTxAttributes_other (h : ∀ attr ∈ attrs, attr.1 ∉ parsedKeys) (p : ParsedTx) :
    fillTxAttributes p attrs = .ok p := by
  induction attrs with
  | nil => rfl
  | cons attr attrs ih =>
    have hhead : fillTxAttribute p attr = .ok p := by
      have hkeys := h attr List.mem_cons_self
      simp only [parsedKeys, List.mem_cons, List.not_mem_nil, or_false, not_or] at hkeys
      obtain ⟨hhash, hindex, hgas, hfailed⟩ := hkeys
      rw [fillTxAttribute, if_neg hhash, if_neg hindex, if_neg hgas, if_neg hfailed]
    have htail : fillTxAttributes p attrs = .ok p :=
      ih fun attr' hmem => h attr' (List.mem_cons_of_mem attr hmem)
    exact except_bind_ok.mpr ⟨p, hhead, htail⟩

theorem fillTxAttributes_append {attrs' : List (String × String)} {p p' : ParsedTx}
    (h : fillTxAttributes p attrs = .ok p') :
    fillTxAttributes p (attrs ++ attrs') = fillTxAttributes p' attrs' := by
  unfold fillTxAttributes at h ⊢
  rw [List.foldlM_append, h]
  rfl

theorem fillTxAttribute_hash (p : ParsedTx) (hash : Hash) :
    fillTxAttribute p ("ethereumTxHash", quote (hashHex hash)) = .ok { p with hash := hash } := by
  rw [fillTxAttribute, if_pos rfl, ascii_quote, hexToHash_hashHex]

theorem fillTxAttribute_txIndex (p : ParsedTx) {n : ℕ} (h : n < 2 ^ 31) :
    fillTxAttribute p ("txIndex", toString n) = .ok { p with ethTxIndex := n } := by
  have hkey : fillTxAttribute p ("txIndex", toString n) =
      (parseUint (toString n) 31).map fun (txIndex : ℕ) => { p with ethTxIndex := txIndex } := rfl
  rw [hkey, parseUint_toString, if_pos h]
  rfl

theorem fillTxAttribute_gasUsed (p : ParsedTx) (gas : UInt64) :
    fillTxAttribute p ("txGasUsed", toString gas.toNat) = .ok { p with gasUsed := gas } := by
  have hkey : fillTxAttribute p ("txGasUsed", toString gas.toNat) =
      (parseUint (toString gas.toNat) 64).map fun gasUsed =>
        { p with gasUsed := UInt64.ofNat gasUsed } := rfl
  have hread : UInt64.ofNat gas.toNat = gas := UInt64.ofNat_toNat
  rw [hkey, parseUint_toString, if_pos gas.toNat_lt, Except.map, hread]

theorem fillTxAttribute_failed (p : ParsedTx) {text : String} (h : text ≠ "") :
    fillTxAttribute p ("ethereumTxFailed", text) = .ok { p with failed := true } := by
  have hkey : fillTxAttribute p ("ethereumTxFailed", text) =
      .ok { p with failed := decide (text ≠ "") } := rfl
  rw [hkey, decide_eq_true h]

/-- What is reported of a message. -/
def MsgRun.report (m : MsgRun) : Report where
  hash := m.response.hash
  txIndex := m.txIndex
  gasUsed := m.response.gasUsed
  failed := m.response.failed

/-- The event of the ante handler. -/
def txHashEvent (hash : String) (txIndex : ℕ) : Event where
  kind := "ethereum_tx"
  attributes := [("ethereumTxHash", hash), ("txIndex", toString txIndex)]

/-- The event of a message is read back as its report. -/
theorem fillTxAttributes_event (m : MsgRun) (hindex : m.txIndex < 2 ^ 31) (i k : ℕ) :
    fillTxAttributes (newParsedTx i) (m.event chain app tx k).attributes =
      .ok (m.report.entry i) := by
  have hnumbers : fillTxAttributes (newParsedTx i)
      [("amount", toString (m.txData.getValue.getD 0)),
        ("ethereumTxHash", quote (hashHex m.response.hash)), ("txIndex", toString m.txIndex),
        ("txGasUsed", toString m.response.gasUsed.toNat)] =
      .ok { m.report.entry i with failed := false } := by
    refine except_bind_ok.mpr ⟨newParsedTx i, rfl, except_bind_ok.mpr ⟨_, fillTxAttribute_hash _ _,
      except_bind_ok.mpr ⟨_, fillTxAttribute_txIndex _ hindex,
        except_bind_ok.mpr ⟨_, fillTxAttribute_gasUsed _ _, rfl⟩⟩⟩⟩
  have hcomet : ∀ p, fillTxAttributes p
      ((app.cometHash tx).toList.map fun hash => ("txHash", hash)) = .ok p := by
    refine fillTxAttributes_other fun attr hattr => ?_
    obtain ⟨hash, -, rfl⟩ := List.mem_map.mp hattr
    exact (by decide : ("txHash" : String) ∉ parsedKeys)
  have hrecipient : ∀ p, fillTxAttributes p
      (m.txData.getTo.toList.map fun a => ("recipient", quote (addressHex chain.env a))) =
        .ok p := by
    refine fillTxAttributes_other fun attr hattr => ?_
    obtain ⟨a, -, rfl⟩ := List.mem_map.mp hattr
    exact (by decide : ("recipient" : String) ∉ parsedKeys)
  have hfailed : fillTxAttributes { m.report.entry i with failed := false }
      (if m.response.failed then [("ethereumTxFailed", m.response.vmError)] else []) =
        .ok (m.report.entry i) := by
    cases hresponse : m.response.failed with
    | false =>
      have hentry : m.report.failed = false := hresponse
      rw [Report.entry, hentry]
      rfl
    | true =>
      have hentry : m.report.failed = true := hresponse
      have htext : m.response.vmError ≠ "" := of_decide_eq_true hresponse
      rw [Report.entry, hentry]
      exact except_bind_ok.mpr ⟨_, fillTxAttribute_failed _ htext, rfl⟩
  have hplace : ∀ p, fillTxAttributes p [("msg_index", toString k)] = .ok p := by
    refine fillTxAttributes_other fun attr hattr => ?_
    cases List.mem_singleton.mp hattr
    exact (by decide : ("msg_index" : String) ∉ parsedKeys)
  show fillTxAttributes _ (((([_, _, _, _] ++ _) ++ _) ++ _) ++ _) = _
  rw [List.append_assoc, List.append_assoc, List.append_assoc, fillTxAttributes_append hnumbers,
    fillTxAttributes_append (hcomet _), fillTxAttributes_append (hrecipient _),
    fillTxAttributes_append hfailed, hplace]

/-- **The two events of a message** give its entry. -/
theorem MsgRun.reports (m : MsgRun) (hindex : m.txIndex < 2 ^ 31) (k : ℕ) :
    Reports m.report (txHashEvent (quote (hashHex m.response.hash)) m.txIndex)
      (m.event chain app tx k) where
  firstKind := rfl
  firstLength := rfl
  firstReads := fun i => except_bind_ok.mpr ⟨_, fillTxAttribute_hash _ _,
    except_bind_ok.mpr ⟨_, fillTxAttribute_txIndex _ hindex, rfl⟩⟩
  secondKind := rfl
  secondLength := by
    simp only [MsgRun.event, ethereumTxAttributes, List.length_append, List.length_cons,
      List.length_nil]
    omega
  secondReads := fun i => fillTxAttributes_event m hindex i k

theorem exists_reported (runs : List MsgRun) (hindex : ∀ m ∈ runs, m.txIndex < 2 ^ 31) (k : ℕ) :
    ∃ ms : List Reported, ms.map Reported.report = runs.map MsgRun.report ∧
      ms.map Reported.first =
        runs.map (fun m => txHashEvent (quote (hashHex m.response.hash)) m.txIndex) ∧
      ms.map Reported.second = (runs.zipIdx k).map (fun p => p.1.event chain app tx p.2) := by
  induction runs generalizing k with
  | nil => exact ⟨[], rfl, rfl, rfl⟩
  | cons m runs ih =>
    obtain ⟨ms, hreport, hfirst, hsecond⟩ :=
      ih (fun m' hm' => hindex m' (List.mem_cons_of_mem m hm')) (k + 1)
    refine ⟨⟨m.report, _, m.event chain app tx k,
      m.reports (hindex m List.mem_cons_self) k⟩ :: ms, ?_, ?_, ?_⟩
    · rw [List.map_cons, List.map_cons, hreport]
    · rw [List.map_cons, List.map_cons, hfirst]
    · rw [List.map_cons, List.zipIdx_cons, List.map_cons, hsecond]

theorem toEthereum_newLogFromEth (env : Env) (log : Log) :
    (newLogFromEth env log).toEthereum = log := by
  have htopics : (log.topics.map hashHex).map hexToHash = log.topics := by
    rw [List.map_map]
    exact (List.map_congr_left fun h _ => hexToHash_hashHex h).trans (List.map_id _)
  simp only [newLogFromEth, TextLog.toEthereum, hexToAddress_addressHex, hexToHash_hashHex, htopics]

/-- **The logs of a message** are read back from their event. -/
theorem parseTxLogsFromEvent_logEvent (m : MsgRun) (i : ℕ) :
    parseTxLogsFromEvent app.codec (m.logEvent chain app i) = .ok m.response.logs := by
  have hfilter : (m.logEvent chain app i).attributes.filter (fun attr => attr.1 = "txLog") =
      m.response.logs.map fun log =>
        ("txLog", app.codec.marshal (newLogFromEth chain.env log)) := by
    simp [MsgRun.logEvent, List.filter_append, List.filter_map, Function.comp_def]
  rw [parseTxLogsFromEvent, hfilter]
  induction m.response.logs with
  | nil => rfl
  | cons log logs ih =>
    have hlog : (app.codec.unmarshal (app.codec.marshal (newLogFromEth chain.env log))).map
        TextLog.toEthereum = .ok log := by
      rw [app.codec.unmarshal_marshal]
      exact congrArg Except.ok (toEthereum_newLogFromEth chain.env log)
    rw [List.map_cons, List.mapM_cons]
    exact except_bind_ok.mpr ⟨log, hlog, except_bind_ok.mpr ⟨logs, ih, rfl⟩⟩

/-! ## The events of the ante handler -/

section Ante

variable {mode : Mode} {cosmosTx : CosmosTx} {s s' : ChainState Ω}

variable {utils utils' : DecoratorUtils}

variable {msgs : List MsgEthereumTx}

theorem anteHandleMsgs_events {blockTxIndex : ℕ} {k : ℕ}
    (h : (((msgs.map Msg.ethereumTx).zipIdx k).foldlM
      (anteHandleMsg chain mode cosmosTx blockTxIndex) utils).run s = .ok utils' s') :
    Event.ofKind eventTypeEthereumTx s'.ctx.events =
        Event.ofKind eventTypeEthereumTx s.ctx.events ++
          (msgs.zipIdx k).map (fun p => txHashEvent p.1.hash (blockTxIndex + p.2)) ∧
      Event.ofKind eventTypeTxLog s'.ctx.events = Event.ofKind eventTypeTxLog s.ctx.events := by
  induction msgs generalizing k utils s with
  | nil =>
    cases h
    simp
  | cons msg msgs ih =>
    rw [List.map_cons, List.zipIdx_cons, List.foldlM_cons] at h
    obtain ⟨utils₁, s₁, hround, hrest⟩ := bind_ok.mp h
    obtain ⟨_, -, ethMsg, fees, hunpacked, hevents⟩ := anteHandleMsg_ok hround
    cases (unpackEthMsg_ok hunpacked).1
    obtain ⟨heth, hlog⟩ := ih hrest
    constructor
    · rw [heth, hevents, Event.ofKind_append, List.zipIdx_cons, List.map_cons, List.append_assoc]
      rfl
    · rw [hlog, hevents, Event.ofKind_append]
      exact List.append_nil _

variable {ms : List Signed}

theorem AcceptedRun.counters {msgs : List Msg}
    (h : AcceptedRun chain mode cosmosTx msgs ms utils utils' s s') :
    s'.transient.txIndex = s.transient.txIndex ∧ s'.transient.gasUsed = s.transient.gasUsed := by
  induction h with
  | nil utils s => exact ⟨rfl, rfl⟩
  | @cons msg msgs m ms utils utils₁ utils' s s₁ s' head tail ih =>
    have hhead : s₁.transient.txIndex = s.transient.txIndex ∧
        s₁.transient.gasUsed = s.transient.gasUsed := by
      rw [head.transient, Transient.addGasWanted]
      split
      · exact ⟨rfl, rfl⟩
      · exact ⟨rfl, rfl⟩
    exact ⟨ih.1.trans hhead.1, ih.2.trans hhead.2⟩

theorem AcceptedTx.counters (h : AcceptedTx chain mode cosmosTx ms utils s s') :
    s'.transient.txIndex = s.transient.txIndex ∧ s'.transient.gasUsed = 0 := by
  obtain ⟨utils₀, s₀, s₁, hrun, rfl, -, -, -, -, htransient⟩ := h.run
  obtain ⟨hindex, hgas⟩ := hrun.counters
  rw [htransient] at hindex hgas
  exact ⟨hindex, hgas⟩

variable {priority : ℤ}

/-- **The events of the ante handler.** -/
theorem anteHandle_events (hmsgs : cosmosTx.msgs = msgs.map Msg.ethereumTx)
    (h : (anteHandle chain mode cosmosTx).run s = .ok priority s') :
    Event.ofKind eventTypeEthereumTx s'.ctx.events =
        Event.ofKind eventTypeEthereumTx s.ctx.events ++
          msgs.zipIdx.map (fun p => txHashEvent p.1.hash (s.transient.txIndex + p.2)) ∧
      Event.ofKind eventTypeTxLog s'.ctx.events = Event.ofKind eventTypeTxLog s.ctx.events := by
  obtain ⟨utils₀, utils, s₀, s₁, hhandled⟩ := anteHandle_loop h
  have hloop := hhandled.loop
  rw [hmsgs] at hloop
  have hevents := anteHandleMsgs_events hloop
  rw [hhandled.setUp] at hevents
  rw [hhandled.metered]
  exact hevents

theorem newAnteHandler_ethereumTx {decorators : Mode → AppTx → ChainM Ω ℤ} {msg : MsgEthereumTx}
    (hmsg : .ethereumTx msg ∈ tx.msgs)
    (h : (newAnteHandler chain decorators mode tx).run s = .ok priority s') :
    (anteHandle chain mode tx.toCosmosTx).run s = .ok priority s' := by
  unfold newAnteHandler at h
  split at h
  · exact absurd (.here hmsg) (newCosmosAnteHandler_ok h msg 0)
  split at h
  · exact h
  · split at h
    · exact absurd (.here hmsg) (newCosmosAnteHandler_ok h msg 0)
    · cases h

end Ante

/-! ## A transaction that succeeds -/

theorem refuseIf_ok {p : Prop} [Decidable p] {e : Err} (h : refuseIf p e = .ok ()) : ¬ p := by
  unfold refuseIf at h
  split at h
  · cases h
  · assumption

variable {msg : MsgEthereumTx}

theorem MsgEthereumTx.validateBasic_ok (h : msg.validateBasic chain = .ok ()) :
    ∃ txData, msg.data = .ok txData ∧ txData.validate = .ok () ∧
      msg.hash = quote (hashHex (chain.txHash txData)) := by
  obtain ⟨_, -, h₁⟩ := except_bind_ok.mp h
  obtain ⟨txData, hdata, h₂⟩ := except_bind_ok.mp h₁
  obtain ⟨_, -, h₃⟩ := except_bind_ok.mp h₂
  obtain ⟨_, -, h₄⟩ := except_bind_ok.mp h₃
  obtain ⟨_, hvalid, h₅⟩ := except_bind_ok.mp h₄
  refine ⟨txData, ?_, hvalid, not_not.mp (refuseIf_ok h₅)⟩
  cases hmsg : msg.data with
  | error e =>
    rw [hmsg] at hdata
    cases hdata
  | ok txData' =>
    rw [hmsg] at hdata
    exact hdata

theorem validateBasicTxMsgs_ok (h : validateBasicTxMsgs chain app tx = .ok ()) :
    tx.msgs ≠ [] ∧ ∀ msg, .ethereumTx msg ∈ tx.msgs → msg.validateBasic chain = .ok () := by
  unfold validateBasicTxMsgs at h
  split at h
  · cases h
  · rename_i hne
    refine ⟨hne, ?_⟩
    exact fun msg hmem => except_forM_ok h (.ethereumTx msg) hmem

/-- A transaction that succeeds, from the state `s` to `s'`. -/
structure TxSucceeded (chain : Chain) (app : App Ω) (tx : AppTx) (result : ExecTxResult)
    (events : List Event) (s s₁ s₂ s' : ChainState Ω) : Prop where
  valid : validateBasicTxMsgs chain app tx = .ok ()
  accepted : ∃ priority,
    (newAnteHandler chain app.decorators .deliver tx).run s.newContext = .ok priority s₁
  executed : (runMsgs chain app tx).run s₁ = .ok events s₂
  result : result =
    { code := 0
      log := ""
      gasUsed := s₂.gasMeter.consumed
      events := s₁.ctx.events ++ events }
  state : ∃ meter, s' = { s₂ with blockGasMeter := meter }

theorem finishTx_ok {dropped written : ChainState Ω} {meter : GasMeter} {anteEvents : List Event}
    {outcome : Except Err (List Event)}
    (h : (finishTx chain dropped written meter anteEvents outcome).1.code = 0) :
    ∃ events blockGasMeter, outcome = .ok events ∧
      finishTx chain dropped written meter anteEvents outcome =
        ({ code := 0, log := "", gasUsed := meter.consumed, events := anteEvents ++ events },
          { written with blockGasMeter := blockGasMeter }) := by
  unfold finishTx at h ⊢
  dsimp only at h ⊢
  split at h
  · cases h
  · cases outcome with
    | error e => cases h
    | ok events => exact ⟨events, _, rfl, rfl⟩

variable {s : ChainState Ω}

/-- **What success means.** -/
theorem runTx_ok (h : (runTx chain app tx s).1.code = 0) :
    ∃ events s₁ s₂, TxSucceeded chain app tx (runTx chain app tx s).1 events s s₁ s₂
      (runTx chain app tx s).2 := by
  unfold runTx at h ⊢
  split at h
  · cases h
  rename_i hgas
  rw [if_neg hgas]
  cases hvalid : validateBasicTxMsgs chain app tx with
  | error e =>
    rw [hvalid] at h
    obtain ⟨events, meter, houtcome, -⟩ := finishTx_ok h
    cases houtcome
  | ok u =>
    rw [hvalid] at h
    dsimp only at h ⊢
    cases hante : (newAnteHandler chain app.decorators .deliver tx).run s.newContext with
    | error e s₁ =>
      rw [hante] at h
      obtain ⟨events, meter, houtcome, -⟩ := finishTx_ok h
      cases houtcome
    | ok priority s₁ =>
      rw [hante] at h
      dsimp only at h ⊢
      cases hmsgs : (runMsgs chain app tx).run s₁ with
      | error e s₂ =>
        rw [hmsgs] at h
        obtain ⟨events, meter, houtcome, -⟩ := finishTx_ok h
        cases houtcome
      | ok events s₂ =>
        rw [hmsgs] at h
        dsimp only at h ⊢
        obtain ⟨events', meter, houtcome, hfinish⟩ := finishTx_ok h
        cases houtcome
        rw [hfinish]
        exact ⟨events, s₁, s₂, hvalid, ⟨priority, hante⟩, hmsgs, rfl, meter, rfl⟩

/-- The messages as they were executed, and their events. -/
structure EthereumDelivered (chain : Chain) (app : App Ω) (tx : AppTx) (msgs : List MsgEthereumTx)
    (result : ExecTxResult) (runs : List MsgRun) (s s' : ChainState Ω) : Prop where
  code : result.code = 0
  nonempty : msgs ≠ []
  executed : ∃ priority s₁ s₂,
    (newAnteHandler chain app.decorators .deliver tx).run s.newContext = .ok priority s₁ ∧
      (messageRuns chain app tx msgs).run s₁ = .ok runs s₂
  length : runs.length = msgs.length
  hash : ∀ (i : ℕ) (msg : MsgEthereumTx) (m : MsgRun), msgs[i]? = some msg → runs[i]? = some m →
    msg.hash = quote (hashHex m.response.hash)
  index : ∀ (i : ℕ) (m : MsgRun), runs[i]? = some m → m.txIndex = s.transient.txIndex + i
  logs : ∀ m ∈ runs, ∀ log ∈ m.response.logs, log.txIndex = m.txIndex
  gasUsed : result.gasUsed = gasOfRuns runs
  ethereum : Event.ofKind eventTypeEthereumTx result.events =
    runs.map (fun m => txHashEvent (quote (hashHex m.response.hash)) m.txIndex) ++
      runs.zipIdx.map (fun p => p.1.event chain app tx p.2)
  txLog : Event.ofKind eventTypeTxLog result.events =
    runs.zipIdx.map fun p => p.1.logEvent chain app p.2
  txIndex : s'.transient.txIndex = s.transient.txIndex + msgs.length

variable {msgs : List MsgEthereumTx} {runs : List MsgRun}

theorem ServedRun.hash {P : Event → Prop} {s' : ChainState Ω}
    (h : ServedRun chain app tx P msgs runs s s')
    (hvalid : ∀ msg ∈ msgs, msg.validateBasic chain = .ok ()) {i : ℕ} {m : MsgRun}
    (hmsg : msgs[i]? = some msg) (hm : runs[i]? = some m) :
    msg.hash = quote (hashHex m.response.hash) := by
  induction h generalizing i with
  | nil s => cases hm
  | @cons msg₀ msgs txData response runs s s₁ s' head tail ih =>
    cases i with
    | zero =>
      cases hmsg
      cases hm
      obtain ⟨txData', hdata, -, hhash⟩ :=
        MsgEthereumTx.validateBasic_ok (hvalid msg List.mem_cons_self)
      have hsame : txData' = txData := by
        have hunpacked := head.unpacked
        rw [hdata] at hunpacked
        exact Except.ok.inj hunpacked
      rw [hhash, hsame]
      rw [head.hash]
    | succ i =>
      exact ih (fun msg' hmem => hvalid msg' (List.mem_cons_of_mem _ hmem)) hmsg hm

theorem txHashEvents_eq {start : ℕ} (hlength : runs.length = msgs.length)
    (hhash : ∀ (i : ℕ) (msg : MsgEthereumTx) (m : MsgRun), msgs[i]? = some msg →
      runs[i]? = some m → msg.hash = quote (hashHex m.response.hash))
    (hindex : ∀ (i : ℕ) (m : MsgRun), runs[i]? = some m → m.txIndex = start + i) :
    msgs.zipIdx.map (fun p => txHashEvent p.1.hash (start + p.2)) =
      runs.map fun m => txHashEvent (quote (hashHex m.response.hash)) m.txIndex := by
  refine List.ext_getElem? fun i => ?_
  rw [List.getElem?_map, List.getElem?_map, List.getElem?_zipIdx, Option.map_map]
  by_cases hi : i < runs.length
  · have hm := List.getElem?_eq_getElem hi
    have hmsg := List.getElem?_eq_getElem (hlength ▸ hi)
    rw [hm, hmsg, Option.map_some, Option.map_some]
    dsimp only [Function.comp_apply]
    rw [hhash i _ _ hmsg hm, hindex i _ hm, Nat.zero_add]
  · rw [List.getElem?_eq_none (Nat.not_lt.mp hi), List.getElem?_eq_none (by omega)]
    rfl

/-- **An Ethereum transaction that succeeds.** -/
theorem runTx_ethereumTx (hevm : app.evm.Emits Event.Foreign) {msgs : List MsgEthereumTx}
    (hmsgs : tx.msgs = msgs.map SdkMsg.ethereumTx) {s : ChainState Ω}
    (hcode : (runTx chain app tx s).1.code = 0) :
    ∃ runs, EthereumDelivered chain app tx msgs (runTx chain app tx s).1 runs s
      (runTx chain app tx s).2 := by
  obtain ⟨events, s₁, s₂, hok⟩ := runTx_ok hcode
  obtain ⟨hnonempty, hvalid⟩ := validateBasicTxMsgs_ok hok.valid
  obtain ⟨priority, hante⟩ := hok.accepted
  obtain ⟨meter, hstate⟩ := hok.state
  have hne : msgs ≠ [] := by
    rintro rfl
    exact hnonempty hmsgs
  have hmem : ∀ msg ∈ msgs, .ethereumTx msg ∈ tx.msgs := by
    intro msg hmsg
    rw [hmsgs]
    exact List.mem_map_of_mem hmsg
  -- the ante handler
  obtain ⟨msg₀, hmsg₀⟩ := List.exists_mem_of_ne_nil msgs hne
  have hmono := newAnteHandler_ethereumTx (hmem msg₀ hmsg₀) hante
  have hcosmos : tx.toCosmosTx.msgs = msgs.map Msg.ethereumTx := by
    show tx.msgs.map SdkMsg.toMsg = _
    rw [hmsgs, List.map_map]
    rfl
  obtain ⟨hanteEth, hanteLog⟩ := anteHandle_events hcosmos hmono
  obtain ⟨ms, utils, haccepted⟩ := anteHandle_ok hmono
  obtain ⟨hindex₁, hgas₁⟩ := haccepted.counters
  -- the messages
  have hloop := hok.executed
  rw [runMsgs, hmsgs] at hloop
  obtain ⟨runs, hruns, heth, hlog⟩ := runMsgs_events hevm hloop
  have hserved := messageRuns_served Event.OfBank.foreign hevm hruns
  have hindex : ∀ (i : ℕ) (m : MsgRun), runs[i]? = some m →
      m.txIndex = s.transient.txIndex + i := by
    intro i m hm
    rw [hserved.index hm, hindex₁]
    rfl
  have hhash : ∀ (i : ℕ) (msg : MsgEthereumTx) (m : MsgRun), msgs[i]? = some msg →
      runs[i]? = some m → msg.hash = quote (hashHex m.response.hash) :=
    fun i msg m hmsg hm =>
      hserved.hash (fun msg' hmsg' => hvalid msg' (hmem msg' hmsg')) hmsg hm
  refine ⟨runs,
    { code := hcode
      nonempty := hne
      executed := ⟨priority, s₁, s₂, hante, hruns⟩
      length := hserved.length
      hash := hhash
      index := hindex
      logs := fun m hm => hserved.logs hm
      gasUsed := ?_
      ethereum := ?_
      txLog := ?_
      txIndex := ?_ }⟩
  · rw [hok.result]
    rw [hserved.meter hne, hserved.gasUsed, hgas₁, UInt64.zero_add]
  · rw [hok.result]
    rw [Event.ofKind_append, hanteEth, heth, ← txHashEvents_eq hserved.length hhash hindex]
    rfl
  · rw [hok.result]
    rw [Event.ofKind_append, hanteLog, hlog]
    rfl
  · rw [hstate]
    rw [hserved.txIndex, hindex₁]
    rfl

namespace EthereumDelivered

variable {msgs : List MsgEthereumTx} {result : ExecTxResult} {runs : List MsgRun}
  {s s' : ChainState Ω}

variable (h : EthereumDelivered chain app tx msgs result runs s s')
include h

theorem nodup (hdistinct : (msgs.map MsgEthereumTx.hash).Nodup) :
    ((runs.map MsgRun.report).map Report.hash).Nodup := by
  have hhashes : msgs.map MsgEthereumTx.hash =
      ((runs.map MsgRun.report).map Report.hash).map fun hash => quote (hashHex hash) := by
    refine List.ext_getElem? fun i => ?_
    simp only [List.getElem?_map, Option.map_map]
    by_cases hi : i < runs.length
    · have hm := List.getElem?_eq_getElem hi
      have hmsg := List.getElem?_eq_getElem (h.length ▸ hi)
      rw [hm, hmsg]
      exact congrArg some (h.hash i _ _ hmsg hm)
    · rw [List.getElem?_eq_none (Nat.not_lt.mp hi),
        List.getElem?_eq_none (h.length ▸ Nat.not_lt.mp hi)]
      rfl
  rw [hhashes] at hdistinct
  exact List.Nodup.of_map _ hdistinct

/-- **The parser**, on the result of an Ethereum transaction. -/
theorem parseTxResult
    (hfits : s.transient.txIndex + msgs.length ≤ 2 ^ 31) (decoded : Option AppTx) :
    TacEvm.parseTxResult result decoded = .ok
      { txs := entriesFrom 0 (runs.map MsgRun.report)
        txHashes := hashTable (fun _ => none) 0 (runs.map MsgRun.report) } := by
  have hindex : ∀ m ∈ runs, m.txIndex < 2 ^ 31 := by
    intro m hm
    obtain ⟨i, hi, rfl⟩ := List.getElem_of_mem hm
    have hplace := h.index i _ (List.getElem?_eq_getElem hi)
    have hlength := h.length
    omega
  obtain ⟨ms, hreport, hfirst, hsecond⟩ :=
    @exists_reported Ω chain app tx runs hindex 0
  rw [← hreport]
  refine Reported.parseTxResult_ok ms h.code ?_ ?_ decoded
  · rw [hfirst, hsecond]
    exact h.ethereum
  · rintro m rfl
    obtain ⟨run, hrun, hsame⟩ := List.map_eq_singleton_iff.mp hreport.symm
    rw [h.gasUsed, hrun, ← hsame]
    exact UInt64.add_zero _

/-- **The logs** of a message, by its place. -/
theorem txLogsFromEvents {i : ℕ} {m : MsgRun} (hm : runs[i]? = some m) :
    TacEvm.txLogsFromEvents app.codec result.events i = .ok m.response.logs := by
  have hkinds : ∀ e ∈ runs.zipIdx.map (fun p => p.1.logEvent chain app p.2),
      e.kind = eventTypeTxLog := by
    intro e he
    obtain ⟨p, -, rfl⟩ := List.mem_map.mp he
    rfl
  have hplace : (runs.zipIdx.map fun p => p.1.logEvent chain app p.2)[i]? =
      some (m.logEvent chain app (0 + i)) := by
    rw [List.getElem?_map, List.getElem?_zipIdx, hm]
    rfl
  rw [txLogsFromEvents_eq, h.txLog, txLogsFromEvents_getElem hkinds hplace,
    parseTxLogsFromEvent_logEvent]

end EthereumDelivered

/-! ## What the JSON-RPC server finds -/

/-- The messages of a transaction as they are found in its result. -/
structure FoundInEvents (codec : LogCodec) (result : ExecTxResult) (runs : List MsgRun)
    (parsed : ParsedTxs) : Prop where
  entries : ∀ i : ℕ, parsed.txs[i]? = runs[i]?.map fun m =>
    { msgIndex := i
      hash := m.response.hash
      ethTxIndex := m.txIndex
      gasUsed := m.response.gasUsed
      failed := m.response.failed }
  byHash : ∀ (hash : Hash) (entry : ParsedTx), parsed.getTxByHash hash = some entry ↔
    ∃ (i : ℕ) (m : MsgRun), runs[i]? = some m ∧ m.response.hash = hash ∧ parsed.txs[i]? = some entry
  byTxIndex : ∀ (txIndex : ℤ) (entry : ParsedTx), parsed.getTxByTxIndex txIndex = some entry ↔
    ∃ (i : ℕ) (m : MsgRun), runs[i]? = some m ∧ m.txIndex = txIndex ∧ parsed.txs[i]? = some entry
  logs : ∀ (i : ℕ) (m : MsgRun), runs[i]? = some m →
    txLogsFromEvents codec result.events i = .ok m.response.logs

/-- So many more messages have indices below `2 ^ 31`; blocks have at most 100 MiB. -/
def ChainState.BlockHasRoom {Ω : Type} (s : ChainState Ω) (count : ℕ) : Prop :=
  s.transient.txIndex + count ≤ 2 ^ 31

/-- **What is emitted is read back**, of messages with distinct hashes in a block with room. -/
theorem events_readBack (hevm : app.evm.Emits Event.Foreign) {msgs : List MsgEthereumTx}
    (hmsgs : tx.msgs = msgs.map SdkMsg.ethereumTx)
    (hdistinct : (msgs.map MsgEthereumTx.hash).Nodup) {s : ChainState Ω}
    (hfits : s.BlockHasRoom msgs.length)
    (hcode : (runTx chain app tx s).1.code = 0) (decoded : Option AppTx) :
    ∃ priority s₁ runs s₂ parsed,
      (newAnteHandler chain app.decorators .deliver tx).run s.newContext = .ok priority s₁ ∧
      (messageRuns chain app tx msgs).run s₁ = .ok runs s₂ ∧
      runs.length = msgs.length ∧
      (∀ (i : ℕ) (msg : MsgEthereumTx) (m : MsgRun), msgs[i]? = some msg → runs[i]? = some m →
        msg.hash = quote (hashHex m.response.hash) ∧ m.txIndex = s.transient.txIndex + i) ∧
      parseTxResult (runTx chain app tx s).1 decoded = .ok parsed ∧
      FoundInEvents app.codec (runTx chain app tx s).1 runs parsed := by
  obtain ⟨runs, hdelivered⟩ := runTx_ethereumTx hevm hmsgs hcode
  obtain ⟨priority, s₁, s₂, hante, hruns⟩ := hdelivered.executed
  have hget : ∀ i : ℕ, (runs.map MsgRun.report)[i]? = runs[i]?.map MsgRun.report :=
    fun i => List.getElem?_map
  have hentries : ∀ i : ℕ, (entriesFrom 0 (runs.map MsgRun.report))[i]? =
      runs[i]?.map fun m => m.report.entry i := by
    intro i
    rw [getElem?_entriesFrom, hget, Option.map_map, Nat.zero_add]
    rfl
  have hindex : ∀ (i : ℕ) (r : Report), (runs.map MsgRun.report)[i]? = some r →
      r.txIndex = s.transient.txIndex + i := by
    intro i r hr
    rw [hget] at hr
    obtain ⟨m, hm, rfl⟩ := Option.map_eq_some_iff.mp hr
    exact hdelivered.index i m hm
  refine ⟨priority, s₁, runs, s₂, _, hante, hruns, hdelivered.length,
    fun i msg m hmsg hm => ⟨hdelivered.hash i msg m hmsg hm, hdelivered.index i m hm⟩,
    hdelivered.parseTxResult hfits decoded,
    { entries := hentries
      byHash := fun hash entry => ?_
      byTxIndex := fun txIndex entry => ?_
      logs := fun i m hm => hdelivered.txLogsFromEvents hm }⟩
  · rw [getTxByHash_hashTable (hdelivered.nodup hdistinct)]
    constructor
    · rintro ⟨i, r, hr, hhash, rfl⟩
      rw [hget] at hr
      obtain ⟨m, hm, rfl⟩ := Option.map_eq_some_iff.mp hr
      exact ⟨i, m, hm, hhash, by rw [hentries, hm, Option.map_some]⟩
    · rintro ⟨i, m, hm, hhash, hentry⟩
      rw [hentries, hm] at hentry
      exact ⟨i, m.report, by rw [hget, hm, Option.map_some], hhash,
        (Option.some.inj hentry).symm⟩
  · rw [getTxByTxIndex_entries hindex]
    constructor
    · rintro ⟨i, r, hr, rfl, rfl⟩
      rw [hget] at hr
      obtain ⟨m, hm, rfl⟩ := Option.map_eq_some_iff.mp hr
      refine ⟨i, m, hm, ?_, by rw [hentries, hm, Option.map_some]⟩
      rw [hdelivered.index i m hm, Nat.cast_add]
    · rintro ⟨i, m, hm, rfl, hentry⟩
      rw [hentries, hm] at hentry
      refine ⟨i, m.report, by rw [hget, hm, Option.map_some], ?_, (Option.some.inj hentry).symm⟩
      rw [hdelivered.index i m hm, Nat.cast_add]

theorem Devnet.loggingEvm_emits (P : Event → Prop) : loggingEvm.Emits P := by
  intro msg gas db c hc
  rcases hc with hc | hc
  · cases hc
  · simp [loggingEvm] at hc

/-- Two messages of `0xA1` to the contract `0xC1`, which adds logs. -/
def Devnet.twoMessages : List MsgEthereumTx :=
  [ethereumMsg (signedTx 0 0 contractHex), ethereumMsg (signedTx 1 0 contractHex)]

theorem events_readBack_devnet :
    ∃ runs parsed, runs.length = 2 ∧ parseTxResult (runTx chain18
        (Devnet.app loggingEvm) (ethereumAppTx twoMessages)
        (chainState 100000)).1 none = .ok parsed ∧
      FoundInEvents logCodec (runTx chain18
        (Devnet.app loggingEvm) (ethereumAppTx twoMessages)
        (chainState 100000)).1 runs parsed := by
  obtain ⟨_, _, runs, _, parsed, -, -, hlength, -, hparsed, hfound⟩ :=
    @events_readBack Unit chain18 (Devnet.app loggingEvm)
      (ethereumAppTx twoMessages) (loggingEvm_emits _) twoMessages rfl
      (by decide +kernel) (chainState 100000) (Nat.le_of_ble_eq_true rfl) (by decide +kernel) none
  exact ⟨runs, parsed, hlength, hparsed, hfound⟩

end TacEvm
