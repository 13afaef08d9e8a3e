import TacEvm.Analysis.EventOrigins
import TacEvm.Analysis.EventParsing
import TacEvm.Analysis.LogNumbering

/-!
# What the messages of a transaction leave

What an applied transaction leaves besides the stores. `messageRuns` goes through the messages of a
transaction and returns what each of them did; the loop of the SDK keeps the events only
(`runMsgs_events`).
-/

namespace TacEvm

open FallibleState

variable {Ω : Type} {chain : Chain} {P : Event → Prop}

section Apply

variable {evm : Evm Ω} {txData : TxData} {res : MsgEthereumTxResponse} {s s' : ChainState Ω}

/-- What an applied transaction leaves besides the stores. -/
structure Recorded (chain : Chain) (P : Event → Prop) (txData : TxData)
    (res : MsgEthereumTxResponse) (s s' : ChainState Ω) : Prop where
  hash : res.hash = chain.txHash txData
  events : ∃ es, (∀ e ∈ es, P e) ∧ s'.ctx.events = s.ctx.events ++ es
  gasUsed : s'.transient.gasUsed = s.transient.gasUsed + res.gasUsed
  meter : s'.gasMeter.consumed = s'.transient.gasUsed

theorem applyTransaction_recorded (hbank : ∀ e : Event, e.OfBank → P e) (hevm : evm.Emits P)
    (h : (applyTransaction chain evm txData).run s = .ok res s') :
    Recorded chain P txData res s s' := by
  obtain ⟨sender, tmpCtx, happlied⟩ := applyTransaction_applied h
  obtain ⟨_, _, _, hmessage⟩ := applyMessageWithConfig_applied happlied.message
  obtain ⟨db, outcome, hexecuted⟩ := applyMessageWithConfig_ok happlied.message
  refine ⟨hmessage.hash, ⟨_, fun e he => ?_, happlied.events⟩, by rw [happlied.counted],
    happlied.meter⟩
  split at he
  · cases he
  · exact hexecuted.events hbank hevm (by simp) e he

end Apply

/-- The event of a transaction that the message server emits. -/
def ethereumTxEvent (chain : Chain) (txData : TxData) (txIndex : ℕ) (cometHash : Option String)
    (response : MsgEthereumTxResponse) : Event where
  kind := eventTypeEthereumTx
  attributes := ethereumTxAttributes chain txData txIndex cometHash response

/-- The event of the logs of a transaction. -/
def txLogEvent (chain : Chain) (codec : LogCodec) (response : MsgEthereumTxResponse) : Event where
  kind := eventTypeTxLog
  attributes := response.logs.map fun log =>
    ("txLog", codec.marshal (newLogFromEth chain.env log))

/-- What serving a message leaves. -/
structure Served (chain : Chain) (codec : LogCodec) (P : Event → Prop)
    (cometHash : Option String) (msg : MsgEthereumTx) (txData : TxData)
    (response : MsgEthereumTxResponse) (s s' : ChainState Ω) : Prop where
  unpacked : msg.data = .ok txData
  hash : response.hash = chain.txHash txData
  events : ∃ es last, (∀ e ∈ es, P e) ∧ last.kind = "message" ∧ s'.ctx.events = s.ctx.events ++
    (es ++ [ethereumTxEvent chain txData s.transient.txIndex cometHash response,
      txLogEvent chain codec response, last])
  txIndex : s'.transient.txIndex = s.transient.txIndex + 1
  logs : ∀ log ∈ response.logs, log.txIndex = s.transient.txIndex
  gasUsed : s'.transient.gasUsed = s.transient.gasUsed + response.gasUsed
  meter : s'.gasMeter.consumed = s'.transient.gasUsed

variable {s s' : ChainState Ω}

variable {codec : LogCodec} {cometHash : Option String} {msg : MsgEthereumTx}
  {response : MsgEthereumTxResponse}

/-- A message that succeeds is served. -/
theorem ethereumTx_served {evm : Evm Ω} (hbank : ∀ e : Event, e.OfBank → P e)
    (hevm : evm.Emits P)
    (h : (ethereumTx chain evm codec cometHash msg).run s = .ok response s') :
    ∃ txData, Served chain codec P cometHash msg txData response s s' := by
  obtain ⟨txData, hunpacked, h₁⟩ := fromExcept_bind_ok.mp h
  simp only [run_get_bind] at h₁
  obtain ⟨res, s₂, happly, h₂⟩ := bind_ok.mp h₁
  have hrecorded := applyTransaction_recorded hbank hevm (mapError_ok.mp happly)
  obtain ⟨sender, tmpCtx, happlied⟩ := applyTransaction_ok (mapError_ok.mp happly)
  obtain ⟨sender', -, h₃⟩ := fromExcept_bind_ok.mp h₂
  cases h₃
  obtain ⟨es, hes, hevents⟩ := hrecorded.events
  have hdata' : msg.data = .ok txData := by
    cases hmsg : msg.data with
    | error e =>
      rw [hmsg] at hunpacked
      cases hunpacked
    | ok txData' =>
      rw [hmsg] at hunpacked
      exact hunpacked
  refine ⟨txData,
    { unpacked := hdata'
      hash := hrecorded.hash
      events := ⟨es, ⟨"message", [("module", "evm"),
        ("sender", quote (addressHex chain.env sender')),
        ("txType", toString txData.txType)]⟩, hes, rfl, ?_⟩
      txIndex := ?_
      logs := happlied.stamps.2
      gasUsed := hrecorded.gasUsed
      meter := hrecorded.meter }⟩
  · dsimp only
    rw [hevents]
    simp only [List.append_assoc, List.cons_append, List.nil_append]
    rfl
  · rw [happlied.counted]
    rfl

/-- What a message did: its index in the block and its response. -/
structure MsgRun where
  txData : TxData
  txIndex : ℕ
  response : MsgEthereumTxResponse

section

variable (chain) (app : App Ω) (tx : AppTx)

/-- The messages of a transaction and what each of them did. -/
def messageRuns : List MsgEthereumTx → ChainM Ω (List MsgRun)
  | [] => pure []
  | msg :: msgs => do
    modify fun s => { s with ctx := { s.ctx with events := [] } }
    let s ← get
    let txData ← fromExcept msg.data
    let response ← ethereumTx chain app.evm app.codec (app.cometHash tx) msg
    let rest ← messageRuns msgs
    return { txData := txData, txIndex := s.transient.txIndex, response := response } :: rest

/-- The event of a message as it is in the result. -/
def MsgRun.event (m : MsgRun) (i : ℕ) : Event where
  kind := eventTypeEthereumTx
  attributes := ethereumTxAttributes chain m.txData m.txIndex (app.cometHash tx) m.response ++
    [("msg_index", toString i)]

/-- The event of the logs of a message as it is in the result. -/
def MsgRun.logEvent (m : MsgRun) (i : ℕ) : Event where
  kind := eventTypeTxLog
  attributes := (m.response.logs.map fun log =>
    ("txLog", app.codec.marshal (newLogFromEth chain.env log))) ++ [("msg_index", toString i)]

end

variable {app : App Ω} {tx : AppTx}

/-- The gas of all messages. -/
def gasOfRuns : List MsgRun → UInt64
  | [] => 0
  | m :: runs => m.response.gasUsed + gasOfRuns runs

/-- The messages served one after the other. -/
inductive ServedRun (chain : Chain) (app : App Ω) (tx : AppTx) (P : Event → Prop) :
    List MsgEthereumTx → List MsgRun → ChainState Ω → ChainState Ω → Prop
  | nil (s : ChainState Ω) : ServedRun chain app tx P [] [] s s
  | cons {msg : MsgEthereumTx} {msgs : List MsgEthereumTx} {txData : TxData}
      {response : MsgEthereumTxResponse} {runs : List MsgRun} {s s₁ s' : ChainState Ω}
      (head : Served chain app.codec P (app.cometHash tx) msg txData response
        { s with ctx := { s.ctx with events := [] } } s₁)
      (tail : ServedRun chain app tx P msgs runs s₁ s') :
      ServedRun chain app tx P (msg :: msgs)
        ({ txData := txData, txIndex := s.transient.txIndex, response := response } :: runs) s s'

variable {msgs : List MsgEthereumTx}

theorem messageRuns_served (hbank : ∀ e : Event, e.OfBank → P e) (hevm : app.evm.Emits P)
    {runs : List MsgRun}
    (h : (messageRuns chain app tx msgs).run s = .ok runs s') :
    ServedRun chain app tx P msgs runs s s' := by
  induction msgs generalizing runs s with
  | nil =>
    cases h
    exact .nil _
  | cons msg msgs ih =>
    obtain ⟨txData, hunpacked, h₁⟩ := fromExcept_bind_ok.mp h
    obtain ⟨response, s₂, hserve, h₂⟩ := bind_ok.mp h₁
    obtain ⟨rest, s₃, hrest, h₃⟩ := bind_ok.mp h₂
    cases h₃
    obtain ⟨txData', hserved⟩ := ethereumTx_served hbank hevm hserve
    have hsame : txData' = txData := by
      have hboth := hserved.unpacked
      rw [hunpacked] at hboth
      exact (Except.ok.inj hboth).symm
    subst hsame
    exact .cons hserved (ih hrest)

namespace ServedRun

variable {msgs : List MsgEthereumTx} {runs : List MsgRun} {s s' : ChainState Ω}

variable (h : ServedRun chain app tx P msgs runs s s')
include h

theorem length : runs.length = msgs.length := by
  induction h with
  | nil s => rfl
  | cons head tail ih => rw [List.length_cons, List.length_cons, ih]

theorem txIndex : s'.transient.txIndex = s.transient.txIndex + msgs.length := by
  induction h with
  | nil s => rfl
  | cons head tail ih =>
    rw [ih, head.txIndex, List.length_cons]
    dsimp only
    omega

variable {m : MsgRun}

theorem index {i : ℕ} (hm : runs[i]? = some m) : m.txIndex = s.transient.txIndex + i := by
  induction h generalizing i with
  | nil s => cases hm
  | cons head tail ih =>
    cases i with
    | zero =>
      cases hm
      rfl
    | succ i =>
      rw [List.getElem?_cons_succ] at hm
      rw [ih hm, head.txIndex]
      dsimp only
      omega

theorem logs (hm : m ∈ runs) : ∀ log ∈ m.response.logs, log.txIndex = m.txIndex := by
  induction h with
  | nil s => cases hm
  | cons head tail ih =>
    rcases List.mem_cons.mp hm with rfl | hm
    · exact head.logs
    · exact ih hm

theorem gasUsed : s'.transient.gasUsed = s.transient.gasUsed + gasOfRuns runs := by
  induction h with
  | nil s => exact (UInt64.add_zero _).symm
  | cons head tail ih =>
    rw [ih, head.gasUsed, gasOfRuns]
    exact UInt64.add_assoc _ _ _

theorem meter (hne : msgs ≠ []) : s'.gasMeter.consumed = s'.transient.gasUsed := by
  induction h with
  | nil s => exact absurd rfl hne
  | @cons msg msgs txData response runs s s₁ s' head tail ih =>
    cases msgs with
    | nil =>
      cases tail
      exact head.meter
    | cons msg' msgs => exact ih (List.cons_ne_nil _ _)

end ServedRun

/-! ## The loop of the SDK -/

theorem Event.ofKind_append (kind : String) (es es' : List Event) :
    Event.ofKind kind (es ++ es') = Event.ofKind kind es ++ Event.ofKind kind es' :=
  List.filter_append ..

theorem Event.ofKind_eq_nil {kind : String} {es : List Event} (h : ∀ e ∈ es, e.kind ≠ kind) :
    Event.ofKind kind es = [] := by
  rw [Event.ofKind, List.filter_eq_nil_iff]
  intro e he
  simpa using h e he

/-- Events neither of Ethereum transactions nor of their logs. -/
def Event.Foreign (e : Event) : Prop := e.kind ≠ eventTypeEthereumTx ∧ e.kind ≠ eventTypeTxLog

theorem Event.OfBank.foreign (e : Event) (h : e.OfBank) : e.Foreign := by
  have hkinds : ∀ kind ∈ ["coin_spent", "coin_received", "transfer", "message", "coinbase", "burn"],
      kind ≠ eventTypeEthereumTx ∧ kind ≠ eventTypeTxLog := by decide
  exact hkinds e.kind h

/-- A served message has one event of its kind. -/
theorem Served.createEvents {txData : TxData}
    (h : Served chain codec Event.Foreign cometHash msg txData response s s')
    (hnew : s.ctx.events = []) (typeURL : String) (i : ℕ) :
    Event.ofKind eventTypeEthereumTx (createEvents typeURL i s'.ctx.events) =
        [{ kind := eventTypeEthereumTx
           attributes := ethereumTxAttributes chain txData s.transient.txIndex cometHash response ++
            [("msg_index", toString i)] }] ∧
      Event.ofKind eventTypeTxLog (createEvents typeURL i s'.ctx.events) =
        [{ kind := eventTypeTxLog
           attributes := (txLogEvent chain codec response).attributes ++
            [("msg_index", toString i)] }] := by
  obtain ⟨es, last, hes, hlast, hevents⟩ := h.events
  rw [hnew, List.nil_append] at hevents
  have hforeign : ∀ kind, kind = eventTypeEthereumTx ∨ kind = eventTypeTxLog →
      Event.ofKind kind (es.map fun event =>
        ({ event with attributes := event.attributes ++ [("msg_index", toString i)] } : Event)) =
          [] := by
    intro kind hkind
    refine Event.ofKind_eq_nil fun e he => ?_
    obtain ⟨e', he', rfl⟩ := List.mem_map.mp he
    rcases hkind with rfl | rfl
    · exact (hes e' he').1
    · exact (hes e' he').2
  have hfirst : ("message" : String) ≠ eventTypeEthereumTx := by decide
  have hlogs : ("message" : String) ≠ eventTypeTxLog := by decide
  have hkinds : eventTypeEthereumTx ≠ eventTypeTxLog := by decide
  rw [hevents, TacEvm.createEvents]
  simp only [List.map_cons, List.map_append, List.map_nil]
  constructor
  · rw [← List.singleton_append, Event.ofKind_append, Event.ofKind_append, hforeign _ (.inl rfl)]
    simp [Event.ofKind, hlast, hfirst, hkinds.symm, ethereumTxEvent, txLogEvent]
  · rw [← List.singleton_append, Event.ofKind_append, Event.ofKind_append, hforeign _ (.inr rfl)]
    simp [Event.ofKind, hlast, hlogs, hkinds, ethereumTxEvent, txLogEvent]

/-- **The loop of the SDK** keeps the events of its messages. -/
theorem runMsgs_events (hevm : app.evm.Emits Event.Foreign) {k : ℕ} {acc events : List Event}
    (h : (((msgs.map SdkMsg.ethereumTx).zipIdx k).foldlM (runMsg chain app tx) acc).run s =
      .ok events s') :
    ∃ runs, (messageRuns chain app tx msgs).run s = .ok runs s' ∧
      Event.ofKind eventTypeEthereumTx events = Event.ofKind eventTypeEthereumTx acc ++
        (runs.zipIdx k).map (fun p => p.1.event chain app tx p.2) ∧
      Event.ofKind eventTypeTxLog events = Event.ofKind eventTypeTxLog acc ++
        (runs.zipIdx k).map (fun p => p.1.logEvent chain app p.2) := by
  induction msgs generalizing k acc s with
  | nil =>
    cases h
    exact ⟨[], rfl, by simp, by simp⟩
  | cons msg msgs ih =>
    rw [List.map_cons, List.zipIdx_cons, List.foldlM_cons] at h
    obtain ⟨acc₁, s₁, hround, hrest⟩ := bind_ok.mp h
    simp only [runMsg, run_modify_bind] at hround
    obtain ⟨_, s₂, hhandle, hreturn⟩ := bind_ok.mp hround
    obtain ⟨response, s₃, hserve, hunit⟩ := bind_ok.mp (mapError_ok.mp hhandle)
    cases hunit
    cases hreturn
    obtain ⟨txData, hserved⟩ := ethereumTx_served Event.OfBank.foreign hevm hserve
    obtain ⟨heth, hlog⟩ := hserved.createEvents rfl (SdkMsg.ethereumTx msg).typeURL k
    obtain ⟨runs, hruns, hrestEth, hrestLog⟩ := ih hrest
    refine ⟨{ txData := txData, txIndex := s.transient.txIndex, response := response } :: runs,
      ?_, ?_, ?_⟩
    · simp only [messageRuns, run_modify_bind, run_get_bind]
      exact bind_ok.mpr ⟨txData, _, fromExcept_ok.mpr ⟨hserved.unpacked, rfl⟩,
        bind_ok.mpr ⟨response, s₁, hserve, bind_ok.mpr ⟨runs, s', hruns, rfl⟩⟩⟩
    · rw [hrestEth, Event.ofKind_append, heth, List.append_assoc, List.zipIdx_cons, List.map_cons]
      rfl
    · rw [hrestLog, Event.ofKind_append, hlog, List.append_assoc, List.zipIdx_cons, List.map_cons]
      rfl

end TacEvm
