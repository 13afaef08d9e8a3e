import TacEvm.Analysis.Events
import TacEvm.Analysis.TransitionSpec

/-!
# Where the events of a transaction come from

Every event of a `StateDB` was emitted by the handler of a precompile that was called, or by the
bank for a balance that was written.
-/

namespace TacEvm

open Rollback StateDB

variable {Ω : Type} {env : Env}

/-- An event of the kinds that the bank emits. -/
def Event.OfBank (e : Event) : Prop :=
  e.kind ∈ ["coin_spent", "coin_received", "transfer", "message", "coinbase", "burn"]

theorem Bank.eventsThen_ofBank {x : KeeperM Ω Unit} {events : List Event}
    {rest : Store Ω → List Event} (hevents : ∀ e ∈ events, e.OfBank)
    (hrest : ∀ st, ∀ e ∈ rest st, e.OfBank) (st : Store Ω) :
    ∀ e ∈ Bank.eventsThen x events rest st, e.OfBank := by
  unfold Bank.eventsThen
  cases x.run st with
  | ok u st' => exact List.forall_mem_append.mpr ⟨hevents, hrest st'⟩
  | error _ _ => simp

theorem Keeper.setBalanceEvents_ofBank (a : Address) (x : ℤ) (st : Store Ω) :
    ∀ e ∈ Keeper.setBalanceEvents env a x st, e.OfBank := by
  have hsend (src dst : Address) (coin : Coin) :
      ∀ e ∈ Bank.sendCoinsEvents env src dst coin, e.OfBank := by
    simp [Bank.sendCoinsEvents, Bank.coinEvent, Event.OfBank]
  unfold Keeper.setBalanceEvents
  dsimp only
  split_ifs
  · refine Bank.eventsThen_ofBank ?_ (Bank.eventsThen_ofBank (hsend _ _ _) (by simp)) st
    simp [Bank.mintCoinsEvents, Bank.coinEvent, Event.OfBank]
  · refine Bank.eventsThen_ofBank (hsend _ _ _) (Bank.eventsThen_ofBank ?_ (by simp)) st
    simp [Bank.burnCoinsEvents, Bank.coinEvent, Event.OfBank]
  · simp

/-- The events of a commit are of the bank. -/
theorem StateDB.commitEvents_ofBank {objects : Address → Option StateObject}
    (addrs : List Address) (st : Store Ω) :
    ∀ e ∈ commitEvents env objects addrs st, e.OfBank := by
  induction addrs generalizing st with
  | nil => simp [commitEvents]
  | cons a addrs ih =>
    unfold commitEvents
    cases objects a with
    | none => simp
    | some o =>
      refine List.forall_mem_append.mpr ⟨?_, ?_⟩
      · unfold commitObjectEvents
        split
        · unfold Keeper.deleteAccountEvents
          split
          · simp
          · exact Keeper.setBalanceEvents_ofBank _ _ _
        · exact Keeper.setBalanceEvents_ofBank _ _ _
      · cases (commitObject env a o).run st with
        | ok u st' => exact ih st'
        | error _ _ => simp

/-- `P` holds of every event, also of those to be restored. -/
structure EventsSatisfy (P : Event → Prop) (s : StateDB Ω) : Prop where
  context : ∀ e ∈ s.ctx.events, P e
  collected : ∀ e ∈ s.cacheContext.events, P e
  emitted : ∀ e ∈ s.emitted, P e
  journal : ∀ events ∈ callEvents s.journal.entries, ∀ e ∈ events, P e

variable {s db : StateDB Ω}

theorem StateDB.collected_rollback {s' : StateDB Ω} {es : List (JournalEntry Ω)}
    (h : rollback (revertEntry env) es s = some s') :
    s'.cacheContext.events = s.cacheContext.events := by
  induction es generalizing s' with
  | nil =>
    cases h
    rfl
  | cons e es ih =>
    obtain ⟨s₁, hroll, hrevert⟩ := Option.bind_eq_some_iff.mp h
    obtain ⟨s₂, hentry, rfl⟩ := Option.map_eq_some_iff.mp hrevert
    rw [← ih hroll]
    cases hcall : e.isCall with
    | false =>
      have hsame : s₂.cacheContext = s₁.cacheContext := by
        simp only [cacheContext, (revert_sameRun hentry).ctx, revert_cacheCtx hcall hentry]
      exact congrArg CacheContext.events hsame
    | true =>
      cases e with
      | precompileCallChange cms events =>
        cases hentry
        rfl
      | _ => cases hcall

namespace EventsSatisfy

variable {P : Event → Prop} {s s' : StateDB Ω} {c : PrecompileCall Ω}

theorem new {ctx : Context Ω} (hctx : ∀ e ∈ ctx.events, P e) (tx : TxConfig) :
    EventsSatisfy P (new ctx tx) where
  context := hctx
  collected := fun _ h => absurd h List.not_mem_nil
  emitted := fun _ h => absurd h List.not_mem_nil
  journal := fun _ h => absurd h List.not_mem_nil

theorem steps (h : EventsSatisfy P s) (hsteps : Steps env s s') : EventsSatisfy P s' := by
  obtain ⟨es, hentries, hcalls⟩ := hsteps.entries
  have hcontrol := hsteps.sameControl
  have hcache : s'.cacheContext = s.cacheContext := by
    simp only [cacheContext, hcontrol.ctx, hcontrol.cacheCtx]
  refine ⟨?_, ?_, ?_, ?_⟩
  · rw [hcontrol.ctx]
    exact h.context
  · rw [hcache]
    exact h.collected
  · rw [emitted_eq hcontrol.ctx hcontrol.cacheCtx]
    exact h.emitted
  · rw [hentries, callEvents_append, callEvents_of_not_isCall hcalls, List.append_nil]
    exact h.journal

theorem snapshot (h : EventsSatisfy P s) : EventsSatisfy P s.snapshot.2 :=
  ⟨h.context, h.collected, h.emitted, h.journal⟩

variable {events : List Event}

theorem collect (h : EventsSatisfy P s) {cache : CacheContext Ω} (hevents : ∀ e ∈ events, P e)
    (hcollected : cache.events = s.cacheContext.events ++ events)
    (hrestored : cache.restored = s.cacheContext.restored) :
    EventsSatisfy P (s.withCache (some cache)) := by
  have hall : ∀ e ∈ cache.events, P e := by
    intro e he
    rw [hcollected] at he
    rcases List.mem_append.mp he with he | he
    · exact h.collected e he
    · exact hevents e he
  refine ⟨h.context, hall, ?_, h.journal⟩
  have hemitted := h.emitted
  show ∀ e ∈ cache.restored.getD cache.events, P e
  unfold StateDB.emitted at hemitted
  rw [hrestored]
  cases hold : s.cacheContext.restored with
  | none => exact hall
  | some old =>
    rw [hold] at hemitted
    exact hemitted

theorem revert (h : EventsSatisfy P s) {revid : ℕ}
    (hrevert : s.revertToSnapshot env revid = some s') : EventsSatisfy P s' := by
  obtain ⟨idx, r, s₁, -, -, hroll, rfl⟩ := revertToSnapshot_cases hrevert
  have hsplit := callEvents_take_drop s.journal.entries r.journalIndex
  have hctx : s₁.ctx = s.ctx := ((observe_rollback s _).2 s₁ hroll).ctx
  refine ⟨?_, ?_, ?_, ?_⟩
  · show ∀ e ∈ s₁.ctx.events, P e
    rw [hctx]
    exact h.context
  · show ∀ e ∈ s₁.cacheContext.events, P e
    rw [collected_rollback hroll]
    exact h.collected
  · show ∀ e ∈ s₁.emitted, P e
    rw [emitted_rollback hroll]
    cases hdropped : callEvents (s.journal.entries.drop r.journalIndex) with
    | nil => exact h.emitted
    | cons events rest =>
      refine h.journal events ?_
      rw [← hsplit, hdropped]
      exact List.mem_append_right _ List.mem_cons_self
  · show ∀ events ∈ callEvents (s.journal.entries.take r.journalIndex), ∀ e ∈ events, P e
    intro events hmem
    refine h.journal events ?_
    rw [← hsplit]
    exact List.mem_append_left _ hmem

variable (hbank : ∀ e : Event, e.OfBank → P e)
include hbank

theorem runBody (h : EventsSatisfy P s) (hemits : ∀ st, ∀ e ∈ c.emits st, P e) :
    EventsSatisfy P (s.runBody env c.precompile c.frame).2 := by
  obtain ⟨st, hflush⟩ := s.flush_eq env
  have hflushed : EventsSatisfy P (s.flush env).2 := by
    rw [hflush]
    exact h.collect (fun e he => hbank e (commitEvents_ofBank _ _ e he)) rfl rfl
  refine runBody_invariant (EventsSatisfy P) h hflushed fun handler hprepare => ?_
  have hhandler := hemits (s.flush env).2.cacheStore
  unfold PrecompileCall.emits at hhandler
  rw [hprepare] at hhandler
  dsimp only at hhandler
  generalize handler c.frame (s.flush env).2.cacheStore = out at hhandler
  have hcollect : EventsSatisfy P ((s.flush env).2.withCache (some
      { (s.flush env).2.cacheContext with
        store := out.store, events := (s.flush env).2.cacheContext.events ++ out.events })) :=
    hflushed.collect hhandler rfl rfl
  exact hcollect.steps (addLogs_steps env _ out.logs)

omit hbank in
theorem journalCall (h : EventsSatisfy P s) (hevents : ∀ e ∈ events, P e) (cms : Store Ω) :
    EventsSatisfy P (s.journalCall cms events) := by
  refine ⟨h.context, h.collected, h.emitted, fun events' hmem => ?_⟩
  have hsplit : callEvents (s.journalCall cms events).journal.entries =
      callEvents s.journal.entries ++ [events] := callEvents_append _ _
  rw [hsplit] at hmem
  rcases List.mem_append.mp hmem with hmem | hmem
  · exact h.journal events' hmem
  · cases List.mem_singleton.mp hmem
    exact hevents

theorem call {err : Option Err} (h : EventsSatisfy P s) (hemits : ∀ st, ∀ e ∈ c.emits st, P e)
    (hcall : s.callPrecompile env c = some (err, s')) : EventsSatisfy P s' := by
  have hcan := h.steps (s.canTransfer_steps env c)
  have hentered : EventsSatisfy P (s.entered env c) :=
    hcan.snapshot.steps (enterCall_steps env _ c)
  exact callPrecompile_invariant (EventsSatisfy P) hcan (hentered.runBody hbank hemits)
    (fun _ _ hsteps h => h.steps hsteps.steps) (fun _ h => h.journalCall hentered.collected _)
    (fun _ _ _ hback h => h.revert hback) hcall

theorem action (h : EventsSatisfy P s) {a : Action Ω}
    (hemits : ∀ c, a = .call c → ∀ st, ∀ e ∈ c.emits st, P e)
    (hstep : a.step env s = some s') : EventsSatisfy P s' := by
  cases a with
  | call c =>
    obtain ⟨⟨err, s₁⟩, hcall, rfl⟩ := Option.map_eq_some_iff.mp hstep
    exact h.call hbank (hemits c rfl) hcall
  | op o =>
    exact Op.invariant (EventsSatisfy P) (fun _ _ hsteps h => h.steps hsteps.steps)
      (fun w _ _ hwrite => h.steps (Write.steps hwrite)) EventsSatisfy.snapshot
      (fun _ _ _ hback h => h.revert hback) h hstep

/-- **The rule for runs.** -/
theorem run {as : List (Action Ω)} (h : EventsSatisfy P s)
    (hemits : ∀ c, Action.call c ∈ as → ∀ st, ∀ e ∈ c.emits st, P e)
    (hrun : s.run env as = some s') : EventsSatisfy P s' := by
  refine run_invariant (EventsSatisfy P) (fun a ha s s' hstep h => ?_) h hrun
  exact h.action hbank (fun c hc => hemits c (hc ▸ ha)) hstep

end EventsSatisfy

/-- `P` holds of every event of the handlers that an EVM calls. -/
def Evm.Emits (evm : Evm Ω) (P : Event → Prop) : Prop :=
  ∀ msg gas db c, Action.call c ∈ (evm.create msg gas db).actions ∨
    Action.call c ∈ (evm.call msg gas db).actions → ∀ st, ∀ e ∈ c.emits st, P e

variable {chain : Chain} {evm : Evm Ω}

theorem EventsSatisfy.setNonce {P : Event → Prop} {s : StateDB Ω} (h : EventsSatisfy P s)
    (a : Address) (nonce : UInt64) : EventsSatisfy P (s.setNonce env a nonce) := by
  have hwrite : (Write.setNonce a nonce).step env s = some (s.setNonce env a nonce) := rfl
  exact h.steps (Write.steps hwrite)

variable {P : Event → Prop} {msg : Message} {outcome : Outcome Ω}
  (hbank : ∀ e : Event, e.OfBank → P e)
include hbank

theorem EventsSatisfy.execute (hevm : evm.Emits P) {gas : UInt64} (h : EventsSatisfy P s)
    (hexecute : execute chain evm msg gas s = some (db, outcome)) : EventsSatisfy P db := by
  obtain ⟨s₁, hprepare, hrest⟩ := execute_cases hexecute
  have hprepared : EventsSatisfy P s₁ := by
    refine h.run hbank ?_ hprepare
    intro c hc
    split at hc
    · obtain ⟨w, -, hw⟩ := List.mem_map.mp hc
      cases hw
    · cases hc
  rcases hrest with ⟨-, s₂, rfl, hrun, rfl⟩ | ⟨-, rfl, hrun⟩
  · have hnonce := @EventsSatisfy.setNonce Ω chain.env P s₁ hprepared msg.sender msg.nonce
    have hcreated := hnonce.run hbank (fun c hc => hevm _ _ _ c (.inl hc)) hrun
    exact hcreated.setNonce _ _
  · exact hprepared.run hbank (fun c hc => hevm _ _ _ c (.inr hc)) hrun

/-- **The events of the branch** of a message. -/
theorem Executed.events (hevm : evm.Emits P) {txConfig : TxConfig} {res : MsgEthereumTxResponse}
    {ctx ctx' : Context Ω} (h : Executed chain evm msg txConfig res ctx ctx' db outcome)
    (hctx : ∀ e ∈ ctx.events, P e) : ∀ e ∈ ctx'.events, P e := by
  obtain ⟨gas, -, hexecute⟩ := h.run
  have hdb : EventsSatisfy P db := (EventsSatisfy.new hctx txConfig).execute hbank hevm hexecute
  have hevents := @StateDB.commit_events Ω chain.env db
  rw [h.commit] at hevents
  rw [hevents]
  refine List.forall_mem_append.mpr ⟨List.forall_mem_append.mpr ⟨hdb.context, hdb.emitted⟩, ?_⟩
  exact fun e he => hbank e (commitEvents_ofBank _ _ e he)

end TacEvm
