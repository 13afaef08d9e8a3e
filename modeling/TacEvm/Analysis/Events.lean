import TacEvm.Analysis.StoreInvariant

/-!
# The events of a transaction

Reverting a call replaces the function that hands the events over by one that emits those of before
the call, while the cache context keeps collecting. `Emissions` says what should be handed over; the
bank adds events for the balances that `Commit` writes.
-/

namespace TacEvm

open FallibleState Rollback StateDB

variable {Ω : Type}

/-! ## The calls in effect -/

/-- The events of the calls in effect, and their number at snapshots. -/
structure Emissions where
  live : List (List Event)
  marks : List ℕ

namespace Emissions

def empty : Emissions := { live := [], marks := [] }

/-- The events of the calls in effect. -/
def events (x : Emissions) : List Event := x.live.flatten

def snapshot (x : Emissions) : Emissions := { x with marks := x.marks ++ [x.live.length] }

/-- Reverting to a place of the stack takes back the calls since. -/
def revert (x : Emissions) (place : ℕ) : Emissions where
  live := x.live.take ((x.marks[place]?).getD 0)
  marks := x.marks.take place

def op (x : Emissions) : Op → Emissions
  | .read _ => x
  | .write _ => x
  | .snapshot => x.snapshot
  | .revertToSnapshot place => x.revert place

/-- A call that succeeds; the EVM takes a snapshot before it. -/
def call (x : Emissions) (events : List Event) : Emissions :=
  { x.snapshot with live := x.live ++ [events] }

end Emissions

/-- The events of a call whose handler is given `st`. -/
def PrecompileCall.emits (c : PrecompileCall Ω) (st : Store Ω) : List Event :=
  match c.precompile.prepare c.frame with
  | .error _ => []
  | .ok handler => (handler c.frame st).events

/-- What a call emits: the bank in the flush, and the handler. -/
def StateDB.callEmits (env : Env) (s : StateDB Ω) (c : PrecompileCall Ω) : List Event :=
  (s.entered env c).commitWithCtxEvents env (s.entered env c).cacheStore ++
    c.emits (s.flushedStore env c)

/-- A run whose calls succeed, with those in effect at its end. -/
def StateDB.runEmitting (env : Env) :
    StateDB Ω → Emissions → List (Action Ω) → Option (StateDB Ω × Emissions)
  | s, x, [] => some (s, x)
  | s, x, .op o :: as => (o.step env s).bind fun s' => s'.runEmitting env (x.op o) as
  | s, x, .call c :: as =>
    match s.callPrecompile env c with
    | some (none, s') => s'.runEmitting env (x.call (s.callEmits env c)) as
    | _ => none

/-- The events `writeCache` hands over. -/
def StateDB.emitted (s : StateDB Ω) : List Event :=
  s.cacheContext.restored.getD s.cacheContext.events

variable {env : Env}

/-- `Commit` hands over events, and emits those of the bank. -/
theorem StateDB.commit_events (s : StateDB Ω) : (s.commit env).2.events =
    s.ctx.events ++ s.emitted ++ s.commitWithCtxEvents env s.cacheStore := by
  have hwrite : s.writeCache.events = s.ctx.events ++ s.emitted := by
    unfold writeCache emitted cacheContext
    cases s.cacheCtx with
    | none => simp
    | some c => rfl
  rw [← hwrite, ← writeCache_store]
  unfold commit
  cases (s.commitWithCtx env).run s.writeCache.store with
  | ok u st => rfl
  | error e st => rfl

variable {s s' : StateDB Ω}

theorem StateDB.emitted_eq (hctx : s'.ctx = s.ctx) (hcache : s'.cacheCtx = s.cacheCtx) :
    s'.emitted = s.emitted := by
  simp only [emitted, cacheContext, hctx, hcache]

/-! ## The balances that are written -/

section Writes

variable {st st₁ st' : Store Ω} {a : Address} {o : StateObject} {x : ℤ}

/-- A balance has events unless it is there already. -/
theorem Keeper.setBalanceEvents_eq_nil_iff (hbalance : st₁.balance = st.balance)
    (h : (Keeper.setBalance env a x).run st₁ = .ok () st') :
    Keeper.setBalanceEvents env a x st = [] ↔ x = st.getBalance env a := by
  have hget : st₁.getBalance env a = st.getBalance env a := by
    unfold Store.getBalance
    rw [hbalance]
  simp only [Keeper.setBalance, run_get_bind, hget] at h
  unfold Keeper.setBalanceEvents
  dsimp only
  split at h
  · rename_i hpos
    obtain ⟨_, st₂, hmint, -⟩ := bind_ok.mp h
    obtain ⟨_, st₃, hvalid, -⟩ := bind_ok.mp hmint
    have hrun : ∃ st₄, (Bank.mintCoins env.evmModule env.evmDenom
        (env.convertAmountFrom18Decimals (x - st.getBalance env a))).run st = .ok () st₄ := by
      unfold Bank.mintCoins
      rw [bind_run_of_ok (Bank.validateAmount_run (Bank.validateAmount_ok hvalid).1)]
      exact ⟨_, rfl⟩
    obtain ⟨st₄, hrun⟩ := hrun
    rw [if_pos hpos, Bank.mintAmountToAccountEvents, Bank.eventsThen, hrun]
    refine iff_of_false (by simp [Bank.mintCoinsEvents]) ?_
    omega
  rename_i hpos
  rw [if_neg hpos]
  split at h
  · rename_i hneg
    obtain ⟨_, st₂, hsend, -⟩ := bind_ok.mp h
    obtain ⟨hamount, hspendable, -⟩ := Bank.sendCoins_ok hsend
    rw [hbalance] at hspendable
    rw [if_pos hneg, Bank.burnAmountFromAccountEvents, Bank.eventsThen,
      Bank.sendCoinsFromAccountToModule, Bank.sendCoins_run hamount hspendable]
    refine iff_of_false (by simp [Bank.sendCoinsEvents]) ?_
    omega
  · rename_i hneg
    rw [if_neg hneg]
    refine iff_of_true rfl ?_
    omega

variable (env) in
/-- The balance of an object is the one in the bank. -/
def StateObject.Written (a : Address) (o : StateObject) (st : Store Ω) : Prop :=
  if o.suicided then st.sequence a = none ∨ st.getBalance env a = 0
  else o.account.balance = st.getBalance env a

theorem Keeper.setBalance_same (h : x = st.getBalance env a) :
    (Keeper.setBalance env a x).run st = .ok () st := by
  simp only [Keeper.setBalance, run_get_bind, h, sub_self, lt_irrefl, if_false]
  rfl

/-- An object has no events just if its balance is written. -/
theorem commitObjectEvents_eq_nil_iff (h : (commitObject env a o).run st = .ok () st') :
    commitObjectEvents env a o st = [] ↔ o.Written env a st := by
  unfold commitObjectEvents StateObject.Written
  cases hs : o.suicided with
  | false =>
    rw [commitObject_live hs] at h
    obtain ⟨_, st₁, hset, -⟩ := bind_ok.mp h
    have hbalance : (accountWritten env a o st).balance = st.balance := rfl
    exact Keeper.setBalanceEvents_eq_nil_iff hbalance (mapError_ok.mp hset)
  | true =>
    rw [commitObject_suicided hs] at h
    replace h := mapError_ok.mp h
    simp only [if_true, Keeper.deleteAccountEvents]
    split at h
    · rename_i hseq
      simp [hseq]
    rename_i hseq
    split at h
    · cases h
    rename_i hcode
    obtain ⟨_, st₁, hset, -⟩ := bind_ok.mp h
    have hcontract : st.isContract a = true := Option.isSome_iff_ne_none.mpr hcode
    rw [if_neg (by simp [hseq, hcontract]), Keeper.setBalanceEvents_eq_nil_iff rfl hset,
      or_iff_right hseq, eq_comm]

/-- An object whose balance is written moves no coins. -/
theorem commitObject_written (hw : o.Written env a st)
    (h : (commitObject env a o).run st = .ok () st') :
    st'.balance = st.balance ∧ ∀ b, b ≠ a → st'.sequence b = st.sequence b := by
  unfold StateObject.Written at hw
  cases hs : o.suicided with
  | false =>
    rw [hs] at hw
    have hbalance : o.account.balance = (accountWritten env a o st).getBalance env a := hw
    have hsame := Keeper.setBalance_same hbalance
    rw [commitObject_live hs, bind_run_of_ok (mapError_ok.mpr hsame), commitSlots_run] at h
    cases h
    exact ⟨rfl, fun b hb => Function.update_of_ne hb _ _⟩
  | true =>
    rw [hs, if_pos rfl] at hw
    rw [commitObject_suicided hs] at h
    replace h := mapError_ok.mp h
    split at h
    · cases h
      exact ⟨rfl, fun _ _ => rfl⟩
    rename_i hseq
    split at h
    · cases h
    rw [bind_run_of_ok (Keeper.setBalance_same (hw.resolve_left hseq).symm)] at h
    cases h
    exact ⟨rfl, fun b hb => Function.update_of_ne hb _ _⟩

theorem StateObject.written_congr {b : Address} (hbalance : st'.balance = st.balance)
    (hsequence : st'.sequence b = st.sequence b) : o.Written env b st' ↔ o.Written env b st := by
  unfold Written Store.getBalance
  rw [hbalance, hsequence]

/-- **What is written has events**, and nothing else has. -/
theorem commitEvents_eq_nil_iff {objects : Address → Option StateObject} {addrs : List Address}
    (hnodup : addrs.Nodup) {f : Address → KeeperM Ω Unit}
    (hsome : ∀ a o, objects a = some o → f a = commitObject env a o)
    (hnone : ∀ a, objects a = none → f a = throw .nilDereference)
    (h : (addrs.forM f).run st = .ok () st') :
    commitEvents env objects addrs st = [] ↔
      ∀ a ∈ addrs, ∀ o, objects a = some o → o.Written env a st := by
  induction addrs generalizing st with
  | nil => simp [commitEvents]
  | cons a addrs ih =>
    obtain ⟨hnot, hnodup⟩ := List.nodup_cons.mp hnodup
    obtain ⟨_, st₁, hfirst, hrest⟩ := bind_ok.mp h
    cases ho : objects a with
    | none =>
      rw [hnone a ho] at hfirst
      cases hfirst
    | some o =>
      rw [hsome a o ho] at hfirst
      unfold commitEvents
      rw [ho]
      dsimp only
      have hself : (∀ o', objects a = some o' → o'.Written env a st) ↔ o.Written env a st := by
        simp [ho]
      rw [hfirst, List.append_eq_nil_iff, commitObjectEvents_eq_nil_iff hfirst, ih hnodup hrest,
        List.forall_mem_cons, hself]
      refine and_congr_right fun hw => ?_
      obtain ⟨hbalance, hsequence⟩ := commitObject_written hw hfirst
      refine forall₂_congr fun b hb => forall₂_congr fun o' _ => ?_
      exact StateObject.written_congr hbalance (hsequence b fun heq => hnot (heq ▸ hb))

variable (env) in
/-- No dirty object has a balance that `Commit` would write. -/
def StateDB.BalancesWritten (s : StateDB Ω) : Prop :=
  ∀ a ∈ s.journal.dirties, ∀ o, s.stateObjects a = some o → o.Written env a s.cacheStore

theorem StateDB.commitWithCtxEvents_eq_nil_iff (h : (s.commit env).1 = none) :
    s.commitWithCtxEvents env s.cacheStore = [] ↔ s.BalancesWritten env := by
  have hrun := commit_ok (Prod.ext h rfl : s.commit env = (none, (s.commit env).2))
  rw [writeCache_store] at hrun
  refine (commitEvents_eq_nil_iff (nodup_sortedDirties s.journal) (fun a o ho => ?_)
    (fun a ho => ?_) hrun).trans ?_
  · rw [ho]
  · rw [ho]
  exact forall_congr' fun a => by rw [mem_sortedDirties]

end Writes

/-! ## What the journal keeps of the events -/

/-- The events each call entry of a journal would restore. -/
def callEvents (log : List (JournalEntry Ω)) : List (List Event) :=
  log.filterMap fun
    | .precompileCallChange _ events => some events
    | _ => none

@[simp]
theorem callEvents_append (log es : List (JournalEntry Ω)) :
    callEvents (log ++ es) = callEvents log ++ callEvents es := by
  simp [callEvents]

theorem callEvents_of_not_isCall {es : List (JournalEntry Ω)} (h : ∀ e ∈ es, e.isCall = false) :
    callEvents es = [] := by
  unfold callEvents
  rw [List.filterMap_eq_nil_iff]
  intro e he
  have hcall := h e he
  cases e with
  | precompileCallChange _ _ => cases hcall
  | _ => rfl

@[simp]
theorem callEvents_call (cms : Store Ω) (events : List Event) :
    callEvents [.precompileCallChange cms events] = [events] := rfl

theorem callEvents_take_drop (log : List (JournalEntry Ω)) (n : ℕ) :
    callEvents (log.take n) ++ callEvents (log.drop n) = callEvents log := by
  rw [← callEvents_append, List.take_append_drop]

theorem StateDB.emitted_revertEntry {e : JournalEntry Ω} (h : revertEntry env e s = some s') :
    s'.emitted = (callEvents [e]).head?.getD s.emitted := by
  obtain ⟨s₁, hrevert, rfl⟩ := Option.map_eq_some_iff.mp h
  cases hcall : e.isCall with
  | false =>
    have hnone : callEvents [e] = [] := callEvents_of_not_isCall (by simpa using hcall)
    have hsame : s₁.emitted = s.emitted :=
      emitted_eq (revert_sameRun hrevert).ctx (revert_cacheCtx hcall hrevert)
    rw [hnone]
    exact hsame
  | true =>
    cases e with
    | precompileCallChange cms events =>
      cases hrevert
      rfl
    | _ => cases hcall

theorem StateDB.emitted_rollback {es : List (JournalEntry Ω)}
    (h : rollback (revertEntry env) es s = some s') :
    s'.emitted = (callEvents es).head?.getD s.emitted := by
  induction es generalizing s' with
  | nil =>
    cases h
    rfl
  | cons e es ih =>
    obtain ⟨s₁, hroll, hrevert⟩ := Option.bind_eq_some_iff.mp h
    have hsplit : callEvents (e :: es) = callEvents [e] ++ callEvents es := callEvents_append [e] es
    rw [emitted_revertEntry hrevert, ih hroll, hsplit]
    cases callEvents [e] with
    | nil => rfl
    | cons events rest => rfl

/-! ## The run and the calls in effect, side by side -/

/-- The journal has one entry for every call in effect. -/
structure Numbered (s : StateDB Ω) (x : Emissions) : Prop where
  marks : x.marks = s.validRevisions.map fun r =>
    (callEvents (s.journal.entries.take r.journalIndex)).length
  count : (callEvents s.journal.entries).length = x.live.length

/-- Entries restore earlier events, and those in effect are handed over. -/
structure Faithful (s : StateDB Ω) (x : Emissions) : Prop where
  snapshots : ∀ i events, (callEvents s.journal.entries)[i]? = some events →
    events = (x.live.take i).flatten
  emitted : s.emitted = x.events

theorem Steps.entries (h : Steps env s s') :
    ∃ es, s'.journal.entries = s.journal.entries ++ es ∧ ∀ e ∈ es, e.isCall = false := by
  induction h with
  | refl => exact ⟨[], by simp, by simp⟩
  | tail _ hstep ih =>
    obtain ⟨es, hentries, hcalls⟩ := ih
    obtain ⟨fs, hentries', -, hcalls'⟩ := hstep.change
    refine ⟨es ++ fs, by rw [hentries', hentries, List.append_assoc], fun e he => ?_⟩
    rcases List.mem_append.mp he with he | he
    · exact hcalls e he
    · exact hcalls' e he

section

variable {ctx : Context Ω} {s s' : StateDB Ω} {x : Emissions}

theorem Reached.within (hs : Reached env ctx s) {r : Revision} (hr : r ∈ s.validRevisions) :
    r.journalIndex ≤ s.journal.entries.length :=
  hs.ordered.within (r.id, r.journalIndex) (List.mem_map_of_mem hr)

theorem Numbered.extend {es : List (JournalEntry Ω)} (h : Numbered s x) (hs : Reached env ctx s)
    (hentries : s'.journal.entries = s.journal.entries ++ es)
    (hrevisions : s'.validRevisions = s.validRevisions) :
    x.marks = s'.validRevisions.map fun r =>
      (callEvents (s'.journal.entries.take r.journalIndex)).length := by
  rw [h.marks, hrevisions, List.map_inj_left]
  intro r hr
  rw [hentries, List.take_append_of_le_length (hs.within hr)]

theorem Numbered.steps (h : Numbered s x) (hs : Reached env ctx s) (hsteps : Steps env s s') :
    Numbered s' x := by
  obtain ⟨es, hentries, hcalls⟩ := hsteps.entries
  refine ⟨h.extend hs hentries hsteps.sameControl.validRevisions, ?_⟩
  rw [hentries, callEvents_append, callEvents_of_not_isCall hcalls, List.append_nil, h.count]

theorem Faithful.steps (h : Faithful s x) (hsteps : Steps env s s') : Faithful s' x := by
  obtain ⟨es, hentries, hcalls⟩ := hsteps.entries
  have hcontrol := hsteps.sameControl
  refine ⟨fun i events hi => h.snapshots i events ?_, ?_⟩
  · rwa [hentries, callEvents_append, callEvents_of_not_isCall hcalls, List.append_nil] at hi
  · rw [emitted_eq hcontrol.ctx hcontrol.cacheCtx, h.emitted]

theorem Numbered.snapshot (h : Numbered s x) : Numbered s.snapshot.2 x.snapshot where
  marks := by
    simp only [StateDB.snapshot, Emissions.snapshot, List.map_append, List.map_cons, List.map_nil,
      List.take_length, h.count, ← h.marks]
  count := h.count

theorem Faithful.snapshot (h : Faithful s x) : Faithful s.snapshot.2 x.snapshot :=
  ⟨h.snapshots, h.emitted⟩

variable {place : ℕ}

theorem revert_place (hs : Reached env ctx s)
    (h : (Op.revertToSnapshot place).step env s = some s') :
    ∃ r, s.validRevisions[place]? = some r ∧
      s'.validRevisions = s.validRevisions.take place ∧
      s'.journal.entries = s.journal.entries.take r.journalIndex ∧
      s'.emitted = (callEvents (s.journal.entries.drop r.journalIndex)).head?.getD s.emitted := by
  obtain ⟨r, hr, hrevert⟩ := Option.bind_eq_some_iff.mp h
  rw [revertToSnapshot_at hs.ordered hr, revertJournal] at hrevert
  obtain ⟨s₂, hs₂, rfl⟩ := Option.map_eq_some_iff.mp hrevert
  obtain ⟨s₁, hroll, rfl⟩ := Option.map_eq_some_iff.mp hs₂
  have hkept := (observe_rollback s _).2 s₁ hroll
  have hemitted := emitted_rollback hroll
  refine ⟨r, hr, ?_, ?_, hemitted⟩
  · rw [hkept.validRevisions]
  · rw [hkept.entries]

theorem Numbered.mark (h : Numbered s x) {place : ℕ} {r : Revision}
    (hr : s.validRevisions[place]? = some r) :
    (x.marks[place]?).getD 0 = (callEvents (s.journal.entries.take r.journalIndex)).length := by
  rw [h.marks, List.getElem?_map, hr]
  rfl

theorem Numbered.mark_le (h : Numbered s x) (n : ℕ) :
    (callEvents (s.journal.entries.take n)).length ≤ x.live.length := by
  have hlength := congrArg List.length (callEvents_take_drop s.journal.entries n)
  rw [List.length_append, h.count] at hlength
  omega

theorem Numbered.revert (h : Numbered s x) (hs : Reached env ctx s)
    (hstep : (Op.revertToSnapshot place).step env s = some s') : Numbered s' (x.revert place) := by
  obtain ⟨r, hr, hrevisions, hentries, -⟩ := revert_place hs hstep
  have hmark := h.mark hr
  constructor
  · show x.marks.take place = _
    rw [h.marks, hrevisions, ← List.map_take, List.map_inj_left]
    intro r' hr'
    have hle : r'.journalIndex ≤ r.journalIndex := by
      obtain ⟨i, hi, rfl⟩ := List.getElem_of_mem hr'
      rw [List.length_take] at hi
      obtain ⟨hplace, hget⟩ := List.getElem?_eq_some_iff.mp hr
      have hsorted := List.pairwise_map.mp hs.ordered.sorted
      have hlt := List.pairwise_iff_getElem.mp hsorted i place (by omega) hplace (by omega)
      rw [hget] at hlt
      rw [List.getElem_take]
      exact hlt.2
    rw [hentries, List.take_take, Nat.min_eq_left hle]
  · show _ = (x.live.take _).length
    rw [hmark, hentries, List.length_take, Nat.min_eq_left (h.mark_le _)]

/-- Reverting drops the events after the mark. -/
theorem Faithful.revert (h : Faithful s x) (hn : Numbered s x) (hs : Reached env ctx s)
    (hstep : (Op.revertToSnapshot place).step env s = some s') : Faithful s' (x.revert place) := by
  obtain ⟨r, hr, -, hentries, hemitted⟩ := revert_place hs hstep
  have hmark := hn.mark hr
  have hsplit := callEvents_take_drop s.journal.entries r.journalIndex
  have hlive : (x.revert place).live =
      x.live.take (callEvents (s.journal.entries.take r.journalIndex)).length := by
    rw [← hmark]
    rfl
  constructor
  · intro i events hi
    rw [hentries] at hi
    obtain ⟨hlt, -⟩ := List.getElem?_eq_some_iff.mp hi
    rw [hlive, List.take_take, Nat.min_eq_left hlt.le]
    apply h.snapshots i events
    rw [← hsplit, List.getElem?_append_left hlt]
    exact hi
  · rw [hemitted, Emissions.events, hlive]
    cases hdropped : callEvents (s.journal.entries.drop r.journalIndex) with
    | nil =>
      -- no call is taken back, and all calls in effect stay
      rw [hdropped, List.append_nil] at hsplit
      rw [hsplit, hn.count, List.take_length]
      exact h.emitted
    | cons events rest =>
      apply h.snapshots
      rw [← hsplit, hdropped, List.getElem?_append_right le_rfl, Nat.sub_self]
      rfl

theorem Op.numbered (h : Numbered s x) (hs : Reached env ctx s) {o : Op}
    (hstep : o.step env s = some s') : Numbered s' (x.op o) := by
  cases o with
  | read r =>
    cases hstep
    exact h.steps hs (Read.steps s r)
  | write w => exact h.steps hs (Write.steps hstep)
  | snapshot =>
    cases hstep
    exact h.snapshot
  | revertToSnapshot place => exact h.revert hs hstep

theorem Op.faithful (h : Faithful s x) (hn : Numbered s x) (hs : Reached env ctx s) {o : Op}
    (hstep : o.step env s = some s') : Faithful s' (x.op o) := by
  cases o with
  | read r =>
    cases hstep
    exact h.steps (Read.steps s r)
  | write w => exact h.steps (Write.steps hstep)
  | snapshot =>
    cases hstep
    exact h.snapshot
  | revertToSnapshot place => exact h.revert hn hs hstep

end

/-- `Run` collects its events, and its entry those of before. -/
structure Collected (s : StateDB Ω) (events : List Event) (s' : StateDB Ω) : Prop where
  entries : ∃ es cms, (∀ e ∈ es, e.isCall = false) ∧ s'.journal.entries =
    s.journal.entries ++ (es ++ [.precompileCallChange cms s.cacheContext.events])
  revisions : s'.validRevisions = s.validRevisions
  collected : s'.cacheContext.events = s.cacheContext.events ++ events
  restored : s'.cacheContext.restored = s.cacheContext.restored

theorem StateDB.applyHandlerOutput_cacheContext (env : Env) (s : StateDB Ω)
    (out : HandlerOutput Ω) : (s.applyHandlerOutput out).cacheContext =
      { s.cacheContext with
        store := out.store, events := s.cacheContext.events ++ out.events } := by
  have hlogs := (addLogs_steps env (s.withCache (some
    { s.cacheContext with store := out.store, events := s.cacheContext.events ++ out.events }))
    out.logs).sameControl
  rw [cacheContext, show (s.applyHandlerOutput out).cacheCtx = _ from hlogs.cacheCtx]
  rfl

theorem StateDB.runBody_events {c : PrecompileCall Ω} {entries : BalanceChanges}
    (h : (s.runBody env c.precompile c.frame).1 = .ok entries) :
    (s.runBody env c.precompile c.frame).2.cacheContext.events =
        s.cacheContext.events ++ (s.commitWithCtxEvents env s.cacheStore ++
          c.emits (s.flush env).2.cacheStore) ∧
      (s.runBody env c.precompile c.frame).2.cacheContext.restored = s.cacheContext.restored := by
  obtain ⟨st, hflush⟩ := s.flush_eq env
  obtain ⟨e, hbody⟩ | ⟨e, hbody⟩ | ⟨handler, result, -, hprepare, -, hbody⟩ :=
    s.runBody_cases env c.precompile c.frame
  · rw [hbody] at h
    cases h
  · rw [hbody] at h
    cases h
  have hcache : (s.flush env).2.cacheContext =
      { s.cacheContext with
        store := st
        events := s.cacheContext.events ++ s.commitWithCtxEvents env s.cacheStore } := by
    rw [hflush]
    rfl
  unfold PrecompileCall.emits
  rw [hbody, hprepare]
  dsimp only
  rw [applyHandlerOutput_cacheContext env, hcache]
  exact ⟨List.append_assoc _ _ _, rfl⟩

/-- A method adds the events of the flush and its own. -/
theorem StateDB.runPrecompile_collected {c : PrecompileCall Ω}
    (h : s.runPrecompile env c.precompile c.frame = (none, s')) :
    Collected s (s.commitWithCtxEvents env s.cacheStore ++
      c.emits (s.flush env).2.cacheStore) s' := by
  rcases @runPrecompile_frame Ω env s c.precompile c.frame with
    ⟨e, -, hrun⟩ | ⟨entries, s₁, hok, hs₁, -, hrun⟩
  · rw [hrun] at h
    cases h
  obtain ⟨cache, hbody⟩ := s.runBody_steps env c.precompile c.frame
  obtain ⟨hcollected, hrestored⟩ := runBody_events hok
  have hchanges : Steps env _ _ := (applyBalanceChanges_steps env
    (s.runBody env c.precompile c.frame).2 entries).trans
      (getOrNew_steps env _ c.precompile.address).1
  rw [← hs₁] at hchanges
  have hcontrol := hchanges.sameControl
  have hcache : s₁.cacheContext = (s.runBody env c.precompile c.frame).2.cacheContext := by
    simp only [cacheContext, hcontrol.ctx, hcontrol.cacheCtx]
  have hsteps : Steps env _ _ := hbody.trans hchanges
  obtain ⟨es, hentries, hcalls⟩ := hsteps.entries
  rw [hrun] at h
  obtain ⟨-, rfl⟩ := Prod.mk.inj h
  refine ⟨⟨es, s.cacheStore, hcalls, ?_⟩, ?_, ?_, ?_⟩
  · simp only [journalCall, entries_append, hentries, List.append_assoc]
    rfl
  · exact hsteps.sameControl.validRevisions
  · show s₁.cacheContext.events = _
    rw [hcache, hcollected]
  · show s₁.cacheContext.restored = _
    rw [hcache, hrestored]

section

variable {ctx : Context Ω} {tx : TxConfig} {s s' : StateDB Ω} {x : Emissions}
  {c : PrecompileCall Ω}

theorem StateDB.callPrecompile_collected (hcall : s.callPrecompile env c = some (none, s')) :
    Collected (s.entered env c) (s.callEmits env c) s' :=
  runPrecompile_collected (callPrecompile_succeeded hcall)

theorem Numbered.entered (h : Numbered s x) (hs : Moves env (new ctx tx) s)
    (c : PrecompileCall Ω) : Numbered (s.entered env c) x.snapshot := by
  have hcan := h.steps hs.reached (s.canTransfer_steps env c)
  have hsnapshot := (hs.canTransfer c).tail .snapshot
  exact hcan.snapshot.steps hsnapshot.reached (enterCall_steps env _ c)

theorem Faithful.entered (h : Faithful s x) (env : Env) (c : PrecompileCall Ω) :
    Faithful (s.entered env c) x.snapshot :=
  (h.steps (s.canTransfer_steps env c)).snapshot.steps (enterCall_steps env _ c)

theorem Numbered.call (h : Numbered s x) (hs : Moves env (new ctx tx) s)
    (hcall : s.callPrecompile env c = some (none, s')) :
    Numbered s' (x.call (s.callEmits env c)) := by
  have henter := h.entered hs c
  have hrun := callPrecompile_collected hcall
  obtain ⟨es, cms, hcalls, hentries⟩ := hrun.entries
  refine ⟨henter.extend (hs.entered c).reached hentries hrun.revisions, ?_⟩
  rw [hentries, callEvents_append, callEvents_append, callEvents_of_not_isCall hcalls]
  simp only [callEvents_call, List.nil_append, List.length_append, henter.count, Emissions.call,
    Emissions.snapshot, List.length_singleton]

variable (env) in
/-- No call was reverted before, or none of them has events. -/
def EventsComeThrough (s : StateDB Ω) (c : PrecompileCall Ω) (_ : StateDB Ω) : Prop :=
  s.cacheContext.restored = none ∨
    (s.cacheContext.restored = some s.cacheContext.events ∧ s.callEmits env c = [])

/-- What is handed over is right around a call and its revert. -/
theorem eventsComeThrough_iff (hcall : s.callPrecompile env c = some (none, s')) :
    EventsComeThrough env s c s' ↔ s.cacheContext.events = s.emitted ∧
      s'.emitted = s.emitted ++ s.callEmits env c := by
  have hrun := callPrecompile_collected hcall
  have hcollected := hrun.collected
  have hrestored := hrun.restored
  rw [entered_cacheContext] at hcollected hrestored
  unfold EventsComeThrough emitted
  rw [hcollected, hrestored]
  cases s.cacheContext.restored with
  | none => simp
  | some events =>
    simp only [Option.getD_some, reduceCtorEq, false_or, Option.some.injEq,
      List.self_eq_append_right]
    rw [eq_comm]

/-- The log of the events stays faithful through a call. -/
theorem Faithful.call (h : Faithful s x) (hn : Numbered s x)
    (hs : Moves env (new ctx tx) s) (hcome : EventsComeThrough env s c s')
    (hcall : s.callPrecompile env c = some (none, s')) :
    Faithful s' (x.call (s.callEmits env c)) := by
  obtain ⟨hbefore, hafter⟩ := (eventsComeThrough_iff hcall).mp hcome
  have henter := h.entered env c
  have hcount := (hn.entered hs c).count
  obtain ⟨es, cms, hcalls, hentries⟩ := (callPrecompile_collected hcall).entries
  have hevents : callEvents s'.journal.entries =
      callEvents (s.entered env c).journal.entries ++ [s.cacheContext.events] := by
    rw [hentries, callEvents_append, callEvents_append, callEvents_of_not_isCall hcalls,
      entered_cacheContext]
    rfl
  constructor
  · intro i events hi
    rw [hevents] at hi
    have hlive : (x.call (s.callEmits env c)).live = x.live ++ [s.callEmits env c] := rfl
    rw [hlive]
    have hlength : (callEvents (s.entered env c).journal.entries).length = x.live.length := hcount
    obtain ⟨hlt, -⟩ := List.getElem?_eq_some_iff.mp hi
    rw [List.length_append, List.length_singleton, hlength] at hlt
    by_cases hold : i < x.live.length
    · rw [List.getElem?_append_left (by omega)] at hi
      rw [List.take_append_of_le_length hold.le]
      exact henter.snapshots i events hi
    -- the entry of this call keeps the events of all calls before
    obtain rfl : i = x.live.length := by omega
    rw [List.getElem?_append_right (by omega), hlength, Nat.sub_self] at hi
    rw [List.take_append_of_le_length le_rfl, List.take_length, ← Option.some.inj hi, hbefore]
    exact h.emitted
  · rw [hafter, h.emitted]
    simp [Emissions.events, Emissions.call]

/-- A reverted call leaves what was collected before it. -/
theorem StateDB.emitted_revertCall (hs : Moves env (new ctx tx) s)
    (hcall : s.callPrecompile env c = some (none, s')) :
    ∃ s'', (Op.revertToSnapshot s.validRevisions.length).step env s' = some s'' ∧
      s''.emitted = s.cacheContext.events := by
  have hrun := callPrecompile_collected hcall
  obtain ⟨es, cms, hcalls, hentries⟩ := hrun.entries
  have hcan := (s.canTransfer_steps env c).sameControl
  have hsteps := (s.canTransfer env c).2.snapshot.2.enterCall_steps env c
  obtain ⟨fs, hentered, hcalls'⟩ := hsteps.entries
  -- the snapshot of the call is the last one on the stack
  set r : Revision := ⟨(s.canTransfer env c).2.nextRevisionID,
    (s.canTransfer env c).2.journal.entries.length⟩ with hr
  have hrevisions : s'.validRevisions = s.validRevisions ++ [r] := by
    rw [hrun.revisions, ← hcan.validRevisions]
    exact hsteps.sameControl.validRevisions
  have hplace : s'.validRevisions[s.validRevisions.length]? = some r := by
    rw [hrevisions]
    simp
  have hs' := (hs.trans (callPrecompile_moves hcall)).reached
  obtain ⟨s'', hrevert⟩ := hs'.revertible r (by rw [hrevisions]; simp)
  have hstep : (Op.revertToSnapshot s.validRevisions.length).step env s' = some s'' := by
    simp [Op.step, hplace, hrevert]
  refine ⟨s'', hstep, ?_⟩
  obtain ⟨r', hr', -, -, hemitted⟩ := revert_place hs' hstep
  obtain rfl : r = r' := Option.some.inj (hplace.symm.trans hr')
  have hdrop : s'.journal.entries.drop r.journalIndex =
      fs ++ (es ++ [.precompileCallChange cms (s.entered env c).cacheContext.events]) := by
    have hfirst : (s.entered env c).journal.entries =
        (s.canTransfer env c).2.journal.entries ++ fs := hentered
    rw [hentries, hfirst, List.append_assoc]
    exact List.drop_left
  rw [hemitted, hdrop, callEvents_append, callEvents_append, callEvents_of_not_isCall hcalls,
    callEvents_of_not_isCall hcalls', entered_cacheContext]
  rfl

end

section

variable {ctx : Context Ω} {tx : TxConfig}

variable {s s' : StateDB Ω} {x x' : Emissions} {as : List (Action Ω)}

theorem StateDB.run_of_runEmitting (h : s.runEmitting env x as = some (s', x')) :
    s.run env as = some s' := by
  induction as generalizing s x with
  | nil =>
    cases h
    rfl
  | cons a as ih =>
    cases a with
    | op o =>
      obtain ⟨s₁, hstep, hrest⟩ := Option.bind_eq_some_iff.mp h
      simp only [run, Action.step, hstep, Option.bind_some]
      exact ih hrest
    | call c =>
      unfold runEmitting at h
      split at h
      · rename_i s₁ hcall
        simp only [run, Action.step, hcall, Option.map_some, Option.bind_some]
        exact ih h
      · cases h

/-- **Runs whose calls come through** hand over the right events. -/
theorem runEmitting_faithful (hs : Moves env (new ctx tx) s) (hn : Numbered s x)
    (hf : Faithful s x) (hrun : s.runEmitting env x as = some (s', x'))
    (hcome : s.forCalls env (EventsComeThrough env) as) :
    Moves env (new ctx tx) s' ∧ Faithful s' x' := by
  induction as generalizing s x with
  | nil =>
    cases hrun
    exact ⟨hs, hf⟩
  | cons a as ih =>
    cases a with
    | op o =>
      obtain ⟨s₁, hstep, hrest⟩ := Option.bind_eq_some_iff.mp hrun
      exact ih (hs.trans (Op.moves hstep)) (Op.numbered hn hs.reached hstep)
        (Op.faithful hf hn hs.reached hstep) hrest (hcome s₁ hstep)
    | call c =>
      unfold runEmitting at hrun
      split at hrun
      · rename_i s₁ hcall
        obtain ⟨hfirst, hrest⟩ := hcome none s₁ hcall
        exact ih (hs.trans (callPrecompile_moves hcall)) (hn.call hs hcall)
          (hf.call hn hs hfirst hcall) hrun hrest
      · cases hrun

theorem numbered_new : Numbered (new ctx tx) .empty := ⟨rfl, rfl⟩

theorem faithful_new : Faithful (new ctx tx) .empty := by
  refine ⟨fun i events hi => ?_, rfl⟩
  cases hi

theorem StateDB.forCalls_then_ops {P : StateDB Ω → PrecompileCall Ω → StateDB Ω → Prop}
    {pre : List (Action Ω)} (h : s.forCalls env P as) (hpre : pre <+: as) (ops : List Op) :
    s.forCalls env P (pre ++ ops.map .op) := by
  induction pre generalizing s as with
  | nil =>
    clear hpre h
    induction ops generalizing s with
    | nil => trivial
    | cons o ops ih =>
      intro s' _
      exact ih
  | cons a pre ih =>
    obtain ⟨rest, rfl⟩ := hpre
    cases a with
    | op o =>
      intro s' hstep
      exact ih (h s' hstep) (List.prefix_append _ _)
    | call c =>
      intro e s' hcall
      obtain ⟨hfirst, hrest⟩ := h e s' hcall
      exact ⟨hfirst, ih hrest (List.prefix_append _ _)⟩

/-- If every part of a run is right, its calls come through. -/
theorem forCalls_of_exact (hs : Moves env (new ctx tx) s) (hn : Numbered s x)
    (hrun : s.runEmitting env x as = some (s', x')) (hexact : ∀ pre ops s' x', pre <+: as →
      s.runEmitting env x (pre ++ List.map Action.op ops) = some (s', x') →
      s'.emitted = x'.events) : s.forCalls env (EventsComeThrough env) as := by
  induction as generalizing s x with
  | nil => trivial
  | cons a as ih =>
    cases a with
    | op o =>
      obtain ⟨s₁, hstep, hrest⟩ := Option.bind_eq_some_iff.mp hrun
      intro s₂ hs₂
      obtain rfl : s₁ = s₂ := Option.some.inj (hstep.symm.trans hs₂)
      refine ih (hs.trans (Op.moves hstep)) (Op.numbered hn hs.reached hstep) hrest ?_
      intro pre ops s' x' hpre hpart
      refine hexact (.op o :: pre) ops s' x' (List.cons_prefix_cons.mpr ⟨rfl, hpre⟩) ?_
      simp only [List.cons_append, runEmitting, hstep, Option.bind_some]
      exact hpart
    | call c =>
      unfold runEmitting at hrun
      split at hrun
      · rename_i s₁ hcall
        have hpart : ∀ pre ops s' x', pre <+: as →
            s₁.runEmitting env (x.call (s.callEmits env c))
              (pre ++ List.map Action.op ops) = some (s', x') → s'.emitted = x'.events := by
          intro pre ops s' x' hpre hpart
          refine hexact (.call c :: pre) ops s' x' (List.cons_prefix_cons.mpr ⟨rfl, hpre⟩) ?_
          simp only [List.cons_append, runEmitting, hcall]
          exact hpart
        intro e s₂ hs₂
        obtain ⟨rfl, rfl⟩ := Prod.mk.inj (Option.some.inj (hcall.symm.trans hs₂))
        refine ⟨?_, ih (hs.trans (callPrecompile_moves hcall)) (hn.call hs hcall) hrun hpart⟩
        -- right before the call, after it, and after it is taken back
        have hbefore := hexact [] [] s x List.nil_prefix rfl
        have hafter := hpart [] [] s₁ _ List.nil_prefix rfl
        obtain ⟨s₃, hrevert, hcollected⟩ := emitted_revertCall hs hcall
        have hback := hpart [] [.revertToSnapshot s.validRevisions.length] s₃
          ((x.call (s.callEmits env c)).op
            (.revertToSnapshot s.validRevisions.length)) List.nil_prefix
          (by simp [runEmitting, hrevert])
        have hplace : x.marks.length = s.validRevisions.length := by
          rw [hn.marks, List.length_map]
        have hlive : ((x.call (s.callEmits env c)).op
            (.revertToSnapshot s.validRevisions.length)).events = x.events := by
          simp [Emissions.op, Emissions.revert, Emissions.call, Emissions.snapshot,
            Emissions.events, ← hplace]
        refine (eventsComeThrough_iff hcall).mpr ⟨?_, ?_⟩
        · rw [← hcollected, hback, hlive, hbefore]
        · rw [hafter, hbefore]
          simp [Emissions.call, Emissions.events]
      · cases hrun

/-- **Events under reverts.** After every part of a run `Commit` adds the events of the calls in
effect, once and in order, then those of balances it writes, of which there are none in the end, if
and only if every call comes through and the balances are written then. -/
theorem commit_events_iff {as : List (Action Ω)} {s : StateDB Ω} {x : Emissions}
    (hrun : (StateDB.new ctx tx).runEmitting env .empty as = some (s, x))
    (hcommit : (s.commit env).1 = none) :
    ((∀ pre ops s x, pre <+: as →
      (StateDB.new ctx tx).runEmitting env .empty (pre ++ List.map Action.op ops) = some (s, x) →
      (s.commit env).2.events = ctx.events ++ x.events ++ s.commitWithCtxEvents env s.cacheStore) ∧
      (s.commit env).2.events = ctx.events ++ x.events) ↔
    (StateDB.new ctx tx).forCalls env (EventsComeThrough env) as ∧ s.BalancesWritten env := by
  have hnew : Moves env (StateDB.new ctx tx) (StateDB.new ctx tx) := .refl
  have hwritten := StateDB.commitWithCtxEvents_eq_nil_iff hcommit
  constructor
  · rintro ⟨hexact, hnothing⟩
    refine ⟨forCalls_of_exact hnew numbered_new hrun fun pre ops s' x' hpre hpart => ?_, ?_⟩
    · have hevents := hexact pre ops s' x' hpre hpart
      rw [StateDB.commit_events, (run_moves (StateDB.run_of_runEmitting hpart)).ctx] at hevents
      exact List.append_cancel_left (List.append_cancel_right hevents)
    · have hevents := hexact as [] s x List.prefix_rfl (by simpa using hrun)
      rw [hnothing] at hevents
      exact hwritten.mp (List.self_eq_append_right.mp hevents)
  · rintro ⟨hcome, hbalances⟩
    have hexact : ∀ pre ops s x, pre <+: as →
        (StateDB.new ctx tx).runEmitting env .empty (pre ++ List.map Action.op ops) =
          some (s, x) → (s.commit env).2.events =
            ctx.events ++ x.events ++ s.commitWithCtxEvents env s.cacheStore := by
      intro pre ops s' x' hpre hpart
      obtain ⟨hs', hf⟩ := runEmitting_faithful hnew numbered_new faithful_new hpart
        (StateDB.forCalls_then_ops hcome hpre ops)
      rw [StateDB.commit_events, hs'.reached.sameCtx, hf.emitted]
    refine ⟨hexact, ?_⟩
    rw [hexact as [] s x List.prefix_rfl (by simpa using hrun), hwritten.mpr hbalances,
      List.append_nil]

end

namespace Devnet

def received : Event := { kind := "coin_received", attributes := [("amount", "5utac")] }

/-- A handler that emits an event. -/
def emitting : Handler Unit := fun _ st =>
  { store := st, events := [received], logs := [], cost := 0, result := .ok [] }

def emittingCall : Action Unit := .call ⟨.call, precompile emitting, frame 0xA1 [0, 0, 0, 1]⟩

/-- Of two calls the second is reverted. -/
def oneInEffect : List (Action Unit) :=
  [emittingCall, .op .snapshot, emittingCall, .op (.revertToSnapshot 1)]

end Devnet

open Devnet

/-- On the small chain: of two calls the second is reverted. -/
theorem commit_events_iff_devnet :
    ∃ r, accountsState.runEmitting env6 .empty oneInEffect = some r ∧
      r.2.events = [received] ∧ (r.1.commit env6).1 = none ∧
      (((∀ pre ops s x, pre <+: oneInEffect →
        accountsState.runEmitting env6 .empty (pre ++ List.map Action.op ops) = some (s, x) →
        (s.commit env6).2.events = [] ++ x.events ++ s.commitWithCtxEvents env6 s.cacheStore) ∧
        (r.1.commit env6).2.events = [] ++ r.2.events) ↔
      accountsState.forCalls
        env6 (EventsComeThrough env6) oneInEffect ∧
        r.1.BalancesWritten env6) := by
  obtain ⟨r, hrun, hevents, hcommit⟩ : ∃ r,
      accountsState.runEmitting
        env6 .empty oneInEffect = some r ∧ r.2.events = [received] ∧ (r.1.commit env6).1 = none :=
    exists_of_any (by decide +kernel)
  exact ⟨r, hrun, hevents, hcommit, commit_events_iff hrun hcommit⟩

/-- **Events that are lost**: a call is reverted and made again. -/
theorem events_lost :
    ∃ r, accountsState.runEmitting
        env6 .empty [.op .snapshot, emittingCall,
          .op (.revertToSnapshot 0), emittingCall] = some r ∧
      r.2.events = [received] ∧
      (r.1.commit env6).1 = none ∧
      (r.1.commit env6).2.events = [] :=
  exists_of_any (by decide +kernel)

end TacEvm
