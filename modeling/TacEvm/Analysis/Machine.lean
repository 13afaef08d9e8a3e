import TacEvm.Analysis.Elementary

/-!
# The journaled machine behind the `StateDB`

`Change` is the abstract machine the `StateDB` implements: one change of an observation together
with the entries that record it (`Elementary.change`), which take it back (`Change.rollback`). A
whole `StateDB` moves as a `Rollback.Tape` (`Move.step`).
-/

namespace TacEvm

open Rollback StateDB Observation JournalEntry Relation.ReflTransGen

section

variable {Ω : Type} (env : Env) (st : Store Ω)

/-- The view of an account that was just created. -/
def freshView (addr : Address) : ObjectView :=
  (newObject (newEmptyAccount env)).view env st addr

/-- One change of an observation, with the entries it journals. -/
inductive Change : Observation → List (JournalEntry Ω) → Observation → Prop
  | silent (w : Observation) : Change w [] w
  | create {w : Observation} {addr : Address} (hobj : w.objects addr = none)
      (hload : loadedView env st addr = none) :
      Change w [.createObjectChange addr] (w.setObject addr (some (freshView env st addr)))
  | reset {w : Observation} {addr : Address} {prev : StateObject}
      (hobj : w.objects addr = some (prev.view env st addr)) :
      Change w [.resetObjectChange addr prev]
        (w.setObject addr (some ((freshView env st addr).setBalance prev.account.balance)))
  | balance {w : Observation} {addr : Address} {v : ObjectView} (amount : ℤ)
      (hobj : w.objects addr = some v)
      (hdvd : (env.conversionFactor : ℤ) ∣ amount - v.balance) :
      Change w [.balanceChange addr v.balance] (w.setObject addr (some (v.setBalance amount)))
  | nonce {w : Observation} {addr : Address} {v : ObjectView} (nonce : UInt64)
      (hobj : w.objects addr = some v) :
      Change w [.nonceChange addr v.nonce] (w.setObject addr (some (v.setNonce nonce)))
  | code {w : Observation} {addr : Address} {v : ObjectView} (code : Option Bytes)
      (hobj : w.objects addr = some v)
      (hcode : v = v.setCode env st v.codeHash v.code) :
      Change w [.codeChange addr v.code v.codeHash]
        (w.setObject addr (some (v.setCode env st (env.keccak256 (code.getD [])) code)))
  | storage {w : Observation} {addr : Address} {v : ObjectView} (key value : Hash)
      (hobj : w.objects addr = some v) :
      Change w [.storageChange addr key (v.state key)]
        (w.setObject addr (some (v.setState key value)))
  | suicide {w : Observation} {addr : Address} {v : ObjectView}
      (hobj : w.objects addr = some v) :
      Change w [.suicideChange addr v.suicided v.balance]
        (w.setObject addr (some { v.setBalance 0 with suicided := true }))
  | refund {w : Observation} (refund : UInt64) :
      Change w [.refundChange w.refund] { w with refund := refund }
  | log {w : Observation} (log : Log) :
      Change w [.addLogChange] { w with logs := w.logs ++ [log] }
  | accessAddress {w : Observation} {addr : Address}
      (habsent : w.accessList.addresses addr = none) :
      Change w [.accessListAddAccountChange addr]
        { w with accessList := w.accessList.setAddress addr (some none) }
  | accessSlot {w : Observation} {addr : Address} {slot : Hash} {al : AccessList}
      (hadd : w.accessList.addSlot addr slot = some (al, false, true)) :
      Change w [.accessListAddSlotChange addr slot] { w with accessList := al }
  | call {w : Observation} (cms : Store Ω) (events : List Event) :
      Change w [.precompileCallChange cms events] w

end

/-! ## Changes are taken back by their entries -/

namespace Observation

theorem setObject_setObject (w : Observation) (addr : Address) (v v' : Option ObjectView) :
    (w.setObject addr v).setObject addr v' = w.setObject addr v' := by
  simp [setObject]

variable {w : Observation} {addr : Address}

theorem setObject_self {v : Option ObjectView} (h : w.objects addr = v) :
    w.setObject addr v = w := by
  subst h
  simp [setObject]

theorem modifyObject_setObject {v v' : ObjectView} {f : ObjectView → ObjectView}
    (hobj : w.objects addr = some v) (hf : f v' = v) :
    (w.setObject addr (some v')).modifyObject addr f = some w := by
  have hget : (w.setObject addr (some v')).objects addr = some v' := by simp [setObject]
  unfold modifyObject
  rw [hget]
  simp only [setObject_setObject, hf, setObject_self hobj]

end Observation

variable {Ω : Type} {env : Env} {st : Store Ω}

theorem ObjectView.setState_setState (v : ObjectView) (key value : Hash) :
    (v.setState key value).setState key (v.state key) = v := by
  simp [ObjectView.setState]

variable {es : List (JournalEntry Ω)}

variable {w w' : Observation}

/-- **The entries of a change take it back.** -/
theorem Change.rollback (h : Change env st w es w') (hal : w.accessList.WellFormed) :
    rollback (undoObservation env st) es w' = some w := by
  cases h with
  | silent => rfl
  | create hobj hload =>
    simp only [Rollback.rollback, Option.bind_some, undoObservation,
      setObject_setObject, hload, setObject_self hobj]
  | reset hobj =>
    simp only [Rollback.rollback, Option.bind_some, undoObservation,
      setObject_setObject, setObject_self hobj]
  | balance amount hobj hdvd => exact modifyObject_setObject hobj rfl
  | nonce nonce hobj => exact modifyObject_setObject hobj rfl
  | code code hobj hcode => exact modifyObject_setObject hobj hcode.symm
  | storage key value hobj =>
    exact modifyObject_setObject hobj (ObjectView.setState_setState _ _ _)
  | suicide hobj =>
    simp only [Rollback.rollback, Option.bind_some, undoObservation, setObject,
      Function.update_self, Function.update_idem]
    exact congrArg some (setObject_self hobj)
  | refund refund => rfl
  | log log => simp [Rollback.rollback, undoObservation]
  | accessAddress habsent =>
    simp only [Rollback.rollback, Option.bind_some, undoObservation,
      AccessList.deleteAddress_setAddress habsent]
  | @accessSlot addr slot al hadd =>
    have hdelete : al.deleteSlot addr slot = some w.accessList := by
      obtain heq | ⟨-, heq⟩ | ⟨haddr, heq⟩ | ⟨idx, slotmap, haddr, hget, hmem, heq⟩ :=
        AccessList.addSlot_cases hal addr slot
      all_goals
        rw [heq] at hadd
        cases hadd
      · rw [AccessList.deleteSlot_openSlots, AccessList.setAddress_self haddr]
      · exact AccessList.deleteSlot_insert hal haddr hget hmem
    simp only [Rollback.rollback, Option.bind_some, undoObservation, hdelete, Option.map_some]
  | call cms events => rfl

theorem Change.accessList_wellFormed (h : Change env st w es w') (hal : w.accessList.WellFormed) :
    w'.accessList.WellFormed := by
  cases h with
  | accessAddress habsent => exact hal.setAddress_none _
  | accessSlot hadd => exact hal.addSlot hadd
  | _ => exact hal

/-! ## The `StateDB` makes changes -/

theorem StateObject.view_code (env : Env) (st : Store Ω) (addr : Address) (o : StateObject) :
    o.view env st addr =
      (o.view env st addr).setCode env st o.account.codeHash (o.codeView env st) := by
  apply ObjectView.ext
  case code =>
    simp only [view, ObjectView.setCode, codeView]
    cases hcode : o.code with
    | some code => rfl
    | none =>
      by_cases hhash : o.account.codeHash = env.emptyCodeHash
      · simp [hhash]
      · simp only [hhash, if_false]
        cases st.getCode o.account.codeHash <;> rfl
  all_goals rfl

variable {s s' : StateDB Ω}

/-- **Every elementary step is observed as a change.** -/
theorem Elementary.change (h : Elementary env s s') :
    ∃ es, s'.journal.entries = s.journal.entries ++ es ∧
      Change env s.ctx.store (s.observe env) es (s'.observe env) ∧
      ∀ e ∈ es, e.isCall = false := by
  cases h with
  | load hlive hload =>
    refine ⟨[], by simp, ?_, by simp⟩
    rw [s.observe_setStateObject_of_view env (by simp [object, hlive, hload]) rfl]
    exact .silent _
  | @fill addr o o' hlive hfill =>
    have hview : o'.view env s.ctx.store addr = o.view env s.ctx.store addr := by
      rcases hfill with rfl | ⟨key, rfl⟩
      · exact o.view_loadCode env _ _
      · exact o.view_getCommittedState env _ _ _
    refine ⟨[], by simp, ?_, by simp⟩
    rw [s.observe_setStateObject_of_view env (object_of_live hlive) hview]
    exact .silent _
  | @create addr hlive hload =>
    have hobj : (s.observe env).objects addr = none := by
      simp [observe, object, hlive, hload]
    refine ⟨[.createObjectChange addr], rfl, ?_, by simp [isCall]⟩
    rw [observe_setStateObject]
    exact .create hobj (by simp [loadedView, hload])
  | @reset addr prev hlive =>
    refine ⟨[.resetObjectChange addr prev], rfl, ?_, by simp [isCall]⟩
    rw [observe_setStateObject]
    exact .reset (observe_of_live hlive)
  | @write addr o o' entry hlive hwrite =>
    have hobj : (s.observe env).objects addr = some (o.view env s.ctx.store addr) :=
      observe_of_live hlive
    refine ⟨[entry], rfl, ?_, ?_⟩
    · rw [observe_setStateObject]
      cases hwrite with
      | balance amount hdvd => exact .balance amount hobj hdvd
      | nonce nonce => exact .nonce nonce hobj
      | code code => exact .code code hobj (o.view_code env _ _)
      | storage key value hne =>
        rw [StateObject.view_setState]
        exact .storage key value hobj
      | suicide => exact .suicide hobj
    · cases hwrite <;> simp [isCall]
  | refund refund => exact ⟨_, rfl, .refund refund, by simp [isCall]⟩
  | log log => exact ⟨_, rfl, .log log, by simp [isCall]⟩
  | accessAddress habsent =>
    exact ⟨_, rfl, .accessAddress habsent, by simp [isCall]⟩
  | accessSlot hadd => exact ⟨_, rfl, .accessSlot hadd, by simp [isCall]⟩

/-- What reverting an entry leaves alone. -/
structure SameRun (s s' : StateDB Ω) : Prop where
  ctx : s'.ctx = s.ctx
  txConfig : s'.txConfig = s.txConfig
  validRevisions : s'.validRevisions = s.validRevisions
  nextRevisionID : s'.nextRevisionID = s.nextRevisionID
  entries : s'.journal.entries = s.journal.entries
  counter : s'.precompileCallsCounter = s.precompileCallsCounter

theorem SameRun.refl (s : StateDB Ω) : SameRun s s := ⟨rfl, rfl, rfl, rfl, rfl, rfl⟩

variable {s'' : StateDB Ω}

theorem SameRun.trans (h : SameRun s s') (h' : SameRun s' s'') : SameRun s s'' where
  ctx := h'.ctx.trans h.ctx
  txConfig := h'.txConfig.trans h.txConfig
  validRevisions := h'.validRevisions.trans h.validRevisions
  nextRevisionID := h'.nextRevisionID.trans h.nextRevisionID
  entries := h'.entries.trans h.entries
  counter := h'.counter.trans h.counter

namespace StateDB

variable {s s' : StateDB Ω}

variable {entry : JournalEntry Ω}

theorem revert_sameRun (h : entry.revert env s = some s') : SameRun s s' := by
  cases undone h <;> exact ⟨rfl, rfl, rfl, rfl, rfl, rfl⟩

theorem revert_cacheCtx (hcall : entry.isCall = false) (h : entry.revert env s = some s') :
    s'.cacheCtx = s.cacheCtx := by
  cases undone h
  case call cms events => cases hcall
  all_goals rfl

theorem revertEntry_sameRun (h : revertEntry env entry s = some s') : SameRun s s' := by
  obtain ⟨s₁, hrevert, rfl⟩ := Option.map_eq_some_iff.mp h
  exact (revert_sameRun hrevert).trans ⟨rfl, rfl, rfl, rfl, rfl, rfl⟩

theorem observe_revertEntry (s : StateDB Ω) (entry : JournalEntry Ω) :
    (revertEntry env entry s).map (observe env) =
      undoObservation env s.ctx.store entry (s.observe env) := by
  rw [← observe_revert env s entry, revertEntry, Option.map_map]
  rfl

theorem observe_rollback (s : StateDB Ω) (es : List (JournalEntry Ω)) :
    (rollback (revertEntry env) es s).map (observe env) =
        rollback (undoObservation env s.ctx.store) es (s.observe env) ∧
      ∀ s', rollback (revertEntry env) es s = some s' → SameRun s s' := by
  apply rollback_map (SameRun s) (observe env)
  · intro entry s₁ s₂ hkept hrevert
    exact hkept.trans (revertEntry_sameRun hrevert)
  · intro entry s₁ hkept
    rw [observe_revertEntry, hkept.ctx]
  · exact SameRun.refl s

/-- What a revert to a snapshot does. -/
theorem revertToSnapshot_cases {revid : ℕ} (h : s.revertToSnapshot env revid = some s') :
    ∃ idx r s₁, s.validRevisions[idx]? = some r ∧ r.id = revid ∧
      rollback (revertEntry env) (s.journal.entries.drop r.journalIndex) s = some s₁ ∧
      s' = { s₁ with
        validRevisions := s.validRevisions.take idx
        journal := { s₁.journal with entries := s.journal.entries.take r.journalIndex } } := by
  unfold revertToSnapshot at h
  dsimp only at h
  generalize hidx : s.validRevisions.findIdx (fun r => decide (revid ≤ r.id)) = idx at h
  cases hr : s.validRevisions[idx]? with
  | none =>
    rw [hr] at h
    cases h
  | some r =>
    rw [hr] at h
    dsimp only at h
    split at h
    · rename_i hid
      obtain ⟨s₂, hs₂, rfl⟩ := Option.map_eq_some_iff.mp h
      obtain ⟨s₁, hroll, rfl⟩ := Option.map_eq_some_iff.mp hs₂
      have hkept := (observe_rollback s _).2 s₁ hroll
      refine ⟨idx, r, s₁, hr, hid, hroll, ?_⟩
      simp only [hkept.entries, hkept.validRevisions]
    · cases h

end StateDB

/-- What happens to a `StateDB` in a run, failing calls included. -/
inductive Move (env : Env) : StateDB Ω → StateDB Ω → Prop
  | elementary {s s' : StateDB Ω} (h : Elementary env s s') : Move env s s'
  | cache {s : StateDB Ω} (cache : Option (CacheContext Ω)) : Move env s (s.withCache cache)
  | journalCall {s : StateDB Ω} (cms : Store Ω) (events : List Event) :
      Move env s (s.journalCall cms events)
  | snapshot {s : StateDB Ω} : Move env s s.snapshot.2
  | revert {s s' : StateDB Ω} (revid : ℕ) (h : s.revertToSnapshot env revid = some s') :
      Move env s s'

/-- Sequences of moves. -/
def Moves (env : Env) : StateDB Ω → StateDB Ω → Prop := Relation.ReflTransGen (Move env)

theorem Steps.moves (h : Steps env s s') : Moves env s s' := by
  induction h with
  | refl => exact .refl
  | tail _ hstep ih => exact Relation.ReflTransGen.tail ih (.elementary hstep)

theorem Moves.trans (h : Moves env s s') (h' : Moves env s' s'') : Moves env s s'' :=
  Relation.ReflTransGen.trans h h'

theorem Moves.tail (h : Moves env s s') (h' : Move env s' s'') : Moves env s s'' :=
  Relation.ReflTransGen.tail h h'

theorem Move.ctx (h : Move env s s') : s'.ctx = s.ctx := by
  cases h with
  | elementary h => exact h.sameControl.ctx
  | revert revid h =>
    obtain ⟨idx, r, s₁, -, -, hroll, rfl⟩ := revertToSnapshot_cases h
    exact ((observe_rollback s _).2 s₁ hroll).ctx
  | _ => rfl

theorem Moves.ctx (h : Moves env s s') : s'.ctx = s.ctx := by
  induction h with
  | refl => rfl
  | tail _ hmove ih => exact hmove.ctx.trans ih

theorem runPrecompile_moves (s : StateDB Ω) (p : Precompile Ω) (c : Frame) :
    Moves env s (s.runPrecompile env p c).2 := by
  obtain ⟨cache, hbody⟩ := s.runBody_steps env p c
  have hfirst : Moves env s (s.runBody env p c).2 :=
    .head (.cache cache) hbody.moves
  unfold runPrecompile
  generalize s.runBody env p c = r at hfirst
  obtain ⟨result, s₁⟩ := r
  cases result with
  | error e => exact hfirst
  | ok entries =>
    obtain ⟨s₂, hmake, hjournal, -⟩ :=
      (entries.foldl (applyBalanceChange env) s₁).addPrecompileFn_steps env p.address
        s.cacheContext.store s.cacheContext.events
    have hchanges := s₁.applyBalanceChanges_steps env entries
    dsimp only [addJournalEntries]
    rw [hjournal]
    exact ((hfirst.trans hchanges.moves).trans hmake.moves).tail (.journalCall _ _)

theorem callPrecompile_moves {call : PrecompileCall Ω} {err : Option Err}
    (h : s.callPrecompile env call = some (err, s')) : Moves env s s' := by
  have hcan := (s.canTransfer_steps env call).moves
  obtain ⟨-, -, rfl⟩ | ⟨-, s₁, hrun, hend⟩ := callPrecompile_cases h
  · exact hcan
  have hframe : Moves env s s₁ := by
    have hbody : Moves env _ _ := runPrecompile_moves
      ((s.canTransfer env call).2.snapshot.2.enterCall env call) call.precompile call.frame
    rw [hrun] at hbody
    exact ((hcan.tail .snapshot).trans (enterCall_steps env _ call).moves).trans hbody
  obtain ⟨-, rfl⟩ | ⟨-, hback⟩ := hend
  · exact hframe
  · exact hframe.tail (.revert _ hback)

theorem Op.moves {o : Op} (h : o.step env s = some s') : Moves env s s' := by
  cases o with
  | read r =>
    cases h
    exact (Read.steps s r).moves
  | write w => exact (Write.steps h).moves
  | snapshot =>
    cases h
    exact .single .snapshot
  | revertToSnapshot place =>
    obtain ⟨r, -, hrevert⟩ := Option.bind_eq_some_iff.mp h
    exact .single (.revert r.id hrevert)

theorem Action.moves {a : Action Ω} (h : a.step env s = some s') : Moves env s s' := by
  cases a with
  | op o => exact Op.moves h
  | call c =>
    obtain ⟨⟨err, s₁⟩, hcall, rfl⟩ := Option.map_eq_some_iff.mp h
    exact callPrecompile_moves hcall

theorem StateDB.run_append (s : StateDB Ω) (as bs : List (Action Ω)) :
    s.run env (as ++ bs) = (s.run env as).bind fun s' => s'.run env bs := by
  induction as generalizing s with
  | nil => rfl
  | cons a as ih =>
    simp only [List.cons_append, run, Option.bind_assoc]
    congr 1
    funext s'
    exact ih s'

/-- **Runs are made of moves.** -/
theorem run_moves {as : List (Action Ω)} (h : s.run env as = some s') : Moves env s s' := by
  induction as generalizing s with
  | nil =>
    cases h
    exact refl
  | cons a as ih =>
    obtain ⟨s₁, hstep, hrest⟩ := Option.bind_eq_some_iff.mp h
    exact (Action.moves hstep).trans (ih hrest)

/-! ## The `StateDB` as a tape -/

/-- A `StateDB` as a journaled system. -/
def StateDB.tape (env : Env) (s : StateDB Ω) : Tape Observation (JournalEntry Ω) where
  obs := s.observe env
  log := s.journal.entries
  marks := s.validRevisions.map fun r => (r.id, r.journalIndex)
  next := s.nextRevisionID

/-- The extensions of the tape of a state over `st`. -/
def Extension (env : Env) (st : Store Ω) (v : Observation) (_ : List (JournalEntry Ω))
    (es : List (JournalEntry Ω)) (w : Observation) : Prop :=
  Change env st v es w

theorem tape_extend (hentries : s'.journal.entries = s.journal.entries ++ es)
    (hrev : s'.validRevisions = s.validRevisions) (hnext : s'.nextRevisionID = s.nextRevisionID)
    (hchange : Change env s.ctx.store (s.observe env) es (s'.observe env))
    (hal : s.accessList.WellFormed) :
    Step (undoObservation env s.ctx.store) (Extension env s.ctx.store) (s.tape env)
      (s'.tape env) := by
  have htape : s'.tape env =
      { s.tape env with obs := s'.observe env, log := (s.tape env).log ++ es } := by
    simp only [tape, hentries, hrev, hnext]
  rw [htape]
  exact .extend es _ hchange (hchange.rollback hal)

theorem snapshot_tape (s : StateDB Ω) :
    s.snapshot.2.tape env =
      { s.tape env with
        marks := (s.tape env).marks ++ [((s.tape env).next, (s.tape env).log.length)]
        next := (s.tape env).next + 1 } := by
  simp only [tape, snapshot, List.map_append, List.map_cons, List.map_nil]
  rfl

/-- **A `StateDB` moves as a tape.** -/
theorem Move.step (h : Move env s s') (hal : s.accessList.WellFormed) :
    Step (undoObservation env s.ctx.store) (Extension env s.ctx.store) (s.tape env)
      (s'.tape env) := by
  cases h with
  | elementary h =>
    obtain ⟨es, hentries, hchange, -⟩ := h.change
    have hcontrol := h.sameControl
    exact tape_extend hentries hcontrol.validRevisions hcontrol.nextRevisionID hchange hal
  | cache cache =>
    have hentries : (s.withCache cache).journal.entries = s.journal.entries ++ [] := by
      simp [withCache]
    exact tape_extend hentries rfl rfl (.silent _) hal
  | journalCall cms events => exact tape_extend rfl rfl rfl (.call cms events) hal
  | snapshot =>
    rw [snapshot_tape]
    exact .mark
  | revert revid h =>
    obtain ⟨idx, r, s₁, hr, -, hroll, rfl⟩ := revertToSnapshot_cases h
    obtain ⟨hobs, hkept⟩ := @StateDB.observe_rollback Ω env s
      (s.journal.entries.drop r.journalIndex)
    rw [hroll, Option.map_some] at hobs
    have hmark : (s.tape env).marks[idx]? = some (r.id, r.journalIndex) := by
      simp [tape, hr]
    have hstep := Step.revert (R := Extension env s.ctx.store) (t := s.tape env) idx _
      (s₁.observe env) hmark hobs.symm
    simpa [tape, observe, object, List.map_take, (hkept s₁ hroll).nextRevisionID] using hstep

/-- The invariant `Φ` together with a well-formed access list. -/
def WithAccessList (Φ : Observation → List (JournalEntry Ω) → Prop) (w : Observation)
    (log : List (JournalEntry Ω)) : Prop :=
  w.accessList.WellFormed ∧ Φ w log

variable {Φ : Observation → List (JournalEntry Ω) → Prop}

/-- **Invariants of runs** are those of every change. -/
theorem Moves.invariant
    (hΦ : ∀ v log es w, Change env s.ctx.store v es w → Φ v log → Φ w (log ++ es))
    (ho : Ordered (s.tape env))
    (hr : Robust (undoObservation env s.ctx.store) (WithAccessList Φ) (s.tape env))
    (h : Moves env s s') :
    s'.ctx = s.ctx ∧ Ordered (s'.tape env) ∧
      Robust (undoObservation env s.ctx.store) (WithAccessList Φ) (s'.tape env) := by
  induction h with
  | refl => exact ⟨rfl, ho, hr⟩
  | @tail s₁ s₂ _ hmove ih =>
    obtain ⟨hctx, ho₁, hr₁⟩ := ih
    have hal : s₁.accessList.WellFormed := hr₁.1.1
    have hstep := hmove.step hal
    rw [hctx] at hstep
    refine ⟨hmove.ctx.trans hctx, hstep.ordered ho₁, hstep.robust ?_ ho₁ hr₁⟩
    intro v log es w hchange hv
    exact ⟨hchange.accessList_wellFormed hv.1, hΦ v log es w hchange hv.2⟩

theorem tape_new (env : Env) (ctx : Context Ω) (tx : TxConfig) :
    (new ctx tx).tape env =
      { obs := (new ctx tx).observe env, log := [], marks := [], next := 0 } := rfl

theorem observe_new (env : Env) (ctx : Context Ω) (tx : TxConfig) (addr : Address) :
    ((new ctx tx).observe env).objects addr = loadedView env ctx.store addr := by
  simp [observe, object, new, loadedView, Function.comp_def]

theorem ordered_new (env : Env) (ctx : Context Ω) (tx : TxConfig) :
    Ordered ((new ctx tx).tape env) := by
  rw [tape_new]
  exact ⟨List.Pairwise.nil, by simp, by simp⟩

variable {r : Revision}

theorem revertToSnapshot_at {i : ℕ} (ho : Ordered (s.tape env))
    (hr : s.validRevisions[i]? = some r) :
    s.revertToSnapshot env r.id = (s.revertJournal env r.journalIndex).map fun s' =>
      { s' with validRevisions := s'.validRevisions.take i } := by
  obtain ⟨hi, hri⟩ := List.getElem?_eq_some_iff.mp hr
  have hsorted := List.pairwise_map.mp ho.sorted
  have hidx : s.validRevisions.findIdx (fun q => decide (r.id ≤ q.id)) = i := by
    rw [List.findIdx_eq hi]
    refine ⟨by simp [hri], fun j hj => ?_⟩
    have hlt := (List.pairwise_iff_getElem.mp hsorted j i (by omega) hi hj).1
    rw [hri] at hlt
    simpa using hlt
  unfold revertToSnapshot
  dsimp only
  rw [hidx, hr]
  simp

theorem revertToSnapshot_of_mem {s₁ : StateDB Ω} (ho : Ordered (s.tape env))
    (hr : r ∈ s.validRevisions)
    (hroll : rollback (revertEntry env) (s.journal.entries.drop r.journalIndex) s = some s₁) :
    ∃ idx, s.revertToSnapshot env r.id = some
      { s₁ with
        validRevisions := s₁.validRevisions.take idx
        journal := { s₁.journal with entries := s₁.journal.entries.take r.journalIndex } } := by
  obtain ⟨i, hi, hri⟩ := List.getElem_of_mem hr
  have hget : s.validRevisions[i]? = some r := by rw [List.getElem?_eq_getElem hi, hri]
  refine ⟨i, ?_⟩
  rw [revertToSnapshot_at ho hget, revertJournal, hroll]
  rfl

theorem Moves.invariant_new {ctx : Context Ω} {tx : TxConfig}
    (hinit : Φ ((new ctx tx).observe env) [])
    (hΦ : ∀ v log es w, Change env ctx.store v es w → Φ v log → Φ w (log ++ es))
    (h : Moves env (new ctx tx) s) :
    s.ctx = ctx ∧ Ordered (s.tape env) ∧
      Robust (undoObservation env ctx.store) (WithAccessList Φ) (s.tape env) := by
  refine Moves.invariant hΦ (ordered_new env ctx tx) ⟨⟨?_, hinit⟩, ?_⟩ h
  · exact AccessList.wellFormed_new
  · intro m hm
    rw [tape_new] at hm
    cases hm

end TacEvm
