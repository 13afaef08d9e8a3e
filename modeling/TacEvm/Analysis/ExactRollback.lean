import TacEvm.Analysis.Invariants
import TacEvm.Analysis.Readings
import TacEvm.Model.Devnet

/-!
# Reverting restores everything that can be read

`RevertToSnapshot` gives back every reading of the state and the cache context of the snapshot. The
rollback argument runs on pairs of an observation and a store; a call that fails before it journals
is not covered.
-/

namespace TacEvm

open Rollback StateDB JournalEntry Relation.ReflTransGen Devnet

variable {Ω : Type} (env : Env)

/-! ## Observation and store together -/

/-- The observation and the contents of the cache context. -/
def StateDB.observeBoth (s : StateDB Ω) : Observation × Store Ω := (s.observe env, s.cacheStore)

/-- What reverting an entry does to both. -/
def undoBoth (st : Store Ω) (entry : JournalEntry Ω) (x : Observation × Store Ω) :
    Option (Observation × Store Ω) :=
  (undoObservation env st entry x.1).map fun w => (w, entry.restore x.2)

def StateDB.tapeBoth (s : StateDB Ω) : Tape (Observation × Store Ω) (JournalEntry Ω) :=
  { s.tape env with obs := s.observeBoth env }

/-- Any extension that can be undone. -/
def AnyExtension (_ : Observation × Store Ω) (_ _ : List (JournalEntry Ω))
    (_ : Observation × Store Ω) : Prop := True

variable {env}

theorem rollback_undoBoth (st : Store Ω) (es : List (JournalEntry Ω)) (w : Observation)
    (c : Store Ω) :
    rollback (undoBoth env st) es (w, c) =
      (rollback (undoObservation env st) es w).map fun w =>
        (w, es.foldr restore c) := by
  induction es with
  | nil => rfl
  | cons e es ih =>
    rw [rollback, ih, rollback]
    cases rollback (undoObservation env st) es w with
    | none => rfl
    | some v => rfl

variable {es : List (JournalEntry Ω)}

theorem foldr_restore (h : ∀ e ∈ es, e.isCall = false) (c : Store Ω) : es.foldr restore c = c := by
  induction es with
  | nil => rfl
  | cons e es ih =>
    rw [List.foldr_cons, ih fun e' he' => h e' (List.mem_cons_of_mem _ he')]
    exact restore_of_not_isCall (h e List.mem_cons_self) c

namespace StateDB

variable {s s' : StateDB Ω}

theorem cacheStore_eq (hctx : s'.ctx = s.ctx) (hcache : s'.cacheCtx = s.cacheCtx) :
    s'.cacheStore = s.cacheStore := by
  simp only [cacheStore, cacheContext, hctx, hcache]

theorem writeCache_store (s : StateDB Ω) : s.writeCache.store = s.cacheStore := by
  unfold writeCache cacheStore cacheContext
  cases s.cacheCtx <;> rfl

theorem applyHandlerOutput_cacheStore (env : Env) (s : StateDB Ω)
    (out : HandlerOutput Ω) : (s.applyHandlerOutput out).cacheStore = out.store := by
  have hsame := (addLogs_steps env
    { s with
      cacheCtx := some { s.cacheContext with
        store := out.store, events := s.cacheContext.events ++ out.events } }
    out.logs).sameControl
  exact cacheStore_eq hsame.ctx hsame.cacheCtx

theorem cacheStore_revert {entry : JournalEntry Ω} (h : entry.revert env s = some s') :
    s'.cacheStore = entry.restore s.cacheStore := by
  cases hcall : entry.isCall with
  | false =>
    rw [restore_of_not_isCall hcall]
    exact cacheStore_eq (revert_sameRun h).ctx (revert_cacheCtx hcall h)
  | true =>
    cases entry with
    | precompileCallChange multiStore events =>
      cases h
      rfl
    | _ => cases hcall

theorem observeBoth_revertEntry (s : StateDB Ω) (entry : JournalEntry Ω) :
    (revertEntry env entry s).map (observeBoth env) =
      undoBoth env s.ctx.store entry (s.observeBoth env) := by
  have hobs := observe_revert env s entry
  unfold undoBoth observeBoth revertEntry
  rw [← hobs]
  cases hrev : entry.revert env s with
  | none => rfl
  | some s' =>
    rw [← cacheStore_revert hrev]
    rfl

theorem observeBoth_rollback (s : StateDB Ω) (es : List (JournalEntry Ω)) :
    (rollback (revertEntry env) es s).map (observeBoth env) =
      rollback (undoBoth env s.ctx.store) es (s.observeBoth env) := by
  refine (rollback_map (SameRun s) (observeBoth env) ?_ ?_ es (SameRun.refl s)).1
  · intro entry s₁ s₂ hkept hrevert
    exact hkept.trans (revertEntry_sameRun hrevert)
  · intro entry s₁ hkept
    rw [observeBoth_revertEntry, hkept.ctx]

theorem rollback_objects {es : List (JournalEntry Ω)}
    (h : rollback (revertEntry env) es s = some s') :
    s'.object env = es.foldr (undoObjects (loadedObject env s.ctx.store)) (s.object env) ∧
      s'.cacheStore = es.foldr restore s.cacheStore := by
  induction es generalizing s' with
  | nil =>
    cases h
    exact ⟨rfl, rfl⟩
  | cons e es ih =>
    obtain ⟨s₁, hroll, hrevert⟩ := Option.bind_eq_some_iff.mp h
    obtain ⟨s₂, hrevert', rfl⟩ := Option.map_eq_some_iff.mp hrevert
    have hctx : s₁.ctx = s.ctx := ((observe_rollback s es).2 s₁ hroll).ctx
    obtain ⟨hobjects, hstore⟩ := ih hroll
    have hobject := object_revert hrevert'
    have hrestore := cacheStore_revert hrevert'
    rw [hctx, hobjects] at hobject
    rw [hstore] at hrestore
    exact ⟨hobject, hrestore⟩

end StateDB

/-! ## Operations and completed calls as steps of the tape -/

variable {s s' : StateDB Ω}

theorem Steps.extension (h : Steps env s s') (hal : s.accessList.WellFormed) :
    ∃ es, s'.journal.entries = s.journal.entries ++ es ∧
      rollback (undoObservation env s.ctx.store) es (s'.observe env) = some (s.observe env) ∧
      (∀ e ∈ es, e.isCall = false) ∧ s'.accessList.WellFormed := by
  induction h with
  | refl => exact ⟨[], by simp, rfl, by simp, hal⟩
  | @tail s₁ s₂ hsteps hstep ih =>
    obtain ⟨es, hentries, hroll, hrestore, hal₁⟩ := ih
    obtain ⟨fs, hentries', hchange, hrestore'⟩ := hstep.change
    have hctx : s₁.ctx = s.ctx := (Steps.sameControl hsteps).ctx
    rw [hctx] at hchange
    refine ⟨es ++ fs, ?_, rollback_trans hroll (hchange.rollback hal₁), ?_,
      hchange.accessList_wellFormed hal₁⟩
    · rw [hentries', hentries, List.append_assoc]
    · intro e he
      rcases List.mem_append.mp he with he | he
      · exact hrestore e he
      · exact hrestore' e he

theorem tapeBoth_extend (hentries : s'.journal.entries = s.journal.entries ++ es)
    (hrev : s'.validRevisions = s.validRevisions) (hnext : s'.nextRevisionID = s.nextRevisionID)
    (hroll : rollback (undoBoth env s.ctx.store) es (s'.observeBoth env) =
      some (s.observeBoth env)) :
    Step (undoBoth env s.ctx.store) AnyExtension (s.tapeBoth env) (s'.tapeBoth env) := by
  have htape : s'.tapeBoth env =
      { s.tapeBoth env with obs := s'.observeBoth env, log := (s.tapeBoth env).log ++ es } := by
    simp only [tapeBoth, tape, hentries, hrev, hnext]
  rw [htape]
  exact .extend es _ trivial hroll

theorem Steps.tapeBoth (h : Steps env s s') (hal : s.accessList.WellFormed) :
    Step (undoBoth env s.ctx.store) AnyExtension (s.tapeBoth env) (s'.tapeBoth env) := by
  obtain ⟨es, hentries, hroll, hrestore, -⟩ := h.extension hal
  have hcontrol := h.sameControl
  apply tapeBoth_extend hentries hcontrol.validRevisions hcontrol.nextRevisionID
  rw [observeBoth, rollback_undoBoth, hroll, Option.map_some, foldr_restore hrestore,
    cacheStore_eq hcontrol.ctx hcontrol.cacheCtx]
  rfl

theorem snapshot_tapeBoth (s : StateDB Ω) :
    s.snapshot.2.tapeBoth env =
      { s.tapeBoth env with
        marks := (s.tapeBoth env).marks ++ [((s.tapeBoth env).next, (s.tapeBoth env).log.length)]
        next := (s.tapeBoth env).next + 1 } := by
  simp only [tapeBoth, tape, snapshot, List.map_append, List.map_cons, List.map_nil]
  rfl

theorem revertToSnapshot_tapeBoth {revid : ℕ} (h : s.revertToSnapshot env revid = some s') :
    Step (undoBoth env s.ctx.store) AnyExtension (s.tapeBoth env) (s'.tapeBoth env) := by
  obtain ⟨idx, r, s₁, hr, -, hroll, rfl⟩ := revertToSnapshot_cases h
  have hboth := @StateDB.observeBoth_rollback Ω env s (s.journal.entries.drop r.journalIndex)
  have hkept := (@StateDB.observe_rollback Ω env s _).2 s₁ hroll
  rw [hroll, Option.map_some] at hboth
  have hmark : (s.tapeBoth env).marks[idx]? = some (r.id, r.journalIndex) := by
    simp [tapeBoth, tape, hr]
  have hstep := Step.revert (R := AnyExtension) (t := s.tapeBoth env) idx _
    (s₁.observeBoth env) hmark hboth.symm
  simpa [tapeBoth, tape, observeBoth, observe, object,
    cacheStore, cacheContext, List.map_take, hkept.nextRevisionID] using hstep

/-- **A completed call can be undone**, its store by its last entry. -/
theorem runPrecompile_tapeBoth {p : Precompile Ω} {c : Frame} {entries : BalanceChanges}
    (hok : (s.runBody env p c).1 = .ok entries) (hal : s.accessList.WellFormed) :
    Step (undoBoth env s.ctx.store) AnyExtension (s.tapeBoth env)
      ((s.runPrecompile env p c).2.tapeBoth env) := by
  obtain ⟨cache, hbody⟩ := s.runBody_steps env p c
  unfold runPrecompile
  generalize s.runBody env p c = r at hok hbody
  obtain ⟨result, s₁⟩ := r
  subst hok
  obtain ⟨s₂, hmake, hjournal, -⟩ :=
    (entries.foldl (applyBalanceChange env) s₁).addPrecompileFn_steps env p.address
      s.cacheContext.store s.cacheContext.events
  have hsteps : Steps env (s.withCache cache) s₂ :=
    hbody.trans ((s₁.applyBalanceChanges_steps env entries).trans hmake)
  obtain ⟨es, hentries, hroll, hrestore, -⟩ := hsteps.extension hal
  have hcontrol := hsteps.sameControl
  have hroll' : rollback (undoObservation env s.ctx.store) es (s₂.observe env) =
      some (s.observe env) := hroll
  have hcall : rollback (undoObservation env s.ctx.store)
      [.precompileCallChange s.cacheContext.store s.cacheContext.events] (s₂.observe env) =
      some (s₂.observe env) := rfl
  have hall : (s₂.journalCall s.cacheContext.store s.cacheContext.events).journal.entries =
      s.journal.entries ++
        (es ++ [.precompileCallChange s.cacheContext.store s.cacheContext.events]) := by
    simp only [journalCall, entries_append, hentries, List.append_assoc]
    rfl
  have hobs : (s₂.journalCall s.cacheContext.store s.cacheContext.events).observe env =
      s₂.observe env := rfl
  dsimp only [addJournalEntries]
  rw [hjournal]
  apply tapeBoth_extend hall hcontrol.validRevisions hcontrol.nextRevisionID
  rw [observeBoth, rollback_undoBoth, hobs, rollback_trans hroll' hcall, Option.map_some,
    List.foldr_append, foldr_restore hrestore]
  rfl

/-! ## Runs of completed calls -/

variable (env)

/-- Whether a call reaches `AddJournalEntries`. -/
def StateDB.callCompletes (s : StateDB Ω) (call : PrecompileCall Ω) : Bool :=
  match s.canTransfer env call with
  | (false, _) => false
  | (true, s) =>
    match (s.snapshot.2.enterCall env call).runBody env call.precompile call.frame with
    | (.ok _, _) => true
    | (.error _, _) => false

/-- A run in which every call completes. -/
def StateDB.runCompleted (s : StateDB Ω) : List (Action Ω) → Option (StateDB Ω)
  | [] => some s
  | .op o :: as => (o.step env s).bind fun s => s.runCompleted as
  | .call c :: as =>
    if s.callCompletes env c then
      ((Action.call c).step env s).bind fun s => s.runCompleted as
    else none

variable {env}

/-- The steps of the tape of states over `st`. -/
def TapeSteps (env : Env) (st : Store Ω) :
    Tape (Observation × Store Ω) (JournalEntry Ω) → Tape (Observation × Store Ω) (JournalEntry Ω) →
      Prop :=
  Relation.ReflTransGen (Step (undoBoth env st) AnyExtension)

variable {ctx : Context Ω} {tx : TxConfig}

/-- A call that completes extends the tape with its store. -/
theorem callPrecompile_tapeBoth {call : PrecompileCall Ω} (hreach : Moves env (new ctx tx) s)
    (hcomplete : s.callCompletes env call = true) (h : (Action.call call).step env s = some s') :
    TapeSteps env ctx.store (s.tapeBoth env) (s'.tapeBoth env) := by
  have hctx := hreach.reached.sameCtx
  have hal := hreach.reached.accessList
  obtain ⟨⟨err, s'⟩, hcall, rfl⟩ := Option.map_eq_some_iff.mp h
  have hcan := s.canTransfer_steps env call
  unfold callCompletes at hcomplete
  unfold callPrecompile at hcall
  generalize s.canTransfer env call = r at hcan hcall hcomplete
  obtain ⟨enough, s₁⟩ := r
  cases enough with
  | false => cases hcomplete
  | true =>
    dsimp only at hcan hcall hcomplete
    set s₂ := s₁.snapshot.2.enterCall env call with hs₂
    have henter : Steps env s₁.snapshot.2 s₂ := s₁.snapshot.2.enterCall_steps env call
    obtain ⟨-, -, -, -, hal₁⟩ := hcan.extension hal
    obtain ⟨-, -, -, -, hal₂⟩ := henter.extension hal₁
    have hctx₁ : s₁.ctx = ctx := hcan.sameControl.ctx.trans hctx
    have hctx₂ : s₂.ctx = ctx := henter.sameControl.ctx.trans hctx₁
    have hbody : ∃ entries, (s₂.runBody env call.precompile call.frame).1 = .ok entries := by
      cases hrun : (s₂.runBody env call.precompile call.frame).1 with
      | ok entries => exact ⟨entries, rfl⟩
      | error e =>
        generalize s₂.runBody env call.precompile call.frame = q at hrun hcomplete
        obtain ⟨result, s₃⟩ := q
        subst hrun
        cases hcomplete
    obtain ⟨entries, hok⟩ := hbody
    -- the value check, the snapshot, the entry of the call, `Run`
    have t₁ := hcan.tapeBoth hal
    have t₃ := henter.tapeBoth hal₁
    have t₄ := runPrecompile_tapeBoth hok hal₂
    rw [hctx] at t₁
    rw [show s₁.snapshot.2.ctx = ctx from hctx₁] at t₃
    rw [hctx₂] at t₄
    have t₂ : Step (undoBoth env ctx.store) AnyExtension (s₁.tapeBoth env)
        (s₁.snapshot.2.tapeBoth env) := by
      rw [snapshot_tapeBoth]
      exact .mark
    have t := (((single t₁).tail t₂).tail t₃).tail t₄
    have hctx₄ : (s₂.runPrecompile env call.precompile call.frame).2.ctx = s₂.ctx :=
      (runPrecompile_moves s₂ call.precompile call.frame).ctx
    generalize s₂.runPrecompile env call.precompile call.frame = q at hcall t hctx₄
    obtain ⟨e, s₄⟩ := q
    cases e with
    | none =>
      cases hcall
      exact t
    | some e =>
      obtain ⟨s₅, hrevert, heq⟩ := Option.map_eq_some_iff.mp hcall
      cases heq
      have t₅ := revertToSnapshot_tapeBoth hrevert
      rw [show s₄.ctx = ctx from hctx₄.trans hctx₂] at t₅
      exact t.tail t₅

theorem Op.tapeBoth {o : Op} (hreach : Moves env (new ctx tx) s) (h : o.step env s = some s') :
    Step (undoBoth env ctx.store) AnyExtension (s.tapeBoth env) (s'.tapeBoth env) := by
  have hctx := hreach.reached.sameCtx
  have hal := hreach.reached.accessList
  rw [← hctx]
  cases o with
  | read r =>
    cases h
    exact (Read.steps s r).tapeBoth hal
  | write w => exact (Write.steps h).tapeBoth hal
  | snapshot =>
    cases h
    rw [snapshot_tapeBoth]
    exact .mark
  | revertToSnapshot place =>
    obtain ⟨r, -, hrevert⟩ := Option.bind_eq_some_iff.mp h
    exact revertToSnapshot_tapeBoth hrevert

/-- A completed run extends the tape. -/
theorem runCompleted_tapeBoth {as : List (Action Ω)} (hreach : Moves env (new ctx tx) s)
    (h : s.runCompleted env as = some s') :
    TapeSteps env ctx.store (s.tapeBoth env) (s'.tapeBoth env) ∧ Moves env (new ctx tx) s' := by
  induction as generalizing s with
  | nil =>
    cases h
    exact ⟨refl, hreach⟩
  | cons a as ih =>
    cases a with
    | op o =>
      obtain ⟨s₁, hstep, hrest⟩ := Option.bind_eq_some_iff.mp h
      obtain ⟨hsteps, hreach'⟩ := ih (hreach.trans (Op.moves hstep)) hrest
      exact ⟨head (Op.tapeBoth hreach hstep) hsteps, hreach'⟩
    | call c =>
      simp only [runCompleted] at h
      split at h
      · rename_i hcomplete
        obtain ⟨s₁, hstep, hrest⟩ := Option.bind_eq_some_iff.mp h
        obtain ⟨hsteps, hreach'⟩ := ih (hreach.trans (Action.moves hstep)) hrest
        exact ⟨trans (callPrecompile_tapeBoth hreach hcomplete hstep) hsteps, hreach'⟩
      · cases h

/-- **Exact rollback.** After operations and completed calls, `RevertToSnapshot` restores every
reading and the cache context. -/
theorem revertToSnapshot_restores {ctx : Context Ω} {tx : TxConfig} {s s' : StateDB Ω}
    {before after : List (Action Ω)} (hbefore : (StateDB.new ctx tx).run env before = some s)
    (hafter : s.snapshot.2.runCompleted env after = some s')
    (hvalid : ∃ r ∈ s'.validRevisions, r.id = s.snapshot.1) :
    ∃ s'', s'.revertToSnapshot env s.snapshot.1 = some s'' ∧
      s''.readings env = s.readings env ∧ s''.cacheStore = s.cacheStore := by
  have hreach := run_moves hbefore
  have ho := hreach.reached.ordered
  obtain ⟨hsteps, hreach'⟩ :=
    runCompleted_tapeBoth (hreach.tail .snapshot) hafter
  have hctx' := hreach'.reached.sameCtx
  have ho' := hreach'.reached.ordered
  rw [snapshot_tapeBoth] at hsteps
  have hordered : Ordered (s.tapeBoth env) := ⟨ho.sorted, ho.fresh, ho.within⟩
  have hkept := (kept_of_steps hordered hsteps).2
  obtain ⟨r, hr, hid⟩ := hvalid
  have hmark : ((s.tapeBoth env).next, r.journalIndex) ∈ (s'.tapeBoth env).marks := by
    have hmem : (r.id, r.journalIndex) ∈ (s'.tapeBoth env).marks :=
      List.mem_map_of_mem hr
    rw [hid] at hmem
    exact hmem
  obtain ⟨-, -, hroll⟩ := hkept r.journalIndex hmark
  -- the journal can be reverted down to the snapshot, and what comes back is the pair
  have hboth := @StateDB.observeBoth_rollback Ω env s' (s'.journal.entries.drop r.journalIndex)
  rw [hctx'] at hboth
  have hraw := hboth.trans hroll
  obtain ⟨s₁, hs₁, hback⟩ := Option.map_eq_some_iff.mp hraw
  obtain ⟨idx, hrevert⟩ := revertToSnapshot_of_mem ho' hr hs₁
  rw [hid] at hrevert
  refine ⟨_, hrevert, ?_, congrArg Prod.snd hback⟩
  rw [StateDB.readings_eq, StateDB.readings_eq]
  exact congrArg (Observation.readings env) (congrArg Prod.fst hback)

/-- Actions of the small chain that touch every part of the state. -/
def Devnet.busyActions : List (Action Unit) :=
  [.op (.write (.addBalance 0xA1 5000000000000)), .op (.write (.setState 0xA1 1 2)),
    .call ⟨.call, precompile spend, frame 0xA1 [0, 0, 0, 1]⟩,
    .op (.write (.createAccount 0xA1)), .op (.write (.suicide 0xA1))]

/-- An account is made, paid and destroyed, a precompile called. -/
theorem revertToSnapshot_restores_devnet :
    ∃ s', (StateDB.new (Devnet.ctx (emptyStore ())) txConfig).snapshot.2.runCompleted
        env6 busyActions = some s' ∧
      ∃ s'', s'.revertToSnapshot env6 0 = some s'' ∧
        s''.readings env6 = (StateDB.new (Devnet.ctx (emptyStore ())) txConfig).readings env6 ∧
        s''.cacheStore = emptyStore () := by
  set env := env6 with henv
  set s := StateDB.new (Devnet.ctx (emptyStore ())) txConfig with hs
  have hbefore : s.run env [] = some s := rfl
  have hrevisions : (s.snapshot.2.runCompleted env busyActions).map
      (fun s' => s'.validRevisions.map (·.id)) = some [0, 1] := by decide
  obtain ⟨s', hafter, hids⟩ := Option.map_eq_some_iff.mp hrevisions
  have hvalid : ∃ r ∈ s'.validRevisions, r.id = s.snapshot.1 := by
    have hmem : (0 : ℕ) ∈ s'.validRevisions.map (·.id) := by simp [hids]
    exact List.mem_map.mp hmem
  exact ⟨s', hafter, revertToSnapshot_restores hbefore hafter hvalid⟩

end TacEvm
