import TacEvm.Analysis.Alike

/-!
# Failed precompile calls

The flush into the cache context is journaled only at the very end, by `AddJournalEntries`. A call
that fails earlier leaves behind what was flushed for it and what its handler wrote, unless it
`FailsCleanly`.
-/

namespace TacEvm

open Rollback FallibleState StateDB JournalEntry Devnet

variable {Ω : Type} {env : Env}

/-! ## Steps that are taken back object by object -/

/-- The entries give back every object of `s`, and no store. -/
def Retraced (env : Env) (s s' : StateDB Ω) : Prop :=
  s'.ctx = s.ctx ∧ ∃ es, s'.journal.entries = s.journal.entries ++ es ∧
    (∀ e ∈ es, e.isCall = false) ∧
    es.foldr (undoObjects (loadedObject env s.ctx.store)) (s'.object env) = s.object env

namespace Retraced

variable {s s' s'' : StateDB Ω}

theorem refl : Retraced env s s := ⟨rfl, [], by simp, by simp, rfl⟩

theorem trans (h : Retraced env s s') (h' : Retraced env s' s'') : Retraced env s s'' := by
  obtain ⟨hctx, es, hentries, hcall, hback⟩ := h
  obtain ⟨hctx', es', hentries', hcall', hback'⟩ := h'
  refine ⟨hctx'.trans hctx, es ++ es', ?_, ?_, ?_⟩
  · rw [hentries', hentries, List.append_assoc]
  · intro e he
    rcases List.mem_append.mp he with he | he
    · exact hcall e he
    · exact hcall' e he
  · rw [hctx] at hback'
    rw [List.foldr_append, hback', hback]

theorem of_same (hctx : s'.ctx = s.ctx) (hjournal : s'.journal.entries = s.journal.entries)
    (hobjects : s'.object env = s.object env) : Retraced env s s' :=
  ⟨hctx, [], by simp [hjournal], by simp, hobjects⟩

end Retraced

variable {s s' : StateDB Ω}

theorem FrameStep.retraced (h : FrameStep env s s') : Retraced env s s' := by
  cases h with
  | @lookup a o hobj =>
    refine Retraced.of_same (s := s) rfl rfl ?_
    rw [object_setStateObject, ← hobj, Function.update_eq_self]
  | @create a hobj =>
    have hload : loadedObject env s.ctx.store a = s.object env a := by
      obtain ⟨-, hnone⟩ := object_eq_none hobj
      rw [hobj, loadedObject, hnone]
      rfl
    refine ⟨rfl, [.createObjectChange a], rfl, by simp [isCall], ?_⟩
    simp [undoObjects, hload]
  | @balance a o hobj amount =>
    have hback : (o.setBalance amount).setBalance o.account.balance = o := rfl
    refine ⟨rfl, [.balanceChange a o.account.balance], rfl, by simp [isCall], ?_⟩
    simp [setObjectBalance, undoObjects, hback, ← hobj]
  | log log => exact ⟨rfl, [.addLogChange], rfl, by simp [isCall], rfl⟩
  | cache cache => exact Retraced.of_same rfl rfl rfl

theorem FrameSteps.retraced (h : FrameSteps env s s') : Retraced env s s' := by
  induction h with
  | refl => exact Retraced.refl
  | tail _ hstep ih => exact ih.trans hstep.retraced

/-! ## Reverting the frame of a call -/

variable {ctx : Context Ω} {tx : TxConfig}

theorem Moves.tapeSteps (hs : Moves env (new ctx tx) s) (h : Moves env s s') :
    Relation.ReflTransGen (Step (undoObservation env ctx.store) (Extension env ctx.store))
      (s.tape env) (s'.tape env) := by
  induction h with
  | refl => exact .refl
  | @tail s₁ s₂ hmoves hmove ih =>
    have hreached := (hs.trans hmoves).reached
    have hstep := hmove.step hreached.accessList
    rw [hreached.sameCtx] at hstep
    exact ih.tail hstep

/-- A state that came back to a snapshot by such entries. -/
theorem Alike.of_reverted {s'' : StateDB Ω} {es : List (JournalEntry Ω)}
    (hs : Moves env (new ctx tx) s) (hmoves : Moves env s.snapshot.2 s')
    (htx : s'.txConfig = s.txConfig) (hplace : s'.validRevisions =
      s.validRevisions ++ [⟨s.nextRevisionID, s.journal.entries.length⟩])
    (hentries : s'.journal.entries = s.journal.entries ++ es)
    (hobjects : es.foldr (undoObjects (loadedObject env s.ctx.store))
      (s'.object env) = s.object env)
    (hstore : es.foldr restore s'.cacheStore = s.cacheStore)
    (hrevert : s'.revertToSnapshot env s.nextRevisionID = some s'') : Alike env s s'' := by
  have hmark : Moves env (new ctx tx) s.snapshot.2 := hs.tail .snapshot
  have hs' := hmark.trans hmoves
  have hctx' : s'.ctx = s.ctx := hs'.reached.sameCtx.trans hs.reached.sameCtx.symm
  have htracked := (hs'.tail (.revert _ hrevert)).reached.tracked
  -- what is observed comes back whatever the moves were
  have hsteps := hmark.tapeSteps hmoves
  rw [snapshot_tape] at hsteps
  have hkept := kept_of_steps hs.reached.ordered hsteps
  have hmem : (s.nextRevisionID, s.journal.entries.length) ∈ (s'.tape env).marks := by
    simp [tape, hplace]
  obtain ⟨-, -, hroll⟩ := hkept.2 _ hmem
  have hdrop : s'.journal.entries.drop s.journal.entries.length = es := by simp [hentries]
  have htake : s'.journal.entries.take s.journal.entries.length = s.journal.entries := by
    simp [hentries]
  have hat : s'.validRevisions[s.validRevisions.length]? =
      some ⟨s.nextRevisionID, s.journal.entries.length⟩ := by simp [hplace]
  have hreverted := revertToSnapshot_at hs'.reached.ordered hat
  rw [hrevert] at hreverted
  obtain ⟨s₁, hjournal, rfl⟩ := Option.map_eq_some_iff.mp hreverted.symm
  obtain ⟨s₂, hback, rfl⟩ := Option.map_eq_some_iff.mp hjournal
  have hsame := (observe_rollback s' _).2 s₂ hback
  have hobserve : s₂.observe env = s.observe env := by
    have hobs := (@StateDB.observe_rollback Ω env s' _).1.symm.trans
      (congrArg (Option.map (observe env)) hback)
    rw [hs'.reached.sameCtx] at hobs
    exact Option.some.inj (hobs.symm.trans hroll)
  rw [hdrop] at hback
  obtain ⟨hobject, hcache⟩ := rollback_objects hback
  rw [hctx', hobjects] at hobject
  rw [hstore] at hcache
  refine ⟨hsame.ctx.trans hctx', hsame.txConfig.trans htx, hobject, ?_, ?_,
    congrArg Observation.refund hobserve, congrArg Observation.logs hobserve,
    congrArg Observation.accessList hobserve, hcache, ?_⟩
  · rw [hsame.entries, htake]
    exact List.forall₂_same.mpr fun _ _ => rfl
  · have hdirties := htracked.dirties
    rw [hsame.entries, htake] at hdirties
    apply Finmap.ext_lookup
    intro a
    exact (hdirties a).trans (hs.reached.tracked.dirties a).symm
  · rw [hsame.validRevisions, hplace, List.take_left]

/-! ## Calls that fail cleanly -/

section

variable (env)

/-- The store holds what committing the object would write. -/
structure Written (st : Store Ω) (a : Address) (o : StateObject) : Prop where
  deleted : o.suicided = true → st.sequence a = none
  code : o.suicided = false → codeCommitted o st.code = st.code
  codeHash : o.suicided = false →
    st.codeHash a = if o.account.codeHash = env.emptyCodeHash then none else some o.account.codeHash
  sequence : o.suicided = false → st.sequence a = some o.account.nonce
  balance : o.suicided = false → st.getBalance env a = o.account.balance
  slots : o.suicided = false → ∀ key v, o.dirtyStorage.lookup key = some v →
    st.storage a key = some (hashBytes v)

/-- Everything dirty is in the cache context. -/
def StateDB.Flushed (s : StateDB Ω) : Prop :=
  ∀ a ∈ s.journal.dirties, ∀ o, s.stateObjects a = some o → Written env s.cacheStore a o

/-- A call that fails in `s` and leaves no trace on `post`: the counter must not start again, and
nothing was flushed or written. -/
structure FailsCleanly (s : StateDB Ω) (c : PrecompileCall Ω) (post : List (Action Ω)) :
    Prop where
  room : s.callCompletes env c = true → s.precompileCallsCounter.toNat + callCount post < 255
  flushed : s.callCompletes env c = false → (s.canTransfer env c).1 = true →
    c.precompile.guard c.frame = none → (s.entered env c).Flushed env
  silent : s.callCompletes env c = false → (s.canTransfer env c).1 = true →
    c.precompile.guard c.frame = none → ∀ handler, c.precompile.prepare c.frame = .ok handler →
      (handler c.frame (s.entered env c).cacheStore).store = (s.entered env c).cacheStore

end

/-- An object that is written already changes nothing. -/
theorem Written.commitObject {st : Store Ω} {a : Address} {o : StateObject}
    (h : Written env st a o) : (StateDB.commitObject env a o).run st = .ok () st := by
  unfold StateDB.commitObject
  cases hdead : o.suicided with
  | true =>
    rw [if_pos rfl, mapError_ok]
    simp [Keeper.deleteAccount, h.deleted hdead]
  | false =>
    have hcode : { st with code := codeCommitted o st.code } = st := by rw [h.code hdead]
    have hcodeHash : st.setCodeHash a (if o.account.codeHash = env.emptyCodeHash then none
        else some o.account.codeHash) = st := by
      simp only [Store.setCodeHash, ← h.codeHash hdead, Function.update_eq_self]
    have hsequence : st.setSequence a (some o.account.nonce) = st := by
      simp only [Store.setSequence, ← h.sequence hdead, Function.update_eq_self]
    have haccount : (Keeper.setAccount env a o.account).run st = .ok () st := by
      simp [Keeper.setAccount, Keeper.setBalance, hcodeHash, hsequence, h.balance hdead]
    have hslots : writeSlots a o o.dirtyStorage.sortedKeys st = st := by
      have hkeys : (fun k => if k ∈ o.dirtyStorage.sortedKeys then
          some (hashBytes ((o.dirtyStorage.lookup k).getD 0)) else st.storage a k) =
          st.storage a := by
        funext k
        cases hk : o.dirtyStorage.lookup k with
        | none => simp [mem_sortedKeys_iff, hk]
        | some v => simp [mem_sortedKeys_iff, hk, h.slots hdead k v hk]
      simp only [writeSlots, hkeys, Function.update_eq_self]
    simp only [Bool.false_eq_true, if_false]
    rw [bind_run_of_ok (commitCode_run o st), hcode, bind_run_of_ok (mapError_ok.mpr haccount),
      commitSlots_run, hslots]

theorem StateDB.Flushed.flush {s : StateDB Ω} (h : s.Flushed env)
    (ht : Tracked s s.journal.entries) :
    (s.flush env).1 = none ∧ (s.flush env).2.cacheStore = s.cacheStore := by
  have hrun : ∃ st, (s.commitWithCtx env).run s.cacheStore = .ok () st ∧ st = s.cacheStore := by
    refine forM_total (fun _ st => st = s.cacheStore) rfl ?_
    rintro done a rest st hsplit rfl
    have hdirty : a ∈ s.journal.dirties := by
      rw [← mem_sortedDirties, hsplit]
      simp
    obtain ⟨o, ho⟩ := ht.live_of_dirty hdirty
    rw [ho]
    exact ⟨_, (h a hdirty o ho).commitObject, rfl⟩
  obtain ⟨st, hrun, rfl⟩ := hrun
  have hrun' : (s.getCacheContext.commitWithCtx env).run s.getCacheContext.cacheStore =
      .ok () s.cacheStore := hrun
  unfold StateDB.flush StateDB.commitWithCacheCtx
  rw [hrun']
  exact ⟨rfl, rfl⟩

theorem StateDB.runBody_cacheStore {p : Precompile Ω} {c : Frame} (hflushed : s.Flushed env)
    (ht : Tracked s s.journal.entries)
    (hsilent : ∀ handler, p.prepare c = .ok handler →
      (handler c s.cacheStore).store = s.cacheStore) :
    (s.runBody env p c).2.cacheStore = s.cacheStore := by
  obtain ⟨-, hstore⟩ := hflushed.flush ht
  obtain ⟨e, hbody⟩ | ⟨e, hbody⟩ | ⟨handler, result, -, hprepare, -, hbody⟩ :=
    s.runBody_cases env p c
  · rw [hbody]
  · rw [hbody]
    exact hstore
  · rw [hbody, applyHandlerOutput_cacheStore env, hstore]
    exact hsilent handler hprepare

theorem Alike.of_read {β : Type} (s : StateDB Ω) (a : Address) (dflt : β)
    (f : StateObject → StateObject × β) (hf : ∀ o, (f o).1 = o) :
    Alike env s (s.readObject env a dflt f).2 := by
  unfold StateDB.readObject
  rw [StateDB.getStateObject_eq]
  cases hobj : s.object env a with
  | none => exact Alike.refl s
  | some o =>
    dsimp only
    rw [hf o, StateDB.setStateObject_setStateObject]
    refine { @Alike.refl Ω env s with objects := ?_ }
    rw [StateDB.object_setStateObject, ← hobj, Function.update_eq_self]

theorem Alike.of_canTransfer (s : StateDB Ω) (c : PrecompileCall Ω) :
    Alike env s (s.canTransfer env c).2 := by
  have hread : Alike env s (s.getBalance env c.frame.caller).2 :=
    Alike.of_read s c.frame.caller _ _ fun _ => rfl
  unfold StateDB.canTransfer
  cases c.kind
  all_goals dsimp only
  case delegateCall => exact Alike.refl s
  case staticCall => exact Alike.refl s
  all_goals
    split
    · exact Alike.refl s
    · exact hread

variable {c : PrecompileCall Ω}

/-- Reverting a frame whose body completed, or left the cache context. -/
theorem Alike.of_frame (hs : Moves env (new ctx tx) s)
    (hstore : ∀ e, ((s.snapshot.2.enterCall env c).runBody env c.precompile c.frame).1 = .error e →
      ((s.snapshot.2.enterCall env c).runBody env c.precompile c.frame).2.cacheStore =
        s.cacheStore) (hrevert : ((s.snapshot.2.enterCall env c).runPrecompile env c.precompile
      c.frame).2.revertToSnapshot env s.nextRevisionID = some s') : Alike env s s' := by
  have hframe := (s.snapshot.2.enterCall_value env c).frame
  have hmoves := (s.snapshot.2.enterCall_steps env c).moves.trans
    (runPrecompile_moves (s.snapshot.2.enterCall env c) c.precompile c.frame)
  have hcache : (s.snapshot.2.enterCall env c).cacheStore = s.cacheStore := by
    have hcontrol := (s.snapshot.2.enterCall_steps env c).sameControl
    exact cacheStore_eq hcontrol.ctx hcontrol.cacheCtx
  have hsnapshot : Retraced env s s.snapshot.2 := Retraced.of_same rfl rfl rfl
  have hbody := @FrameSteps.runBody Ω env (s.snapshot.2.enterCall env c) c.precompile c.frame
  have hrun := @runPrecompile_frame Ω env (s.snapshot.2.enterCall env c) c.precompile c.frame
  generalize s.snapshot.2.enterCall env c = s₂ at *
  rcases hrun with ⟨e, herror, hrun⟩ | ⟨entries, s₁, -, -, hchanges, hrun⟩
  · rw [hrun] at hrevert hmoves
    have hall : FrameSteps env _ _ := hframe.trans hbody
    obtain ⟨-, es, hentries, hnocall, hobjects⟩ := hsnapshot.trans hall.retraced
    refine Alike.of_reverted hs hmoves hall.sameFrame.txConfig hall.sameFrame.validRevisions
      hentries hobjects ?_ hrevert
    rw [foldr_restore hnocall]
    exact hstore e herror
  · -- the entry of the call restores the cache context, the entries before leave it alone
    rw [hrun] at hrevert hmoves
    have hall : FrameSteps env _ _ := (hframe.trans hbody).trans hchanges.frame
    obtain ⟨-, es, hentries, hnocall, hobjects⟩ := hsnapshot.trans hall.retraced
    have hjournal : (s₁.journalCall s₂.cacheStore s₂.cacheContext.events).journal.entries =
        s.journal.entries ++
          (es ++ [.precompileCallChange s₂.cacheStore s₂.cacheContext.events]) := by
      rw [← List.append_assoc, ← hentries]
      rfl
    refine Alike.of_reverted hs hmoves hall.sameFrame.txConfig hall.sameFrame.validRevisions
      hjournal ?_ ?_ hrevert
    · rw [List.foldr_append]
      exact hobjects
    · rw [List.foldr_append]
      exact (foldr_restore hnocall _).trans hcache

variable {e : Err}

theorem StateDB.callPrecompile_failed (h : s.callPrecompile env c = some (some e, s')) :
    s' = (s.canTransfer env c).2 ∨
      (s.canTransfer env c).1 = true ∧
        ((s.entered env c).runPrecompile env c.precompile c.frame).2.revertToSnapshot env
          (s.canTransfer env c).2.nextRevisionID = some s' := by
  obtain ⟨-, -, hs'⟩ | ⟨henough, s₁, hrun, ⟨hnone, -⟩ | ⟨-, hback⟩⟩ := callPrecompile_cases h
  · exact .inl hs'
  · cases hnone
  · refine .inr ⟨henough, ?_⟩
    unfold entered
    rw [hrun]
    exact hback

theorem StateDB.callCompletes_of_error
    (h : ((s.entered env c).runBody env c.precompile c.frame).1 = .error e) :
    s.callCompletes env c = false := by
  unfold callCompletes
  unfold entered at h
  generalize s.canTransfer env c = r at *
  obtain ⟨enough, s₁⟩ := r
  cases enough with
  | false => rfl
  | true =>
    dsimp only at h ⊢
    generalize (s₁.snapshot.2.enterCall env c).runBody env c.precompile c.frame = q at *
    obtain ⟨result, s₂⟩ := q
    subst h
    rfl

/-- **A call that fails cleanly** leaves a state like that of before. -/
theorem FailsCleanly.alike {post : List (Action Ω)} (h : FailsCleanly env s c post)
    (hs : Moves env (new ctx tx) s) (hcall : s.callPrecompile env c = some (some e, s')) :
    Alike env s s' := by
  have hread := @Alike.of_canTransfer Ω env s c
  rcases callPrecompile_failed hcall with rfl | ⟨henough, hrevert⟩
  · exact hread
  have hs₁ := hs.trans (s.canTransfer_steps env c).moves
  have htracked := (canTransfer_frame_moves hs c).reached.tracked
  have hsteps := (s.canTransfer env c).2.snapshot.2.enterCall_steps env c
  have hcache : (s.entered env c).cacheStore = (s.canTransfer env c).2.cacheStore :=
    cacheStore_eq hsteps.sameControl.ctx hsteps.sameControl.cacheCtx
  refine hread.trans (Alike.of_frame hs₁ ?_ hrevert)
  intro err herr
  have hfailed := callCompletes_of_error herr
  refine Eq.trans ?_ hcache
  -- a guard stops the call before the flush
  cases hguard : c.precompile.guard c.frame with
  | some stop =>
    unfold entered runBody
    rw [hguard]
  | none =>
    exact runBody_cacheStore (h.flushed hfailed henough hguard) htracked
      (h.silent hfailed henough hguard)

/-- A clean failure leaves the counts. -/
theorem FailsCleanly.sameCounts {post : List (Action Ω)} (h : FailsCleanly env s c post)
    (hcall : s.callPrecompile env c = some (some e, s')) : SameCounts (callCount post) s s' := by
  have hfails : s.callSucceeds env c = false := by
    unfold callSucceeds
    rw [hcall]
  rcases @StateDB.callPrecompile_counter Ω env s c with
    ⟨hcompletes, hsucceeds, hcounter⟩ | ⟨-, -, hcounter⟩
  · have hroom := h.room hcompletes
    have hrefused : ¬ s.precompileCallsCounter + 1 ≤ maxPrecompileCalls := by
      rw [← hsucceeds, hfails]
      simp
    have hsucc : (s.precompileCallsCounter + 1).toNat = s.precompileCallsCounter.toNat + 1 := by
      rw [UInt8.toNat_add]
      exact Nat.mod_eq_of_lt (by simpa using (by omega : s.precompileCallsCounter.toNat + 1 < 256))
    right
    rw [hcounter _ _ hcall]
    simp only [UInt8.le_iff_toNat_le, hsucc] at hrefused ⊢
    omega
  · exact .inl (hcounter _ _ hcall)

/-- **Failed calls are atomic**, if they fail cleanly: the rest persists as without them. -/
theorem failedCall_persisted {ctx : Context Ω} {tx : TxConfig} {s s' : StateDB Ω}
    {pre post : List (Action Ω)} {c : PrecompileCall Ω} {e : Err}
    (hpre : (StateDB.new ctx tx).run env pre = some s)
    (hcall : s.callPrecompile env c = some (some e, s')) (hclean : FailsCleanly env s c post) :
    ((StateDB.new ctx tx).run env (pre ++ .call c :: post)).map (StateDB.persisted env) =
      ((StateDB.new ctx tx).run env (pre ++ post)).map (StateDB.persisted env) := by
  have hs := run_moves hpre
  have hs' := hs.trans (callPrecompile_moves hcall)
  have halike := (hclean.alike hs hcall).run post hs hs' (hclean.sameCounts hcall)
  have hwith : (StateDB.new ctx tx).run env (pre ++ .call c :: post) = s'.run env post := by
    rw [StateDB.run_append, hpre]
    simp [StateDB.run, Action.step, hcall]
  have hwithout : (StateDB.new ctx tx).run env (pre ++ post) = s.run env post := by
    rw [StateDB.run_append, hpre]
    rfl
  rw [hwith, hwithout]
  symm
  apply Lockstep.eq_of_rel
  refine Lockstep.rel_map halike ?_
  rintro t t' ⟨h, ht, ht'⟩
  exact (h.persisted ht ht').symm

/-- A call with a selector the precompile does not have. -/
def Devnet.unknownSelector : PrecompileCall Unit :=
  ⟨.call, precompile idle, frame 0xA1 [0, 0, 0, 9]⟩

/-- A frame begins with a call that fails; nothing is dirty yet. -/
theorem failedCall_persisted_devnet :
    (accountsState.run env6
        [.op .snapshot, .call unknownSelector, .op (.write (.setState 0xA1 1 2)),
          .op (.revertToSnapshot 0)]).map (StateDB.persisted env6) =
      (accountsState.run env6
        [.op .snapshot, .op (.write (.setState 0xA1 1 2)),
          .op (.revertToSnapshot 0)]).map (StateDB.persisted env6) := by
  obtain ⟨s, hpre, hcompletes, hdirties, hfails⟩ : ∃ s,
      accountsState.run env6 [.op .snapshot] = some s ∧
      s.callCompletes env6 unknownSelector = false ∧
      (s.entered env6 unknownSelector).journal.dirties = ∅ ∧
      (∃ s', s.callPrecompile env6 unknownSelector =
        some (some (.new "no method with id"), s')) :=
    ⟨_, rfl, rfl, rfl, _, rfl⟩
  obtain ⟨s', hcall⟩ := hfails
  refine @failedCall_persisted Unit _ _ _ s s' [.op .snapshot] _ _ _ hpre hcall ⟨?_, ?_, ?_⟩
  · intro h
    rw [hcompletes] at h
    cases h
  · intro _ _ _ a ha
    rw [hdirties] at ha
    cases ha
  · intro _ _ _ handler h
    cases h

/-- **A failed call that is not atomic**: what was flushed persists. -/
theorem failedCall_survives :
    (∃ s s' e, accountsState.run env6 [.op .snapshot, .op (.write (.setState 0xA1 1 2))] = some s ∧
      s.callPrecompile env6 unknownSelector = some (some e, s')) ∧
    (accountsState.run env6
        [.op .snapshot, .op (.write (.setState 0xA1 1 2)), .call unknownSelector,
          .op (.revertToSnapshot 0)]).map
        (fun s => (s.persisted env6).2.getState 0xA1 1) = some 2 ∧
    (accountsState.run env6
        [.op .snapshot, .op (.write (.setState 0xA1 1 2)), .op (.revertToSnapshot 0)]).map
        (fun s => (s.persisted env6).2.getState 0xA1 1) = some 0 :=
  ⟨⟨_, _, _, rfl, rfl⟩, by decide, by decide⟩

end TacEvm
