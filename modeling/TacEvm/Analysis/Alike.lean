import TacEvm.Analysis.CallBound

/-!
# States that behave alike

`Alike` relates states that no later operation and no commit can tell apart. Every action takes
alike states to alike states, so it is enough to compare two runs where they part. The counter of
precompile calls is kept apart.
-/

namespace TacEvm

open Rollback FallibleState StateDB

variable {Ω : Type} {env : Env}

/-- An entry without the events it would restore. -/
def JournalEntry.withoutEvents : JournalEntry Ω → JournalEntry Ω
  | .precompileCallChange cms _ => .precompileCallChange cms []
  | e => e

theorem JournalEntry.dirtied_withoutEvents (e : JournalEntry Ω) :
    e.withoutEvents.dirtied = e.dirtied := by
  cases e <;> rfl

/-- Entries that are the same but for the events. -/
def SameEntry (e e' : JournalEntry Ω) : Prop := e'.withoutEvents = e.withoutEvents

theorem SameEntry.dirtied {e e' : JournalEntry Ω} (h : SameEntry e e') :
    e'.dirtied = e.dirtied := by
  rw [← e'.dirtied_withoutEvents, h, e.dirtied_withoutEvents]

theorem sameEntries_trans {es es' es'' : List (JournalEntry Ω)}
    (h : List.Forall₂ SameEntry es es') (h' : List.Forall₂ SameEntry es' es'') :
    List.Forall₂ SameEntry es es'' := by
  induction h generalizing es'' with
  | nil => exact h'
  | cons hfirst _ ih =>
    cases h' with
    | cons hfirst' hrest' => exact .cons (hfirst'.trans hfirst) (ih hrest')

/-- States that differ in live objects, identifiers, events and counter. -/
structure Alike (env : Env) (s t : StateDB Ω) : Prop where
  ctx : t.ctx = s.ctx
  txConfig : t.txConfig = s.txConfig
  objects : t.object env = s.object env
  entries : List.Forall₂ SameEntry s.journal.entries t.journal.entries
  dirties : t.journal.dirties = s.journal.dirties
  refund : t.refund = s.refund
  logs : t.logs = s.logs
  accessList : t.accessList = s.accessList
  cacheStore : t.cacheStore = s.cacheStore
  marks : t.validRevisions.map Revision.journalIndex = s.validRevisions.map Revision.journalIndex

/-- The same value, and states that are alike. -/
def AlikeResults {β : Type} (env : Env) (r r' : β × StateDB Ω) : Prop :=
  r'.1 = r.1 ∧ Alike env r.2 r'.2

theorem AlikeResults.cases {β : Type} {r r' : β × StateDB Ω} (h : AlikeResults env r r') :
    ∃ x s t, r = (x, s) ∧ r' = (x, t) ∧ Alike env s t :=
  ⟨r.1, r.2, r'.2, rfl, Prod.ext h.1 rfl, h.2⟩

namespace Alike

variable {s t : StateDB Ω}

theorem refl (s : StateDB Ω) : Alike env s s :=
  ⟨rfl, rfl, rfl, List.forall₂_same.mpr fun _ _ => rfl, rfl, rfl, rfl, rfl, rfl, rfl⟩

theorem trans {u : StateDB Ω} (h : Alike env s t) (h' : Alike env t u) : Alike env s u where
  ctx := h'.ctx.trans h.ctx
  txConfig := h'.txConfig.trans h.txConfig
  objects := h'.objects.trans h.objects
  entries := sameEntries_trans h.entries h'.entries
  dirties := h'.dirties.trans h.dirties
  refund := h'.refund.trans h.refund
  logs := h'.logs.trans h.logs
  accessList := h'.accessList.trans h.accessList
  cacheStore := h'.cacheStore.trans h.cacheStore
  marks := h'.marks.trans h.marks

/-- The counters are both within the bound, or both over it. -/
def SameBound (s t : StateDB Ω) : Prop :=
  maxPrecompileCalls < t.precompileCallsCounter + 1 ↔
    maxPrecompileCalls < s.precompileCallsCounter + 1

theorem object_unload (s : StateDB Ω) (a : Address) :
    ({ s with stateObjects := Function.update s.stateObjects a none } : StateDB Ω).object env =
      Function.update (s.object env) a ((s.ctx.store.getAccount env a).map newObject) := by
  funext b
  by_cases hb : b = a
  · subst hb
    simp [object]
  · simp [object, hb]

variable {e e' : JournalEntry Ω} (h : Alike env s t)
include h

theorem store : t.ctx.store = s.ctx.store := congrArg Context.store h.ctx

theorem setStateObject (a : Address) (o : StateObject) :
    Alike env (s.setStateObject a o) (t.setStateObject a o) :=
  { h with
    objects := by rw [object_setStateObject, object_setStateObject, h.objects] }

theorem append (he : SameEntry e e') : Alike env (s.append e) (t.append e') :=
  { h with
    entries := List.rel_append h.entries (.cons he .nil)
    dirties := by
      simp [StateDB.append, Journal.append, Journal.addDirty, he.dirtied, h.dirties] }

theorem append_self (e : JournalEntry Ω) : Alike env (s.append e) (t.append e) := h.append rfl

theorem getOrNewStateObject (a : Address) :
    AlikeResults env (s.getOrNewStateObject env a) (t.getOrNewStateObject env a) := by
  rw [getOrNewStateObject_eq, getOrNewStateObject_eq, h.objects]
  cases s.object env a with
  | some o => exact ⟨rfl, h.setStateObject a o⟩
  | none => exact ⟨rfl, (h.append_self _).setStateObject a _⟩

theorem readObject {β : Type} (a : Address) (dflt : β) (f : StateObject → StateObject × β) :
    AlikeResults env (s.readObject env a dflt f) (t.readObject env a dflt f) := by
  unfold StateDB.readObject
  rw [StateDB.getStateObject_eq, StateDB.getStateObject_eq, h.objects]
  cases s.object env a with
  | some o => exact ⟨rfl, (h.setStateObject a o).setStateObject a _⟩
  | none => exact ⟨rfl, h⟩

theorem createAccount (a : Address) :
    Alike env (s.createAccount env a) (t.createAccount env a) := by
  unfold StateDB.createAccount StateDB.createObject
  rw [StateDB.getStateObject_eq, StateDB.getStateObject_eq, h.objects]
  cases s.object env a with
  | none => exact (h.append_self _).setStateObject a _
  | some prev =>
    exact (((h.setStateObject a prev).append_self _).setStateObject a _).setStateObject a _

theorem withObject (a : Address) (f : StateObject → StateDB Ω → StateDB Ω)
    (hf : ∀ o s t, Alike env s t → Alike env (f o s) (f o t)) :
    Alike env (f (s.getOrNewStateObject env a).1 (s.getOrNewStateObject env a).2)
      (f (t.getOrNewStateObject env a).1 (t.getOrNewStateObject env a).2) := by
  obtain ⟨hobj, hstate⟩ := h.getOrNewStateObject a
  rw [hobj]
  exact hf _ _ _ hstate

theorem setObjectBalance (a : Address) (o : StateObject) (n : ℤ) :
    Alike env (s.setObjectBalance a o n) (t.setObjectBalance a o n) :=
  (h.append_self _).setStateObject a _

theorem addBalance (a : Address) (n : ℤ) :
    Alike env (s.addBalance env a n) (t.addBalance env a n) := by
  refine h.withObject a (fun o s => if env.adjustExtraDecimals n = 0 then s
    else s.setObjectBalance a o (o.account.balance + env.adjustExtraDecimals n)) ?_
  intro o s t hst
  split
  · exact hst
  · exact hst.setObjectBalance a o _

theorem subBalance (a : Address) (n : ℤ) :
    Alike env (s.subBalance env a n) (t.subBalance env a n) := by
  refine h.withObject a (fun o s => if env.adjustExtraDecimals n = 0 then s
    else s.setObjectBalance a o (o.account.balance - env.adjustExtraDecimals n)) ?_
  intro o s t hst
  split
  · exact hst
  · exact hst.setObjectBalance a o _

theorem setNonce (a : Address) (nonce : UInt64) :
    Alike env (s.setNonce env a nonce) (t.setNonce env a nonce) :=
  h.withObject a (fun o s => (s.append (.nonceChange a o.account.nonce)).setStateObject a
    (o.setNonce nonce)) fun _ _ _ hst => (hst.append_self _).setStateObject a _

theorem setCode (a : Address) (code : Option Bytes) :
    Alike env (s.setCode env a code) (t.setCode env a code) := by
  refine h.withObject a (fun o s => (s.append (.codeChange a (o.loadCode env s.ctx.store).2
    (o.loadCode env s.ctx.store).1.account.codeHash)).setStateObject a
      ((o.loadCode env s.ctx.store).1.setCode (env.keccak256 (code.getD [])) code)) ?_
  intro o s t hst
  rw [hst.store]
  exact (hst.append_self _).setStateObject a _

theorem setState (a : Address) (key value : Hash) :
    Alike env (s.setState env a key value) (t.setState env a key value) := by
  refine h.withObject a (fun o s => if (o.getState s.ctx.store a key).2 = value
    then s.setStateObject a (o.getState s.ctx.store a key).1
    else (s.append (.storageChange a key (o.getState s.ctx.store a key).2)).setStateObject a
      ((o.getState s.ctx.store a key).1.setState key value)) ?_
  intro o s t hst
  rw [hst.store]
  split
  · exact hst.setStateObject a _
  · exact (hst.append_self _).setStateObject a _

theorem suicide (a : Address) : Alike env (s.suicide env a).2 (t.suicide env a).2 := by
  unfold StateDB.suicide
  rw [StateDB.getStateObject_eq, StateDB.getStateObject_eq, h.objects]
  cases s.object env a with
  | none => exact h
  | some o => exact ((h.setStateObject a o).append_self _).setStateObject a _

theorem addLog (address : Address) (topics : List Hash) (data : Bytes) :
    Alike env (s.addLog address topics data) (t.addLog address topics data) :=
  { h with
    entries := (h.append_self .addLogChange).entries
    dirties := (h.append_self .addLogChange).dirties
    logs := by simp [StateDB.addLog, h.logs, h.txConfig] }

theorem setRefund (refund : UInt64) :
    Alike env { s.append (.refundChange s.refund) with refund := refund }
      { t.append (.refundChange t.refund) with refund := refund } :=
  { h with
    entries := by
      rw [h.refund]
      exact (h.append_self _).entries
    dirties := (h.append_self (.refundChange 0)).dirties
    refund := rfl }

theorem setAccessList (al : AccessList) :
    Alike env { s with accessList := al } { t with accessList := al } :=
  { h with accessList := rfl }

theorem addAddressToAccessList (a : Address) :
    Alike env (s.addAddressToAccessList a) (t.addAddressToAccessList a) := by
  unfold StateDB.addAddressToAccessList
  rw [h.accessList]
  generalize s.accessList.addAddress a = r
  obtain ⟨al, changed⟩ := r
  dsimp only
  split
  · exact (h.setAccessList al).append_self _
  · exact h.setAccessList al

theorem addSlotToAccessList (a : Address) (slot : Hash) :
    Option.Rel (Alike env) (s.addSlotToAccessList a slot) (t.addSlotToAccessList a slot) := by
  unfold StateDB.addSlotToAccessList
  rw [h.accessList]
  cases s.accessList.addSlot a slot with
  | none => exact .none
  | some r =>
    obtain ⟨al, addrMod, slotMod⟩ := r
    refine .some ?_
    have hal := h.setAccessList al
    cases addrMod <;> cases slotMod
    · exact hal
    · exact hal.append_self _
    · exact hal.append_self _
    · exact (hal.append_self _).append_self _

theorem read (r : Read) : Alike env (r.step env s) (r.step env t) := by
  cases r with
  | code a =>
    unfold Read.step getCode
    rw [h.store]
    exact (h.readObject a _ _).2
  | codeSize a =>
    unfold Read.step getCodeSize
    rw [h.store]
    exact (h.readObject a _ _).2
  | state a key =>
    unfold Read.step getState
    rw [h.store]
    exact (h.readObject a _ _).2
  | committedState a key =>
    unfold Read.step getCommittedState
    rw [h.store]
    exact (h.readObject a _ _).2
  | _ => exact (h.readObject _ _ _).2

theorem write (w : Write) :
    Option.Rel (Alike env) (w.step env s) (w.step env t) := by
  cases w with
  | createAccount a => exact .some (h.createAccount a)
  | addBalance a n => exact .some (h.addBalance a n)
  | subBalance a n => exact .some (h.subBalance a n)
  | setNonce a nonce => exact .some (h.setNonce a nonce)
  | setCode a code => exact .some (h.setCode a code)
  | setState a key value => exact .some (h.setState a key value)
  | suicide a => exact .some (h.suicide a)
  | addLog address topics data => exact .some (h.addLog address topics data)
  | addRefund gas =>
    refine .some ?_
    have hrefund := h.setRefund (s.refund + gas)
    unfold addRefund
    rw [h.refund] at hrefund ⊢
    exact hrefund
  | subRefund gas =>
    unfold Write.step subRefund
    dsimp only
    have hrefund := h.setRefund (s.refund - gas)
    rw [h.refund] at hrefund ⊢
    split
    · exact .none
    · exact .some hrefund
  | addAddressToAccessList a => exact .some (h.addAddressToAccessList a)
  | addSlotToAccessList a slot => exact h.addSlotToAccessList a slot

theorem snapshot : Alike env s.snapshot.2 t.snapshot.2 :=
  { h with marks := by simp [StateDB.snapshot, h.marks, h.entries.length_eq] }

theorem revertObject (a : Address) (f : StateObject → StateObject) :
    Option.Rel (Alike env) (s.revertObject env a f) (t.revertObject env a f) := by
  unfold StateDB.revertObject
  rw [StateDB.getStateObject_eq, StateDB.getStateObject_eq, h.objects]
  cases s.object env a with
  | none => exact .none
  | some o => exact .some ((h.setStateObject a o).setStateObject a _)

/-- The same entry is undone alike in states that are alike. -/
theorem revert_self (e : JournalEntry Ω) :
    Option.Rel (Alike env) (e.revert env s) (e.revert env t) := by
  cases e with
  | createObjectChange a =>
    refine .some { h with objects := ?_ }
    rw [object_unload, object_unload, h.objects, h.store]
  | resetObjectChange a prev => exact .some (h.setStateObject a prev)
  | suicideChange a prev prevbalance =>
    unfold JournalEntry.revert
    dsimp only
    rw [getStateObject_eq, getStateObject_eq, h.objects]
    cases s.object env a with
    | none => exact .some h
    | some o => exact .some ((h.setStateObject a o).setStateObject a _)
  | balanceChange a prev => exact h.revertObject a _
  | nonceChange a prev => exact h.revertObject a _
  | codeChange a prevcode prevhash => exact h.revertObject a _
  | storageChange a key prevalue => exact h.revertObject a _
  | refundChange prev =>
    exact .some { h with refund := rfl }
  | addLogChange =>
    unfold JournalEntry.revert
    dsimp only
    rw [h.logs]
    split
    · exact .none
    · exact .some { h with logs := rfl }
  | accessListAddAccountChange address =>
    unfold JournalEntry.revert
    rw [h.accessList]
    exact .some (h.setAccessList _)
  | accessListAddSlotChange address slot =>
    unfold JournalEntry.revert
    dsimp only
    rw [h.accessList]
    cases s.accessList.deleteSlot address slot with
    | none => exact .none
    | some al => exact .some (h.setAccessList al)
  | precompileCallChange cms events =>
    exact .some { h with cacheStore := rfl }

theorem revert (he : SameEntry e e') :
    Option.Rel (Alike env) (e.revert env s) (e'.revert env t) := by
  have hcases : e' = e ∨ ∃ cms events events', e = .precompileCallChange cms events ∧
      e' = .precompileCallChange cms events' := by
    cases e with
    | precompileCallChange cms events =>
      right
      cases e' with
      | precompileCallChange cms' events' =>
        cases he
        exact ⟨cms, events, events', rfl, rfl⟩
      | _ => cases he
    | _ =>
      left
      cases e' with
      | precompileCallChange cms' events' => cases he
      | _ => exact he
  rcases hcases with rfl | ⟨cms, events, events', rfl, rfl⟩
  · exact h.revert_self e'
  · exact .some { h with cacheStore := rfl }

theorem revertEntry (he : SameEntry e e') :
    Option.Rel (Alike env) (revertEntry env e s) (revertEntry env e' t) := by
  refine Lockstep.rel_map (h.revert he) fun s' t' h' => ?_
  refine { h' with dirties := ?_ }
  simp [Journal.dropDirty, he.dirtied, h'.dirties]

theorem revertJournal (n : ℕ) :
    Option.Rel (Alike env) (s.revertJournal env n) (t.revertJournal env n) := by
  have hroll :=
    rollback_rel (fun _ _ _ _ he hab => hab.revertEntry he) (List.forall₂_drop n h.entries) h
  refine Lockstep.rel_map hroll fun s' t' h' => ?_
  exact { h' with entries := List.forall₂_take n h'.entries }

theorem revertToSnapshot (hs : Ordered (s.tape env)) (ht : Ordered (t.tape env)) {i : ℕ}
    {r r' : Revision} (hr : s.validRevisions[i]? = some r) (hr' : t.validRevisions[i]? = some r') :
    Option.Rel (Alike env) (s.revertToSnapshot env r.id) (t.revertToSnapshot env r'.id) := by
  have hindex : r'.journalIndex = r.journalIndex := by
    have hmarks := congrArg (fun l => l[i]?) h.marks
    simpa [List.getElem?_map, hr, hr'] using hmarks
  rw [revertToSnapshot_at hs hr, revertToSnapshot_at ht hr', hindex]
  refine Lockstep.rel_map (h.revertJournal r.journalIndex) fun s' t' h' => ?_
  refine { h' with marks := ?_ }
  simp [List.map_take, h'.marks]

theorem op (hs : Ordered (s.tape env)) (ht : Ordered (t.tape env)) (o : Op) :
    Option.Rel (Alike env) (o.step env s) (o.step env t) := by
  cases o with
  | read r => exact .some (h.read r)
  | write w => exact h.write w
  | snapshot => exact .some h.snapshot
  | revertToSnapshot place =>
    have hlength : t.validRevisions.length = s.validRevisions.length := by
      simpa using congrArg List.length h.marks
    simp only [Op.step]
    cases hr : s.validRevisions[place]? with
    | none =>
      have hr' : t.validRevisions[place]? = none := by
        rw [List.getElem?_eq_none_iff] at hr ⊢
        omega
      rw [hr']
      exact .none
    | some r =>
      have hlt : place < t.validRevisions.length := by
        rw [hlength]
        exact (List.getElem?_eq_some_iff.mp hr).1
      rw [List.getElem?_eq_getElem hlt]
      exact h.revertToSnapshot hs ht hr (List.getElem?_eq_getElem hlt)

theorem commitWithCtx (hs : Tracked s s.journal.entries) (ht : Tracked t t.journal.entries) :
    t.commitWithCtx env = s.commitWithCtx env := by
  have hdirties : t.journal.sortedDirties = s.journal.sortedDirties := by
    unfold Journal.sortedDirties
    rw [h.dirties]
  unfold StateDB.commitWithCtx
  rw [hdirties]
  refine forM_congr fun a ha => ?_
  have hdirty : a ∈ s.journal.dirties := (mem_sortedDirties s.journal a).mp ha
  obtain ⟨o, ho⟩ := hs.live_of_dirty hdirty
  obtain ⟨o', ho'⟩ := ht.live_of_dirty (h.dirties ▸ hdirty)
  have hsame : o' = o := by
    have hobj : t.object env a = s.object env a := congrFun h.objects a
    rw [StateDB.object_of_live ho, StateDB.object_of_live ho'] at hobj
    exact Option.some.inj hobj
  rw [ho, ho', hsame]

theorem withCache {c c' : CacheContext Ω} (hc : c'.store = c.store) :
    Alike env { s with cacheCtx := some c } { t with cacheCtx := some c' } :=
  { h with cacheStore := hc }

theorem flush (hs : Tracked s s.journal.entries)
    (ht : Tracked t t.journal.entries) :
    AlikeResults env (s.flush env) (t.flush env) := by
  have hcommit : t.getCacheContext.commitWithCtx env = s.getCacheContext.commitWithCtx env :=
    h.commitWithCtx hs ht
  have hstore : t.getCacheContext.cacheStore = s.getCacheContext.cacheStore := h.cacheStore
  unfold StateDB.flush StateDB.commitWithCacheCtx
  rw [hcommit, hstore]
  cases (s.getCacheContext.commitWithCtx env).run s.getCacheContext.cacheStore with
  | ok u st => exact ⟨rfl, h.withCache rfl⟩
  | error e st => exact ⟨rfl, h.withCache rfl⟩

theorem applyHandlerOutput (out : HandlerOutput Ω) :
    Alike env (s.applyHandlerOutput out) (t.applyHandlerOutput out) := by
  have hlogs : ∀ (logs : List EmittedLog) (s t : StateDB Ω), Alike env s t →
      Alike env (logs.foldl (fun s log => s.addLog log.1 log.2.1 log.2.2) s)
        (logs.foldl (fun s log => s.addLog log.1 log.2.1 log.2.2) t) := by
    intro logs
    induction logs with
    | nil => exact fun _ _ hst => hst
    | cons log logs ih => exact fun s t hst => ih _ _ (hst.addLog _ _ _)
  exact hlogs out.logs _ _ (h.withCache rfl)

theorem runMethod (p : Precompile Ω) (c : Frame) :
    AlikeResults env (s.runMethod p c) (t.runMethod p c) := by
  unfold StateDB.runMethod
  cases p.prepare c with
  | error e => exact ⟨rfl, h⟩
  | ok handler =>
    dsimp only
    rw [h.cacheStore]
    have hout := h.applyHandlerOutput (handler c s.cacheStore)
    cases (handler c s.cacheStore).result with
    | error e => exact ⟨rfl, hout⟩
    | ok entries =>
      dsimp only
      split
      · exact ⟨rfl, hout⟩
      · exact ⟨rfl, hout⟩

theorem runBody (hs : Tracked s s.journal.entries)
    (ht : Tracked t t.journal.entries) (p : Precompile Ω) (c : Frame) :
    AlikeResults env (s.runBody env p c) (t.runBody env p c) := by
  unfold StateDB.runBody
  cases p.guard c with
  | some e => exact ⟨rfl, h⟩
  | none =>
    obtain ⟨err, s₁, t₁, hflush, hflush', hstate⟩ := (h.flush hs ht).cases
    rw [hflush, hflush']
    cases err with
    | some e => exact ⟨rfl, hstate⟩
    | none => exact hstate.runMethod p c

theorem applyBalanceChanges (entries : BalanceChanges) :
    Alike env (entries.foldl (applyBalanceChange env) s)
      (entries.foldl (applyBalanceChange env) t) := by
  induction entries generalizing s t with
  | nil => exact h
  | cons entry entries ih =>
    refine ih ?_
    unfold applyBalanceChange
    cases entry.op with
    | sub => exact h.subBalance _ _
    | add => exact h.addBalance _ _

theorem addPrecompileFn (hbound : SameBound s t) (a : Address) (cms : Store Ω)
    (events events' : List Event) :
    AlikeResults env (s.addPrecompileFn env a cms events)
      (t.addPrecompileFn env a cms events') := by
  obtain ⟨-, hstate⟩ := h.getOrNewStateObject a
  rw [addPrecompileFn_eq, addPrecompileFn_eq]
  refine ⟨if_congr hbound rfl rfl, ?_⟩
  have happend : Alike env
      ((s.getOrNewStateObject env a).2.append (.precompileCallChange cms events))
      ((t.getOrNewStateObject env a).2.append (.precompileCallChange cms events')) :=
    hstate.append rfl
  exact { happend with }

theorem runPrecompile (hs : Tracked s s.journal.entries)
    (ht : Tracked t t.journal.entries) (hbound : SameBound s t) (p : Precompile Ω) (c : Frame) :
    AlikeResults env (s.runPrecompile env p c) (t.runPrecompile env p c) := by
  obtain ⟨result, s₁, t₁, hbody, hbody', hstate⟩ := (h.runBody hs ht p c).cases
  obtain ⟨cache, hsteps⟩ := s.runBody_steps env p c
  obtain ⟨cache', hsteps'⟩ := t.runBody_steps env p c
  have hcounter := hsteps.sameControl.counter
  have hcounter' := hsteps'.sameControl.counter
  unfold StateDB.runPrecompile
  rw [hbody] at hcounter ⊢
  rw [hbody'] at hcounter' ⊢
  cases result with
  | error e => exact ⟨rfl, hstate⟩
  | ok entries =>
    have hchanges := hstate.applyBalanceChanges entries
    have hbound' : SameBound (entries.foldl (StateDB.applyBalanceChange env) s₁)
        (entries.foldl (StateDB.applyBalanceChange env) t₁) := by
      unfold SameBound
      rw [(s₁.applyBalanceChanges_steps env entries).sameControl.counter,
        (t₁.applyBalanceChanges_steps env entries).sameControl.counter, hcounter, hcounter']
      exact hbound
    have hstore : t.cacheContext.store = s.cacheContext.store := h.cacheStore
    rw [hstore]
    exact hchanges.addPrecompileFn hbound' _ _ _ _

theorem transfer (a b : Address) (n : ℤ) :
    Alike env (s.transfer env a b n) (t.transfer env a b n) :=
  (h.subBalance a n).addBalance b n

theorem canTransfer (c : PrecompileCall Ω) :
    AlikeResults env (s.canTransfer env c) (t.canTransfer env c) := by
  have hread : AlikeResults env (s.getBalance env c.frame.caller)
      (t.getBalance env c.frame.caller) := h.readObject c.frame.caller _ _
  unfold StateDB.canTransfer
  cases c.kind
  all_goals dsimp only
  case delegateCall => exact ⟨rfl, h⟩
  case staticCall => exact ⟨rfl, h⟩
  all_goals
    split
    · exact ⟨rfl, h⟩
    · exact ⟨by rw [hread.1], hread.2⟩

theorem enterCall (c : PrecompileCall Ω) :
    Alike env (s.enterCall env c) (t.enterCall env c) := by
  unfold StateDB.enterCall
  cases c.kind with
  | call =>
    have hexist : AlikeResults env (s.exist env c.precompile.address)
      (t.exist env c.precompile.address) := h.readObject c.precompile.address _ _
    obtain ⟨found, s₁, t₁, hfound, hfound', hstate⟩ := hexist.cases
    dsimp only
    rw [hfound, hfound']
    cases found with
    | true => exact hstate.transfer _ _ _
    | false => exact (hstate.createAccount _).transfer _ _ _
  | staticCall => exact h.addBalance _ _
  | callCode => exact h
  | delegateCall => exact h

theorem frame (c : PrecompileCall Ω) :
    Alike env ((s.canTransfer env c).2.snapshot.2.enterCall env c)
      ((t.canTransfer env c).2.snapshot.2.enterCall env c) :=
  (h.canTransfer c).2.snapshot.enterCall c

end Alike

theorem StateDB.canTransfer_frame_moves {s s₀ : StateDB Ω} (h : Moves env s₀ s)
    (c : PrecompileCall Ω) :
    Moves env s₀ ((s.canTransfer env c).2.snapshot.2.enterCall env c) :=
  ((h.trans (s.canTransfer_steps env c).moves).tail .snapshot).trans
    ((s.canTransfer env c).2.snapshot.2.enterCall_steps env c).moves

theorem StateDB.frame_counter (s : StateDB Ω) (c : PrecompileCall Ω) :
    ((s.canTransfer env c).2.snapshot.2.enterCall env c).precompileCallsCounter =
      s.precompileCallsCounter := by
  have hcan := (s.canTransfer_steps env c).sameControl.counter
  have henter := ((s.canTransfer env c).2.snapshot.2.enterCall_steps env c).sameControl.counter
  exact henter.trans hcan

theorem StateDB.frame_revision (s : StateDB Ω) (c : PrecompileCall Ω) :
    (((s.canTransfer env c).2.snapshot.2.enterCall env c).runPrecompile env c.precompile
        c.frame).2.validRevisions[(s.canTransfer env c).2.validRevisions.length]? =
      some ⟨(s.canTransfer env c).2.nextRevisionID,
        (s.canTransfer env c).2.journal.entries.length⟩ := by
  have henter := ((s.canTransfer env c).2.snapshot.2.enterCall_steps env c).sameControl
  rw [runPrecompile_validRevisions, henter.validRevisions]
  simp [snapshot]

section Calls

variable {ctx : Context Ω} {tx tx' : TxConfig} {s t : StateDB Ω}

theorem Alike.callCompletes (h : Alike env s t) (hs : Moves env (StateDB.new ctx tx) s)
    (ht : Moves env (StateDB.new ctx tx') t) (c : PrecompileCall Ω) :
    t.callCompletes env c = s.callCompletes env c := by
  have hs' := (StateDB.canTransfer_frame_moves hs c).reached.tracked
  have ht' := (StateDB.canTransfer_frame_moves ht c).reached.tracked
  obtain ⟨result, s₂, t₂, hbody, hbody', -⟩ :=
    ((h.frame c).runBody hs' ht' c.precompile c.frame).cases
  obtain ⟨enough, s₁, t₁, hcan, hcan', -⟩ := (h.canTransfer c).cases
  unfold StateDB.callCompletes
  rw [hcan] at hbody ⊢
  rw [hcan'] at hbody' ⊢
  cases enough with
  | false => rfl
  | true =>
    dsimp only
    rw [hbody, hbody']
    cases result <;> rfl

/-- **Calls keep states alike**, and return the same. -/
theorem Alike.callPrecompile (h : Alike env s t) (hs : Moves env (StateDB.new ctx tx) s)
    (ht : Moves env (StateDB.new ctx tx') t) (hbound : SameBound s t) (c : PrecompileCall Ω) :
    Option.Rel (AlikeResults env) (s.callPrecompile env c) (t.callPrecompile env c) := by
  obtain ⟨enough, s₁, t₁, hcan, hcan', hstate⟩ := (h.canTransfer c).cases
  have hframe := h.frame c
  have hs₂ := StateDB.canTransfer_frame_moves hs c
  have ht₂ := StateDB.canTransfer_frame_moves ht c
  have hplace := @StateDB.frame_revision Ω env s c
  have hplace' := @StateDB.frame_revision Ω env t c
  have hbound₂ : SameBound ((s.canTransfer env c).2.snapshot.2.enterCall env c)
      ((t.canTransfer env c).2.snapshot.2.enterCall env c) := by
    unfold SameBound
    rw [StateDB.frame_counter, StateDB.frame_counter]
    exact hbound
  unfold StateDB.callPrecompile
  rw [hcan] at hframe hs₂ hplace hbound₂ ⊢
  rw [hcan'] at hframe ht₂ hplace' hbound₂ ⊢
  cases enough with
  | false => exact .some ⟨rfl, hstate⟩
  | true =>
    dsimp only
    obtain ⟨err, s₃, t₃, hresult, hresult', hrun⟩ := (hframe.runPrecompile hs₂.reached.tracked
      ht₂.reached.tracked hbound₂ c.precompile c.frame).cases
    have hs₃ := hs₂.trans (runPrecompile_moves _ c.precompile c.frame)
    have ht₃ := ht₂.trans (runPrecompile_moves _ c.precompile c.frame)
    rw [hresult] at hs₃ hplace ⊢
    rw [hresult'] at ht₃ hplace' ⊢
    cases err with
    | none => exact .some ⟨rfl, hrun⟩
    | some e =>
      have hlength : t₁.validRevisions.length = s₁.validRevisions.length := by
        simpa using congrArg List.length hstate.marks
      rw [hlength] at hplace'
      exact Lockstep.rel_map (hrun.revertToSnapshot hs₃.reached.ordered ht₃.reached.ordered
        hplace hplace') fun _ _ h' => ⟨rfl, h'⟩

/-- The calls that an action makes. -/
def Action.calls : Action Ω → ℕ
  | .op _ => 0
  | .call _ => 1

/-- The calls of a run. -/
def callCount (as : List (Action Ω)) : ℕ := (as.map Action.calls).sum

/-- The counters are equal, or both over the bound for `n` more calls. -/
def SameCounts (n : ℕ) (s t : StateDB Ω) : Prop :=
  t.precompileCallsCounter = s.precompileCallsCounter ∨
    (maxPrecompileCalls ≤ s.precompileCallsCounter ∧
      maxPrecompileCalls ≤ t.precompileCallsCounter ∧
      s.precompileCallsCounter.toNat + n < 256 ∧ t.precompileCallsCounter.toNat + n < 256)

variable {n : ℕ}

theorem over_of_room {x : UInt8} (hx : maxPrecompileCalls ≤ x) (hroom : x.toNat + (n + 1) < 256) :
    maxPrecompileCalls < x + 1 ∧ maxPrecompileCalls ≤ x + 1 ∧ (x + 1).toNat + n < 256 := by
  have hsucc : (x + 1).toNat = x.toNat + 1 := by
    rw [UInt8.toNat_add]
    exact Nat.mod_eq_of_lt (by simpa using (by omega : x.toNat + 1 < 256))
  rw [UInt8.le_iff_toNat_le] at hx
  rw [UInt8.lt_iff_toNat_lt, UInt8.le_iff_toNat_le]
  omega

theorem SameCounts.sameBound (h : SameCounts (n + 1) s t) : Alike.SameBound s t := by
  unfold Alike.SameBound
  rcases h with heq | ⟨hs, ht, hroom, hroom'⟩
  · rw [heq]
  · exact iff_of_true (over_of_room ht hroom').1 (over_of_room hs hroom).1

theorem SameCounts.counted {s' t' : StateDB Ω} (h : SameCounts (n + 1) s t)
    (hs : s'.precompileCallsCounter = s.precompileCallsCounter + 1)
    (ht : t'.precompileCallsCounter = t.precompileCallsCounter + 1) : SameCounts n s' t' := by
  unfold SameCounts
  rw [hs, ht]
  rcases h with heq | ⟨hover, hover', hroom, hroom'⟩
  · exact .inl (by rw [heq])
  · have hnext := over_of_room hover hroom
    have hnext' := over_of_room hover' hroom'
    exact .inr ⟨hnext.2.1, hnext'.2.1, hnext.2.2, hnext'.2.2⟩

theorem SameCounts.uncounted {m : ℕ} {s' t' : StateDB Ω} (h : SameCounts m s t) (hnm : n ≤ m)
    (hs : s'.precompileCallsCounter = s.precompileCallsCounter)
    (ht : t'.precompileCallsCounter = t.precompileCallsCounter) : SameCounts n s' t' := by
  unfold SameCounts
  rw [hs, ht]
  rcases h with heq | ⟨hover, hover', hroom, hroom'⟩
  · exact .inl heq
  · exact .inr ⟨hover, hover', by omega, by omega⟩

/-- An action takes states that are alike to such states. -/
theorem Alike.action (h : Alike env s t) (hs : Moves env (new ctx tx) s)
    (ht : Moves env (new ctx tx') t) (a : Action Ω)
    (hcount : SameCounts (n + a.calls) s t) :
    Option.Rel (fun s' t' => Alike env s' t' ∧ SameCounts n s' t') (a.step env s)
      (a.step env t) := by
  cases a with
  | op o =>
    have hop := Lockstep.rel_results (h.op hs.reached.ordered ht.reached.ordered o)
    refine Lockstep.rel_imp hop fun s' t' ⟨h', hstep, hstep'⟩ => ⟨h', ?_⟩
    exact hcount.uncounted le_rfl (Op.step_counter hstep) (Op.step_counter hstep')
  | call c =>
    have hsame := h.callCompletes hs ht c
    have hcall := Lockstep.rel_results (h.callPrecompile hs ht hcount.sameBound c)
    refine Lockstep.rel_map hcall fun x y ⟨h', hx, hy⟩ => ⟨h'.2, ?_⟩
    -- the call completes in both states or in none, and so counts in both or in none
    rcases @StateDB.callPrecompile_counter Ω env s c with ⟨hdone, -, hs'⟩ | ⟨hdone, -, hs'⟩
    all_goals
      rcases @StateDB.callPrecompile_counter Ω env t c with ⟨hdone', -, ht'⟩ | ⟨hdone', -, ht'⟩
    · exact hcount.counted (hs' _ _ hx) (ht' _ _ hy)
    · exact absurd (hdone.symm.trans (hsame.symm.trans hdone')) (by decide)
    · exact absurd (hdone.symm.trans (hsame.symm.trans hdone')) (by decide)
    · exact hcount.uncounted (Nat.le_succ n) (hs' _ _ hx) (ht' _ _ hy)

/-- **Runs keep states alike.** -/
theorem Alike.run (as : List (Action Ω)) (h : Alike env s t)
    (hs : Moves env (new ctx tx) s) (ht : Moves env (new ctx tx') t)
    (hcount : SameCounts (callCount as) s t) :
    Option.Rel (fun s' t' => Alike env s' t' ∧ Moves env (new ctx tx) s' ∧
      Moves env (new ctx tx') t') (s.run env as) (t.run env as) := by
  induction as generalizing s t with
  | nil => exact .some ⟨h, hs, ht⟩
  | cons a as ih =>
    have hsum : callCount (a :: as) = callCount as + a.calls := by
      simp [callCount, Nat.add_comm]
    rw [hsum] at hcount
    refine Lockstep.rel_bind (Lockstep.rel_results (h.action hs ht a hcount)) ?_
    rintro s' t' ⟨⟨h', hcount'⟩, hstep, hstep'⟩
    exact ih h' (hs.trans (Action.moves hstep)) (ht.trans (Action.moves hstep')) hcount'

variable (env) in
/-- What a transaction leaves: an error and the store. -/
def StateDB.persisted (s : StateDB Ω) : Option Err × Store Ω :=
  ((s.commit env).1, (s.commit env).2.store)

theorem Alike.persisted (h : Alike env s t) (hs : Moves env (StateDB.new ctx tx) s)
    (ht : Moves env (StateDB.new ctx tx') t) : t.persisted env = s.persisted env := by
  have hcommit := h.commitWithCtx hs.reached.tracked ht.reached.tracked
  unfold StateDB.persisted StateDB.commit
  rw [StateDB.writeCache_store, StateDB.writeCache_store, hcommit, h.cacheStore]
  cases (s.commitWithCtx env).run s.cacheStore <;> rfl

end Calls

end TacEvm
