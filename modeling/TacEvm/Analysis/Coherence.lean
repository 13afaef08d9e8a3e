import TacEvm.Analysis.CallSpec
import TacEvm.Analysis.SlotTracking

/-!
# The two views of contract state

The `StateDB` does not learn of what a nested call writes in the cache context. The two views agree
in exactly the runs in which no handler changes a slot or a nonce; the runs are those in which every
call succeeds and none is reverted.
-/

namespace TacEvm

open Rollback StateDB JournalEntry StateObject Devnet

variable {Ω : Type} (env : Env)

/-! ## The values written last -/

/-- The last value of a slot: the handler's, if it changed it. -/
def lastSlot (s : StateDB Ω) (c : PrecompileCall Ω) (s' : StateDB Ω) (a : Address) (k : Hash) :
    Hash :=
  if s'.cacheStore.getState a k = (s.flushedStore env c).getState a k then (s.getState env a k).1
  else s'.cacheStore.getState a k

/-- The last written nonce after a call. -/
def lastNonce (s : StateDB Ω) (c : PrecompileCall Ω) (s' : StateDB Ω) (a : Address) : UInt64 :=
  if s'.cacheStore.getNonce a = (s.flushedStore env c).getNonce a then (s.getNonce env a).1
  else s'.cacheStore.getNonce a

/-- After the call the `StateDB` reads the values written last. -/
structure ReadsLast (s : StateDB Ω) (c : PrecompileCall Ω) (s' : StateDB Ω) : Prop where
  slots : ∀ a k, (s'.getState env a k).1 = lastSlot env s c s' a k
  nonces : ∀ a, (s'.getNonce env a).1 = lastNonce env s c s' a

/-- The handler leaves every slot and every nonce. -/
structure Silent (s : StateDB Ω) (c : PrecompileCall Ω) (s' : StateDB Ω) : Prop where
  slots : ∀ a k, s'.cacheStore.getState a k = (s.flushedStore env c).getState a k
  nonces : ∀ a, s'.cacheStore.getNonce a = (s.flushedStore env c).getNonce a

/-- A store that holds what the `StateDB` reads. -/
structure HoldsReadings (s : StateDB Ω) (st : Store Ω) : Prop where
  slots : ∀ a k, st.getState a k = (s.getState env a k).1
  nonces : ∀ a, st.getNonce a = (s.getNonce env a).1

/-! ## Runs without reverted calls -/

/-- An entry that neither replaces nor destroys an account. -/
def JournalEntry.inPlace : JournalEntry Ω → Bool
  | .resetObjectChange _ _ => false
  | .suicideChange _ _ _ => false
  | _ => true

/-- The calls in the journal. -/
def StateDB.journaledCalls (s : StateDB Ω) : ℕ := s.journal.entries.countP isCall

/-- A run whose calls succeed, on accounts in place, without reverts. -/
def StateDB.runLasting : StateDB Ω → List (Action Ω) → Option (StateDB Ω)
  | s, [] => some s
  | s, .op o :: as =>
    (o.step env s).bind fun s' =>
      if s'.journaledCalls = s.journaledCalls then s'.runLasting as else none
  | s, .call c :: as =>
    if s.journal.entries.all inPlace then
      match s.callPrecompile env c with
      | some (none, s') => s'.runLasting as
      | _ => none
    else none

/-- Addresses without an account have no storage. -/
def Store.NoOrphans (st : Store Ω) : Prop :=
  ∀ a, st.sequence a = none → ∀ k, st.getState a k = 0

/-! ## Entries before a call -/

variable {env}

/-- The entry was journaled before some call. -/
def BeforeCall (e : JournalEntry Ω) (log : List (JournalEntry Ω)) : Prop :=
  ∃ pre c post, log = pre ++ c :: post ∧ c.isCall = true ∧ e ∈ pre

variable {e : JournalEntry Ω} {log : List (JournalEntry Ω)}

theorem no_calls_dropped {n : ℕ} (h : (log.take n).countP isCall = log.countP isCall) :
    ∀ e ∈ log.drop n, e.isCall = false := by
  have hsum : log.countP isCall = (log.take n).countP isCall + (log.drop n).countP isCall := by
    rw [← List.countP_append, List.take_append_drop]
  have hzero : (log.drop n).countP isCall = 0 := by omega
  intro e he
  simpa using List.countP_eq_zero.mp hzero e he

namespace BeforeCall

theorem mem (h : BeforeCall e log) : e ∈ log := by
  obtain ⟨pre, c, post, rfl, -, he⟩ := h
  exact List.mem_append_left _ he

theorem append (h : BeforeCall e log) (es : List (JournalEntry Ω)) : BeforeCall e (log ++ es) := by
  obtain ⟨pre, c, post, rfl, hc, he⟩ := h
  exact ⟨pre, c, post ++ es, by simp, hc, he⟩

theorem take (h : BeforeCall e log) {n : ℕ}
    (hcalls : (log.take n).countP isCall = log.countP isCall) :
    BeforeCall e (log.take n) := by
  have hdropped := no_calls_dropped hcalls
  obtain ⟨pre, c, post, rfl, hc, he⟩ := h
  have hlt : pre.length < n := by
    by_contra hle
    push Not at hle
    have hmem : c ∈ (pre ++ c :: post).drop n := by
      rw [List.drop_append_of_le_length hle]
      simp
    exact absurd hc (by simp [hdropped c hmem])
  refine ⟨pre, c, post.take (n - pre.length - 1), ?_, hc, he⟩
  rw [List.take_append, List.take_of_length_le hlt.le]
  congr 1
  have hpos : n - pre.length = (n - pre.length - 1) + 1 := by omega
  rw [hpos, List.take_succ_cons]
  rfl

end BeforeCall

/-! ## Frames leave slots and nonces alone -/

/-- The two states read the same slots and nonces. -/
structure SameSlots (env : Env) (s s' : StateDB Ω) : Prop where
  slots : ∀ a k, (s'.getState env a k).1 = (s.getState env a k).1
  nonces : ∀ a, (s'.getNonce env a).1 = (s.getNonce env a).1

theorem SameSlots.refl (s : StateDB Ω) : SameSlots env s s := ⟨fun _ _ => rfl, fun _ => rfl⟩

variable {s s' : StateDB Ω}

theorem SameSlots.trans {s'' : StateDB Ω} (h : SameSlots env s s') (h' : SameSlots env s' s'') :
    SameSlots env s s'' :=
  ⟨fun a k => (h'.slots a k).trans (h.slots a k), fun a => (h'.nonces a).trans (h.nonces a)⟩

theorem SameSlots.of_observe (h : s'.observe env = s.observe env) : SameSlots env s s' := by
  refine ⟨fun a k => ?_, fun a => ?_⟩
  · rw [getState_eq, getState_eq, h]
  · rw [getNonce_eq, getNonce_eq, h]

theorem SameSlots.set {a : Address} {o : StateObject}
    (hslots : ∀ k, o.stateView s.ctx.store a k = (s.getState env a k).1)
    (hnonce : o.account.nonce = (s.getNonce env a).1) : SameSlots env s (s.setStateObject a o) := by
  refine ⟨fun b k => ?_, fun b => ?_⟩
  · rw [getState_eq, observe_setStateObject]
    by_cases hb : b = a
    · subst hb
      simpa [view] using hslots k
    · rw [getState_eq]
      simp [hb]
  · rw [getNonce_eq, observe_setStateObject]
    by_cases hb : b = a
    · subst hb
      simpa [view] using hnonce
    · rw [getNonce_eq]
      simp [hb]

/-- No step of a frame changes a slot. -/
theorem FrameStep.sameSlots (horphans : s.ctx.store.NoOrphans) (h : FrameStep env s s') :
    SameSlots env s s' := by
  cases h with
  | @lookup a o hobj =>
    refine SameSlots.set (fun k => ?_) ?_
    · simp [getState_eq, observe, hobj, view]
    · simp [getNonce_eq, observe, hobj, view]
  | @create a hobj =>
    have hload := (object_eq_none hobj).2
    have hsequence : s.ctx.store.sequence a = none := by simpa [Store.getAccount] using hload
    have happend : SameSlots env s (s.append (.createObjectChange a)) := SameSlots.of_observe rfl
    refine happend.trans (SameSlots.set (fun k => ?_) ?_)
    · have hzero : (newObject (newEmptyAccount env)).stateView s.ctx.store a k = 0 :=
        horphans a hsequence k
      rw [getState_eq]
      simpa [observe, hobj] using hzero
    · rw [getNonce_eq]
      simp [observe, hobj, newObject, newEmptyAccount]
  | @balance a o hobj amount =>
    have happend : SameSlots env s (s.append (.balanceChange a o.account.balance)) :=
      SameSlots.of_observe rfl
    refine happend.trans (SameSlots.set (fun k => ?_) ?_)
    · rw [getState_eq]
      simp only [observe, object_append, hobj]
      rfl
    · rw [getNonce_eq]
      simp only [observe, object_append, hobj]
      rfl
  | log log =>
    refine ⟨fun a k => ?_, fun a => ?_⟩
    · rw [getState_eq, getState_eq]
      rfl
    · rw [getNonce_eq, getNonce_eq]
      rfl
  | cache cache => exact SameSlots.of_observe rfl

theorem FrameSteps.sameSlots (horphans : s.ctx.store.NoOrphans) (h : FrameSteps env s s') :
    SameSlots env s s' := by
  induction h with
  | refl => exact SameSlots.refl s
  | tail hsteps hstep ih =>
    rw [← (FrameSteps.sameFrame hsteps).ctx] at horphans
    exact ih.trans (hstep.sameSlots horphans)

/-! ## What a commit writes -/

/-- Entries that stay say where the cache context differs. -/
structure Shadowed (ctx : Context Ω) (s : StateDB Ω) : Prop where
  slots : ∀ a k, s.cacheStore.getState a k ≠ ctx.store.getState a k →
    ∃ p, BeforeCall (.storageChange a k p) s.journal.entries
  nonces : ∀ a, s.cacheStore.getNonce a ≠ ctx.store.getNonce a →
    ∃ e, BeforeCall e s.journal.entries ∧ e.dirtied = some a

section Commit

variable {ctx : Context Ω} {tx : TxConfig} {s : StateDB Ω}

variable {a : Address} {k : Hash}

theorem getState_of_storage {st st' : Store Ω} (h : st'.storage a k = st.storage a k) :
    st'.getState a k = st.getState a k := by
  unfold Store.getState
  rw [h]

variable (hplace : s.journal.entries.all inPlace = true)
include hplace

theorem no_resets (a : Address) (prev : StateObject) :
    .resetObjectChange a prev ∉ s.journal.entries := by
  intro hmem
  exact absurd (List.all_eq_true.mp hplace _ hmem) (by simp [inPlace])

theorem Shadowed.slot_eq (hsh : Shadowed ctx s) (h : ¬ SlotWritten a k s.journal.entries) :
    s.cacheStore.getState a k = ctx.store.getState a k := by
  by_contra hne
  obtain ⟨p, hbefore⟩ := hsh.slots a k hne
  exact h (slotWritten_of_mem hbefore.mem (no_resets hplace a))

variable (hs : Moves env (new ctx tx) s)
include hs

theorem not_suicided {o : StateObject} (ho : s.stateObjects a = some o) : o.suicided = false := by
  by_contra hdead
  rw [Bool.not_eq_false] at hdead
  obtain ⟨prev, b, hmem⟩ := hs.reached.suicidesJournaled a _ (observe_of_live ho) hdead
  exact absurd (List.all_eq_true.mp hplace _ hmem) (by simp [inPlace])

theorem loaded_of_not_dirty (ha : a ∉ s.journal.dirties) :
    (s.observe env).objects a = loadedView env ctx.store a := by
  refine hs.reached.untouched a fun e he hacc => ?_
  cases e with
  | resetObjectChange b prev => exact no_resets hplace b prev he
  | _ => exact ha ((hs.reached.tracked.mem_dirties a).mpr ⟨_, he, hacc⟩)

theorem getState_of_not_written (horphans : ctx.store.NoOrphans)
    (h : ¬ SlotWritten a k s.journal.entries) :
    (s.getState env a k).1 = ctx.store.getState a k := by
  rw [getState_eq]
  cases hv : (s.observe env).objects a with
  | some v => exact hs.slotsUntouched a v hv k h
  | none =>
    have hclean : a ∉ s.journal.dirties := by
      intro hdirty
      obtain ⟨o, ho⟩ := hs.reached.tracked.live_of_dirty hdirty
      rw [observe_of_live ho] at hv
      cases hv
    rw [loaded_of_not_dirty hplace hs hclean] at hv
    have hsequence : ctx.store.sequence a = none := by
      simpa [loadedView, Store.getAccount] using hv
    exact (horphans a hsequence k).symm

theorem getNonce_of_not_dirty (ha : a ∉ s.journal.dirties) :
    (s.getNonce env a).1 = ctx.store.getNonce a := by
  rw [getNonce_eq, loaded_of_not_dirty hplace hs ha]
  unfold loadedView Store.getAccount Store.getNonce
  cases ctx.store.sequence a <;> rfl

/-- **What is committed is what is read**, in a shadowed state. -/
theorem Shadowed.holdsReadings (hsh : Shadowed ctx s) (horphans : ctx.store.NoOrphans)
    {st' : Store Ω} (hcommit : (s.commitWithCtx env).run s.cacheStore = .ok () st') :
    HoldsReadings env s st' := by
  have hdone := hs.reached.commitWithCtx_ok hcommit
  refine ⟨fun a k => ?_, fun a => ?_⟩
  · by_cases ha : a ∈ s.journal.dirties
    · obtain ⟨o, ho⟩ := hs.reached.tracked.live_of_dirty ha
      have hstate := congrArg AccountState.storage (hdone.accountState_dirty ha ho)
      have hslot := congrFun hstate k
      simp only [commitAccount, not_suicided hplace hs ho, Bool.false_eq_true, if_false] at hslot
      cases hk : o.dirtyStorage.lookup k with
      | some v =>
        rw [hk] at hslot
        have hread : (s.getState env a k).1 = v := by
          rw [getState_eq, observe_of_live ho]
          simp [view, stateView, hk]
        have hstored : st'.storage a k = some (hashBytes v) := hslot
        rw [hread, Store.getState, hstored]
        simp [length_hashBytes, bytesToHash_hashBytes]
      | none =>
        rw [hk] at hslot
        have hunwritten : ¬ SlotWritten a k s.journal.entries := by
          intro hwritten
          have hsome := hs.slotsTracked.objects a o (object_of_live ho) k hwritten
          rw [hk] at hsome
          cases hsome
        rw [getState_of_not_written hplace hs horphans hunwritten, ← hsh.slot_eq hplace hunwritten]
        exact getState_of_storage hslot
    · have hstate := congrArg AccountState.storage (hdone.accountState_clean ha)
      have hunwritten : ¬ SlotWritten a k s.journal.entries := by
        intro hwritten
        obtain ⟨p, hp⟩ := mem_of_slotWritten hwritten
        exact ha ((hs.reached.tracked.mem_dirties a).mpr ⟨_, hp, rfl⟩)
      rw [getState_of_not_written hplace hs horphans hunwritten, ← hsh.slot_eq hplace hunwritten]
      exact getState_of_storage (congrFun hstate k)
  · by_cases ha : a ∈ s.journal.dirties
    · obtain ⟨o, ho⟩ := hs.reached.tracked.live_of_dirty ha
      have hstate := congrArg AccountState.sequence (hdone.accountState_dirty ha ho)
      simp only [commitAccount, not_suicided hplace hs ho, Bool.false_eq_true, if_false] at hstate
      have hstored : st'.sequence a = some o.account.nonce := hstate
      rw [getNonce_eq, observe_of_live ho, Store.getNonce, hstored]
      rfl
    · have hstate := congrArg AccountState.sequence (hdone.accountState_clean ha)
      have hstored : st'.sequence a = s.cacheStore.sequence a := hstate
      rw [getNonce_of_not_dirty hplace hs ha]
      by_contra hne
      have hcache : s.cacheStore.getNonce a ≠ ctx.store.getNonce a := by
        intro heq
        exact hne (by rw [← heq, Store.getNonce, Store.getNonce, hstored])
      obtain ⟨e, hbefore, hdirtied⟩ := hsh.nonces a hcache
      exact ha ((hs.reached.tracked.mem_dirties a).mpr ⟨e, hbefore.mem, hdirtied⟩)

end Commit

/-! ## Steps of a run -/

section Steps

variable {ctx : Context Ω} {tx : TxConfig} {s s' : StateDB Ω}

theorem Shadowed.extend (h : Shadowed ctx s) {es : List (JournalEntry Ω)}
    (hcache : s'.cacheStore = s.cacheStore)
    (hentries : s'.journal.entries = s.journal.entries ++ es) : Shadowed ctx s' := by
  refine ⟨fun a k hne => ?_, fun a hne => ?_⟩
  · rw [hcache] at hne
    obtain ⟨p, hbefore⟩ := h.slots a k hne
    rw [hentries]
    exact ⟨p, hbefore.append es⟩
  · rw [hcache] at hne
    obtain ⟨e, hbefore, hdirtied⟩ := h.nonces a hne
    rw [hentries]
    exact ⟨e, hbefore.append es, hdirtied⟩

theorem Shadowed.snapshot (h : Shadowed ctx s) : Shadowed ctx s.snapshot.2 := by
  have hentries : s.snapshot.2.journal.entries = s.journal.entries ++ [] := by
    simp [StateDB.snapshot]
  exact h.extend rfl hentries

theorem Shadowed.steps (h : Shadowed ctx s) (hs : Moves env (new ctx tx) s)
    (hsteps : Steps env s s') : Shadowed ctx s' := by
  obtain ⟨es, hentries, -, -, -⟩ := hsteps.extension hs.reached.accessList
  have hcontrol := hsteps.sameControl
  exact h.extend (cacheStore_eq hcontrol.ctx hcontrol.cacheCtx) hentries

theorem Shadowed.revert (h : Shadowed ctx s) {revid : ℕ}
    (hrevert : s.revertToSnapshot env revid = some s')
    (hcalls : s'.journaledCalls = s.journaledCalls) : Shadowed ctx s' := by
  obtain ⟨idx, r, s₁, -, -, hroll, rfl⟩ := revertToSnapshot_cases hrevert
  have hcount : (s.journal.entries.take r.journalIndex).countP isCall =
      s.journal.entries.countP isCall := hcalls
  have hcache : s₁.cacheStore = s.cacheStore := by
    rw [(rollback_objects hroll).2]
    exact foldr_restore (no_calls_dropped hcount) _
  refine ⟨fun a k hne => ?_, fun a hne => ?_⟩
  · obtain ⟨p, hbefore⟩ := h.slots a k (hcache ▸ hne)
    exact ⟨p, hbefore.take hcount⟩
  · obtain ⟨e, hbefore, hdirtied⟩ := h.nonces a (hcache ▸ hne)
    exact ⟨e, hbefore.take hcount, hdirtied⟩

theorem Op.shadowed {o : Op} (h : Shadowed ctx s) (hs : Moves env (new ctx tx) s)
    (hstep : o.step env s = some s') (hcalls : s'.journaledCalls = s.journaledCalls) :
    Shadowed ctx s' := by
  cases o with
  | read r =>
    cases hstep
    exact h.steps hs (Read.steps s r)
  | write w => exact h.steps hs (Write.steps hstep)
  | snapshot =>
    cases hstep
    exact h.snapshot
  | revertToSnapshot place =>
    obtain ⟨r, -, hrevert⟩ := Option.bind_eq_some_iff.mp hstep
    exact h.revert hrevert hcalls

theorem inPlace_of_frame {log log' es : List (JournalEntry Ω)}
    (hplace : log.all inPlace = true) (hentries : log' = log ++ es)
    (hframe : ∀ e ∈ es, FrameEntry e) : log'.all inPlace = true := by
  have hes : es.all inPlace = true := by
    rw [List.all_eq_true]
    intro e he
    cases hframe e he <;> rfl
  rw [hentries, List.all_append, hplace, hes, Bool.and_self]

theorem FrameSteps.inPlace (h : FrameSteps env s s')
    (hplace : s.journal.entries.all inPlace = true) :
    s'.journal.entries.all inPlace = true ∧ ∃ es, s'.journal.entries = s.journal.entries ++ es := by
  obtain ⟨es, hentries, hframe⟩ := h.entries
  exact ⟨inPlace_of_frame hplace hentries hframe, es, hentries⟩

theorem StateDB.entered_inPlace (hplace : s.journal.entries.all inPlace = true)
    (c : PrecompileCall Ω) :
    (s.entered env c).journal.entries.all inPlace = true ∧
      ∃ es, (s.entered env c).journal.entries = s.journal.entries ++ es := by
  obtain ⟨es, hentries, hframe⟩ := @StateDB.entered_entries Ω env s c
  exact ⟨inPlace_of_frame hplace hentries hframe, es, hentries⟩

/-- What a successful call does from a shadowed state. -/
structure CallView (env : Env) (ctx : Context Ω) (s : StateDB Ω) (c : PrecompileCall Ω)
    (s' : StateDB Ω) : Prop where
  flushed : HoldsReadings env s (s.flushedStore env c)
  reads : SameSlots env s s'
  shadowed : Silent env s c s' → Shadowed ctx s'

/-- A call that succeeds keeps what the shadow reads. -/
theorem Shadowed.call (h : Shadowed ctx s) (hs : Moves env (new ctx tx) s)
    (hplace : s.journal.entries.all inPlace = true)
    (horphans : ctx.store.NoOrphans) {c : PrecompileCall Ω}
    (hcall : s.callPrecompile env c = some (none, s')) : CallView env ctx s c s' := by
  have hcan := s.canTransfer_steps env c
  have henter := (s.canTransfer env c).2.snapshot.2.enterCall_steps env c
  have hs₁ := (hs.canTransfer c).tail .snapshot
  have hs₂ := hs.entered c
  have hsh₂ : Shadowed ctx (s.entered env c) := (h.steps hs hcan).snapshot.steps hs₁ henter
  have hctx : s.ctx.store = ctx.store := congrArg Context.store hs.reached.sameCtx
  have hctx₁ : (s.canTransfer env c).2.snapshot.2.ctx.store = ctx.store :=
    congrArg Context.store hs₁.reached.sameCtx
  have hctx₂ : (s.entered env c).ctx.store = ctx.store :=
    congrArg Context.store hs₂.reached.sameCtx
  -- into the frame
  have hframe₁ := (s.canTransfer_value env c).frame
  have hframe₂ := ((s.canTransfer env c).2.snapshot.2.enterCall_value env c).frame
  have hsnapshot : SameSlots env (s.canTransfer env c).2 (s.canTransfer env c).2.snapshot.2 :=
    SameSlots.of_observe rfl
  have hreads₂ : SameSlots env s (s.entered env c) :=
    ((hframe₁.sameSlots (hctx ▸ horphans)).trans hsnapshot).trans
      (hframe₂.sameSlots (hctx₁ ▸ horphans))
  have hplace₂ := (@StateDB.entered_inPlace Ω env s hplace c).1
  -- through the body, up to the entry of the call
  have hspec := callPrecompile_spec hcall
  obtain ⟨s₁, hall, hs'⟩ := hspec.frame
  have hholds := hsh₂.holdsReadings hplace₂ hs₂ horphans hspec.flush
  obtain ⟨-, es, hentries⟩ := hall.inPlace hplace₂
  have hjournal : s'.journal.entries = ((s.entered env c).journal.entries ++ es) ++
      [.precompileCallChange (s.entered env c).cacheStore
        (s.entered env c).cacheContext.events] := by
    rw [hs', ← hentries]
    rfl
  have hbefore : ∀ e ∈ (s.entered env c).journal.entries, BeforeCall e s'.journal.entries :=
    fun e he => ⟨_, _, [], hjournal, rfl, List.mem_append_left _ he⟩
  refine ⟨⟨fun a k => ?_, fun a => ?_⟩, ?_, fun hsilent => ⟨fun a k hne => ?_, fun a hne => ?_⟩⟩
  · exact (hholds.slots a k).trans (hreads₂.slots a k)
  · exact (hholds.nonces a).trans (hreads₂.nonces a)
  · have hlast : SameSlots env s₁ s' := by
      rw [hs']
      exact SameSlots.of_observe rfl
    exact (hreads₂.trans (hall.sameSlots (hctx₂ ▸ horphans))).trans hlast
  -- where the flushed store differs from the context, something was written
  · rw [hsilent.slots, hholds.slots] at hne
    obtain ⟨p, hp⟩ := mem_of_slotWritten (not_not.mp fun hunwritten =>
      hne (getState_of_not_written hplace₂ hs₂ horphans hunwritten))
    exact ⟨p, hbefore _ hp⟩
  · rw [hsilent.nonces, hholds.nonces] at hne
    obtain ⟨e, he, hdirtied⟩ := (hs₂.reached.tracked.mem_dirties a).mp (not_not.mp fun hclean =>
      hne (getNonce_of_not_dirty hplace₂ hs₂ hclean))
    exact ⟨e, hbefore e he, hdirtied⟩

theorem CallView.readsLast_iff {c : PrecompileCall Ω} (h : CallView env ctx s c s') :
    ReadsLast env s c s' ↔ Silent env s c s' := by
  constructor
  · intro hreads
    refine ⟨fun a k => ?_, fun a => ?_⟩
    · have hlast := hreads.slots a k
      unfold lastSlot at hlast
      split at hlast
      · assumption
      · rw [← hlast, h.reads.slots, h.flushed.slots]
    · have hlast := hreads.nonces a
      unfold lastNonce at hlast
      split at hlast
      · assumption
      · rw [← hlast, h.reads.nonces, h.flushed.nonces]
  · intro hsilent
    refine ⟨fun a k => ?_, fun a => ?_⟩
    · rw [lastSlot, if_pos (hsilent.slots a k)]
      exact h.reads.slots a k
    · rw [lastNonce, if_pos (hsilent.nonces a)]
      exact h.reads.nonces a

end Steps

theorem shadowed_new (ctx : Context Ω) (tx : TxConfig) : Shadowed ctx (new ctx tx) :=
  ⟨fun _ _ hne => absurd rfl hne, fun _ hne => absurd rfl hne⟩

/-- Silent calls keep the state shadowed, and read the last values. -/
theorem runLasting_iff {ctx : Context Ω} {tx : TxConfig} {as : List (Action Ω)}
    (horphans : ctx.store.NoOrphans) (h : Shadowed ctx s) (hs : Moves env (new ctx tx) s)
    (hrun : s.runLasting env as = some s') :
    (s.forCalls env (ReadsLast env) as ↔ s.forCalls env (Silent env) as) ∧
      (s.forCalls env (Silent env) as → Shadowed ctx s' ∧ Moves env (new ctx tx) s') := by
  induction as generalizing s with
  | nil =>
    cases hrun
    exact ⟨Iff.rfl, fun _ => ⟨h, hs⟩⟩
  | cons a as ih =>
    cases a with
    | op o =>
      obtain ⟨s₁, hstep, hrest⟩ := Option.bind_eq_some_iff.mp hrun
      split at hrest
      · rename_i hcalls
        obtain ⟨hiff, hend⟩ := ih (Op.shadowed h hs hstep hcalls) (hs.trans (Op.moves hstep)) hrest
        have hsame : ∀ P : StateDB Ω → PrecompileCall Ω → StateDB Ω → Prop,
            s.forCalls env P (.op o :: as) ↔ s₁.forCalls env P as := by
          intro P
          simp [forCalls, hstep]
        rw [hsame, hsame]
        exact ⟨hiff, hend⟩
      · cases hrest
    | call c =>
      unfold runLasting at hrun
      split at hrun
      · rename_i hplace
        split at hrun
        · rename_i s₁ hcall
          have hview := h.call hs hplace horphans hcall
          have hmoves := hs.trans (callPrecompile_moves hcall)
          have hsame : ∀ P : StateDB Ω → PrecompileCall Ω → StateDB Ω → Prop,
              s.forCalls env P (.call c :: as) ↔ P s c s₁ ∧ s₁.forCalls env P as := by
            intro P
            simp [forCalls, hcall]
          rw [hsame, hsame]
          refine ⟨?_, fun ⟨hsilent, hrest⟩ => (ih (hview.shadowed hsilent) hmoves hrun).2 hrest⟩
          rw [hview.readsLast_iff]
          constructor
          · rintro ⟨hsilent, hrest⟩
            exact ⟨hsilent, (ih (hview.shadowed hsilent) hmoves hrun).1.mp hrest⟩
          · rintro ⟨hsilent, hrest⟩
            exact ⟨hsilent, (ih (hview.shadowed hsilent) hmoves hrun).1.mpr hrest⟩
        · cases hrun
      · cases hrun

/-- **Coherence of the two views.** Reads and `Commit` give the values written last if and only if
no handler changes a slot or a nonce. -/
theorem coherent_iff {ctx : Context Ω} {tx : TxConfig} {s : StateDB Ω} {as : List (Action Ω)}
    (horphans : ctx.store.NoOrphans) (hrun : (StateDB.new ctx tx).runLasting env as = some s)
    (hplace : s.journal.entries.all JournalEntry.inPlace = true) :
    ((StateDB.new ctx tx).forCalls env (ReadsLast env) as ∧
        ∀ ctx', s.commit env = (none, ctx') → HoldsReadings env s ctx'.store) ↔
      (StateDB.new ctx tx).forCalls env (Silent env) as := by
  have hnew : Moves env (StateDB.new ctx tx) (StateDB.new ctx tx) := .refl
  obtain ⟨hiff, hend⟩ := runLasting_iff horphans (shadowed_new ctx tx) hnew hrun
  rw [hiff]
  refine ⟨And.left, fun hsilent => ⟨hsilent, fun ctx' hcommit => ?_⟩⟩
  obtain ⟨hshadowed, hs⟩ := hend hsilent
  have hresult := StateDB.commit_ok hcommit
  rw [StateDB.writeCache_store] at hresult
  exact hshadowed.holdsReadings hplace hs horphans hresult

/-- A contract writes a slot, calls a precompile and writes again. -/
def Devnet.interleaved (handler : Handler Unit) : List (Action Unit) :=
  [.op (.write (.setState 0xA1 1 2)), .call ⟨.call, precompile handler, frame 0xA1 [0, 0, 0, 1]⟩,
    .op (.write (.setNonce 0xA1 9))]

theorem coherent_iff_devnet :
    ∃ s, accountsState.runLasting env6 (interleaved idle) = some s ∧
      ((accountsState.forCalls
          env6 (ReadsLast env6)
          (interleaved idle) ∧
        ∀ ctx', s.commit env6 = (none, ctx') → HoldsReadings env6 s ctx'.store) ↔
        accountsState.forCalls
          env6 (Silent env6)
          (interleaved idle)) := by
  have horphans : accountsStore.NoOrphans := fun _ _ _ => rfl
  obtain ⟨s, hrun, hplace⟩ : ∃ s,
      accountsState.runLasting env6 (interleaved idle) = some s ∧
      s.journal.entries.all JournalEntry.inPlace = true := ⟨_, rfl, rfl⟩
  exact ⟨s, hrun, coherent_iff horphans hrun hplace⟩

/-- A handler whose nested call writes a slot of `0xA1`. -/
def Devnet.nestedWrite : Handler Unit := fun _ st =>
  { store := st.setState 0xA1 1 (hashBytes 7), events := [], logs := [], cost := 0
    result := .ok [] }

/-- **A nested write that is lost** to the value of before. -/
theorem nestedWrite_lost :
    ∃ s, accountsState.runLasting env6 (interleaved nestedWrite) = some s ∧
      s.cacheStore.getState 0xA1 1 = 7 ∧
      (s.getState env6 0xA1 1).1 = 2 ∧
      (s.commit env6).1 = none ∧
      (s.commit env6).2.store.getState 0xA1 1 = 2 :=
  ⟨_, rfl, by decide, by decide, by decide, by decide⟩

end TacEvm
