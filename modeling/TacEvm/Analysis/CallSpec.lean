import TacEvm.Analysis.StoreInvariant
import TacEvm.Library.Ledger

/-!
# A call that succeeds

`Succeeded` says what a successful call comes to: which store the handler was given and which it
left, what every balance is afterwards, and how the journal grew.
-/

namespace TacEvm

open FallibleState StateDB

variable {Ω : Type} {env : Env}

/-- What a change adds to an account if amounts are counted by `f`. -/
def BalanceChangeEntry.net (f : ℤ → ℤ) (e : BalanceChangeEntry) (a : Address) : ℤ :=
  if a = e.account then
    match e.op with
    | .sub => -f e.amount
    | .add => f e.amount
  else 0

/-- What changes add to an account if amounts are counted by `f`. -/
def netChange (f : ℤ → ℤ) (entries : BalanceChanges) (a : Address) : ℤ :=
  (entries.map fun e => e.net f a).sum

@[simp]
theorem netChange_nil (f : ℤ → ℤ) (a : Address) : netChange f [] a = 0 := rfl

@[simp]
theorem netChange_cons (f : ℤ → ℤ) (e : BalanceChangeEntry) (entries : BalanceChanges)
    (a : Address) : netChange f (e :: entries) a = e.net f a + netChange f entries a := by
  simp [netChange]

theorem StateDB.applyBalanceChanges_getBalance (s : StateDB Ω)
    (entries : BalanceChanges) (a : Address) :
    ((entries.foldl (applyBalanceChange env) s).getBalance env a).1 =
      (s.getBalance env a).1 + netChange env.adjustExtraDecimals entries a := by
  induction entries generalizing s with
  | nil => simp
  | cons e entries ih =>
    have hfirst : ((s.applyBalanceChange env e).getBalance env a).1 =
        (s.getBalance env a).1 + e.net env.adjustExtraDecimals a := by
      unfold applyBalanceChange BalanceChangeEntry.net
      cases e.op with
      | sub =>
        rw [subBalance_getBalance]
        dsimp only
        split <;> omega
      | add =>
        rw [addBalance_getBalance]
    rw [List.foldl_cons, ih, hfirst, netChange_cons]
    omega

variable (env) in
/-- What a value adds to an account, in whole bank units. -/
def valueSent (sender recipient : Address) (amount : ℤ) (a : Address) : ℤ :=
  Ledger.Payment.net ⟨sender, recipient, fun _ : Unit => env.adjustExtraDecimals amount⟩ a ()

variable (env) in
/-- What the value of a call adds to an account. -/
def PrecompileCall.valueMoved (c : PrecompileCall Ω) (a : Address) : ℤ :=
  if c.kind = .call then valueSent env c.frame.caller c.precompile.address c.frame.value a else 0

namespace StateDB

theorem getBalance_congr {s s' : StateDB Ω} (h : s'.object env = s.object env) (a : Address) :
    (s'.getBalance env a).1 = (s.getBalance env a).1 := by
  rw [getBalance_eq, getBalance_eq, h]

theorem object_readObject {β : Type} (s : StateDB Ω) (a : Address) (dflt : β)
    (f : StateObject → StateObject × β) (hf : ∀ o, (f o).1 = o) :
    (s.readObject env a dflt f).2.object env = s.object env := by
  unfold readObject
  rw [getStateObject_eq]
  cases hobj : s.object env a with
  | none => rfl
  | some o =>
    dsimp only
    rw [hf o, setStateObject_setStateObject, object_setStateObject, ← hobj, Function.update_eq_self]

theorem object_canTransfer (s : StateDB Ω) (c : PrecompileCall Ω) :
    (s.canTransfer env c).2.object env = s.object env := by
  have hread : (s.getBalance env c.frame.caller).2.object env = s.object env :=
    object_readObject s c.frame.caller _ _ fun _ => rfl
  have hchecked : (if c.frame.value = 0 then (true, s) else
      (decide (c.frame.value ≤ (s.getBalance env c.frame.caller).1),
        (s.getBalance env c.frame.caller).2)).2.object env = s.object env := by
    split
    · rfl
    · exact hread
  unfold canTransfer
  cases c.kind with
  | call => exact hchecked
  | callCode => exact hchecked
  | delegateCall => rfl
  | staticCall => rfl

theorem createAccount_getBalance {s : StateDB Ω} {addr : Address}
    (hobj : s.object env addr = none) (a : Address) :
    ((s.createAccount env addr).getBalance env a).1 = (s.getBalance env a).1 := by
  unfold createAccount createObject
  rw [getStateObject_eq, hobj]
  rw [getBalance_eq, getBalance_eq, object_setStateObject, object_append]
  by_cases ha : a = addr
  · subst ha
    simp [hobj, newObject, newEmptyAccount]
  · rw [Function.update_of_ne ha]

theorem addLogs_getBalance (s : StateDB Ω) (logs : List EmittedLog)
    (a : Address) :
    ((logs.foldl (fun s log => s.addLog log.1 log.2.1 log.2.2) s).getBalance env a).1 =
      (s.getBalance env a).1 := by
  induction logs generalizing s with
  | nil => rfl
  | cons log logs ih =>
    have hlog : (s.addLog log.1 log.2.1 log.2.2).object env = s.object env := rfl
    rw [List.foldl_cons, ih, getBalance_congr hlog]

theorem sendValue_getBalance (s : StateDB Ω) (sender recipient : Address) (amount : ℤ)
    (a : Address) :
    ((s.sendValue env sender recipient amount).getBalance env a).1 = (s.getBalance env a).1 +
      valueSent env sender recipient amount a := by
  unfold sendValue valueSent Ledger.Payment.net
  rw [transfer_getBalance]
  unfold exist readObject
  rw [getStateObject_eq]
  cases hobj : s.object env recipient with
  | some o =>
    dsimp only
    rw [setStateObject_setStateObject]
    have hsame : (s.setStateObject recipient o).object env = s.object env := by
      rw [object_setStateObject, ← hobj, Function.update_eq_self]
    rw [getBalance_congr hsame]
    omega
  | none =>
    dsimp only
    rw [createAccount_getBalance hobj]
    omega

theorem snapshot_getBalance (s : StateDB Ω) (c : PrecompileCall Ω) (a : Address) :
    ((s.canTransfer env c).2.snapshot.2.getBalance env a).1 = (s.getBalance env a).1 := by
  have hsnapshot : (s.canTransfer env c).2.snapshot.2.object env =
      (s.canTransfer env c).2.object env := rfl
  exact getBalance_congr (hsnapshot.trans (object_canTransfer s c)) a

theorem entered_getBalance (s : StateDB Ω) (c : PrecompileCall Ω) (a : Address) :
    ((s.entered env c).getBalance env a).1 = (s.getBalance env a).1 + c.valueMoved env a := by
  unfold entered enterCall PrecompileCall.valueMoved
  rw [← snapshot_getBalance s c a]
  generalize (s.canTransfer env c).2.snapshot.2 = s₁
  cases c.kind with
  | call => exact sendValue_getBalance s₁ _ _ _ a
  | staticCall =>
    rw [addBalance_getBalance]
    simp [Env.adjustExtraDecimals]
  | callCode => simp
  | delegateCall => simp

end StateDB

/-- The entries that the steps of a frame add to the journal. -/
inductive FrameEntry : JournalEntry Ω → Prop
  | create (a : Address) : FrameEntry (.createObjectChange a)
  | balance (a : Address) (prev : ℤ) : FrameEntry (.balanceChange a prev)
  | log : FrameEntry .addLogChange

section Frames

variable {s s' : StateDB Ω}

theorem FrameStep.entries (h : FrameStep env s s') :
    ∃ es, s'.journal.entries = s.journal.entries ++ es ∧ ∀ e ∈ es, FrameEntry e := by
  cases h with
  | @create a hobj => exact ⟨[.createObjectChange a], rfl, by simp [FrameEntry.create]⟩
  | @balance a o hobj amount =>
    exact ⟨[.balanceChange a o.account.balance], rfl, by simp [FrameEntry.balance]⟩
  | log log => exact ⟨[.addLogChange], rfl, by simp [FrameEntry.log]⟩
  | _ => exact ⟨[], (List.append_nil _).symm, by simp⟩

theorem FrameSteps.entries (h : FrameSteps env s s') :
    ∃ es, s'.journal.entries = s.journal.entries ++ es ∧ ∀ e ∈ es, FrameEntry e := by
  induction h with
  | refl => exact ⟨[], (List.append_nil _).symm, by simp⟩
  | tail _ hstep ih =>
    obtain ⟨es₁, hentries₁, hframe₁⟩ := ih
    obtain ⟨es₂, hentries₂, hframe₂⟩ := hstep.entries
    refine ⟨es₁ ++ es₂, ?_, fun e he => ?_⟩
    · rw [hentries₂, hentries₁, List.append_assoc]
    · rcases List.mem_append.mp he with he | he
      · exact hframe₁ e he
      · exact hframe₂ e he

/-- A step keeps a balance, or journals it. -/
theorem FrameStep.getBalance (h : FrameStep env s s') (a : Address) :
    (s'.getBalance env a).1 = (s.getBalance env a).1 ∨
      ∃ prev, .balanceChange a prev ∈ s'.journal.entries := by
  cases h with
  | @lookup b o hobj =>
    have hsame : (s.setStateObject b o).object env = s.object env := by
      rw [object_setStateObject, ← hobj, Function.update_eq_self]
    exact .inl (getBalance_congr hsame a)
  | @create b hobj =>
    left
    rw [getBalance_eq, getBalance_eq, object_setStateObject, object_append]
    by_cases ha : a = b
    · subst ha
      simp [hobj, newObject, newEmptyAccount]
    · rw [Function.update_of_ne ha]
  | @balance b o hobj amount =>
    by_cases ha : a = b
    · subst ha
      right
      exact ⟨o.account.balance, List.mem_append_right _ (List.mem_singleton_self _)⟩
    · left
      unfold setObjectBalance
      rw [getBalance_eq, getBalance_eq, object_setStateObject,
        object_append, Function.update_of_ne ha]
  | _ =>
    left
    rw [getBalance_eq, getBalance_eq]
    rfl

theorem FrameSteps.getBalance (h : FrameSteps env s s') (a : Address) :
    (s'.getBalance env a).1 = (s.getBalance env a).1 ∨
      ∃ prev, .balanceChange a prev ∈ s'.journal.entries := by
  induction h with
  | refl => exact .inl rfl
  | tail _ hstep ih =>
    rcases hstep.getBalance a with hsame | hentry
    · rcases ih with ih | ⟨prev, ih⟩
      · exact .inl (hsame.trans ih)
      · obtain ⟨es, hentries, -⟩ := hstep.entries
        refine .inr ⟨prev, ?_⟩
        rw [hentries]
        exact List.mem_append_left _ ih
    · exact .inr hentry

theorem StateDB.hasSuicided_eq (s : StateDB Ω) (a : Address) :
    (s.hasSuicided env a).1 = (s.object env a).elim false StateObject.suicided := by
  unfold hasSuicided readObject
  rw [getStateObject_eq]
  cases s.object env a <;> rfl

theorem FrameStep.hasSuicided (h : FrameStep env s s') (a : Address) :
    (s'.hasSuicided env a).1 = (s.hasSuicided env a).1 := by
  have hset : ∀ (s₁ : StateDB Ω) (b : Address) (o : StateObject), s₁.object env = s.object env →
      o.suicided = (s.object env b).elim false StateObject.suicided →
      ((s₁.setStateObject b o).hasSuicided env a).1 = (s.hasSuicided env a).1 := by
    intro s₁ b o hs₁ ho
    rw [hasSuicided_eq, hasSuicided_eq, object_setStateObject, hs₁]
    by_cases ha : a = b
    · subst ha
      simp [ho]
    · rw [Function.update_of_ne ha]
  cases h with
  | lookup hobj => exact hset s _ _ rfl (by rw [hobj]; rfl)
  | create hobj => exact hset _ _ _ rfl (by rw [hobj]; rfl)
  | balance hobj amount => exact hset _ _ _ rfl (by rw [hobj]; rfl)
  | _ => rw [hasSuicided_eq, hasSuicided_eq]; rfl

theorem FrameSteps.hasSuicided (h : FrameSteps env s s') (a : Address) :
    (s'.hasSuicided env a).1 = (s.hasSuicided env a).1 := by
  induction h with
  | refl => rfl
  | tail _ hstep ih => exact (hstep.hasSuicided a).trans ih

theorem StateDB.entered_entries (s : StateDB Ω) (c : PrecompileCall Ω) :
    ∃ es, (s.entered env c).journal.entries = s.journal.entries ++ es ∧ ∀ e ∈ es, FrameEntry e := by
  obtain ⟨es₁, hentries₁, hframe₁⟩ := (s.canTransfer_value env c).frame.entries
  obtain ⟨es₂, hentries₂, hframe₂⟩ :=
    ((s.canTransfer env c).2.snapshot.2.enterCall_value env c).frame.entries
  have hsnapshot : (s.canTransfer env c).2.snapshot.2.journal.entries =
      (s.canTransfer env c).2.journal.entries := rfl
  refine ⟨es₁ ++ es₂, ?_, fun e he => ?_⟩
  · rw [entered, hentries₂, hsnapshot, hentries₁, List.append_assoc]
  · rcases List.mem_append.mp he with he | he
    · exact hframe₁ e he
    · exact hframe₂ e he

theorem StateDB.entered_hasSuicided (s : StateDB Ω) (c : PrecompileCall Ω) (a : Address) :
    ((s.entered env c).hasSuicided env a).1 = (s.hasSuicided env a).1 := by
  have hsnapshot : ((s.canTransfer env c).2.snapshot.2.hasSuicided env a).1 =
      ((s.canTransfer env c).2.hasSuicided env a).1 := by
    rw [hasSuicided_eq, hasSuicided_eq]
    rfl
  exact ((enterCall_value env _ c).frame.hasSuicided a).trans
    (hsnapshot.trans ((s.canTransfer_value env c).frame.hasSuicided a))

end Frames

section Flushes

variable {ctx : Context Ω} {tx : TxConfig} {s s' : StateDB Ω} {st st' : Store Ω} {a : Address}

theorem clean_before (hs : Moves env (new ctx tx) s)
    (hs' : Moves env (new ctx tx) s') {es : List (JournalEntry Ω)}
    (hentries : s'.journal.entries = s.journal.entries ++ es) (ha : a ∉ s'.journal.dirties) :
    a ∉ s.journal.dirties := by
  intro hdirty
  obtain ⟨e, he, hdirtied⟩ := (hs.reached.tracked.mem_dirties a).mp hdirty
  refine ha ((hs'.reached.tracked.mem_dirties a).mpr ⟨e, ?_, hdirtied⟩)
  rw [hentries]
  exact List.mem_append_left _ he

theorem commit_dirty (hs : Moves env (new ctx tx) s)
    (h : (s.commitWithCtx env).run st = .ok () st') (ha : a ∈ s.journal.dirties)
    (halive : (s.hasSuicided env a).1 = false) :
    (st'.balance a env.evmDenom : ℤ) * env.conversionFactor = (s.getBalance env a).1 := by
  have hdone := hs.reached.commitWithCtx_ok h
  obtain ⟨o, ho, hnonneg⟩ := hdone.live a ((mem_sortedDirties s.journal a).mpr ha)
  rw [hasSuicided_of_live ho] at halive
  have hstate := congrFun (congrArg AccountState.balance (hdone.accountState_dirty ha ho))
    env.evmDenom
  have hunits : st'.balance a env.evmDenom = o.bankUnits env := by
    simpa [commitAccount, halive, Store.accountState] using hstate
  rw [hunits, bankUnits_mul (hs.reached.dvd_balance a o ho) (hnonneg halive), getBalance_of_live ho]

theorem commit_clean (hs : Moves env (new ctx tx) s)
    (h : (s.commitWithCtx env).run st = .ok () st') (ha : a ∉ s.journal.dirties) :
    st'.balance a env.evmDenom = st.balance a env.evmDenom :=
  congrFun (congrArg AccountState.balance
    ((hs.reached.commitWithCtx_ok h).accountState_clean ha)) env.evmDenom

theorem hasSuicided_of_clean (hs : Moves env (new ctx tx) s)
    (ha : a ∉ s.journal.dirties) : (s.hasSuicided env a).1 = false := by
  by_contra hdead
  rw [Bool.not_eq_false, hasSuicided_eq] at hdead
  cases hobj : s.object env a with
  | none =>
    rw [hobj] at hdead
    cases hdead
  | some o =>
    rw [hobj] at hdead
    have hview : (s.observe env).objects a = some (o.view env s.ctx.store a) := by
      rw [observe_objects, hobj]
      rfl
    obtain ⟨prev, b, hmem⟩ := hs.reached.suicidesJournaled a _ hview hdead
    exact ha ((hs.reached.tracked.mem_dirties a).mpr ⟨_, hmem, rfl⟩)

variable (env) in
/-- The bank has what the `StateDB` has, or is about to. -/
def StateDB.InSync (s : StateDB Ω) (a : Address) : Prop :=
  if a ∈ s.journal.dirties then (s.hasSuicided env a).1 = false
  else (s.cacheStore.balance a env.evmDenom : ℤ) * env.conversionFactor = (s.getBalance env a).1

/-- In the store of a handler an account in sync has its balance. -/
theorem StateDB.InSync.flushed (hsync : s.InSync env a) (hs : Moves env (new ctx tx) s)
    {c : PrecompileCall Ω} (hflush : ((s.entered env c).commitWithCtx env).run s.cacheStore =
      .ok () (s.flushedStore env c)) :
    ((s.flushedStore env c).balance a env.evmDenom : ℤ) * env.conversionFactor =
      (s.getBalance env a).1 + c.valueMoved env a := by
  obtain ⟨es, hentries, -⟩ := @StateDB.entered_entries Ω env s c
  have hentered := hs.entered c
  have hbalance := @StateDB.entered_getBalance Ω env s c a
  by_cases ha : a ∈ (s.entered env c).journal.dirties
  · have halive : ((s.entered env c).hasSuicided env a).1 = false := by
      rw [s.entered_hasSuicided]
      by_cases hdirty : a ∈ s.journal.dirties
      · simpa [InSync, hdirty] using hsync
      · exact hasSuicided_of_clean hs hdirty
    rw [commit_dirty hentered hflush ha halive, hbalance]
  · have hclean := clean_before hs hentered hentries ha
    -- an account that is not dirty was not moved any value
    have hsame : ((s.entered env c).getBalance env a).1 = (s.getBalance env a).1 := by
      rcases (enterCall_value env (s.canTransfer env c).2.snapshot.2 c).frame.getBalance a with
        hsame | ⟨prev, hmem⟩
      · exact hsame.trans (snapshot_getBalance s c a)
      · exact absurd ((hentered.reached.tracked.mem_dirties a).mpr ⟨_, hmem, rfl⟩) ha
    have hheld : (s.cacheStore.balance a env.evmDenom : ℤ) * env.conversionFactor =
        (s.getBalance env a).1 := by
      simpa [InSync, hclean] using hsync
    rw [commit_clean hentered hflush ha, hheld]
    omega

end Flushes

/-- The balance changes that a handler registers. -/
def PrecompileCall.entries (c : PrecompileCall Ω) (st : Store Ω) : BalanceChanges :=
  match c.precompile.prepare c.frame with
  | .error _ => []
  | .ok handler =>
    match (handler c.frame st).result with
    | .error _ => []
    | .ok entries => entries

/-- What a call that succeeds did. -/
structure Succeeded (env : Env) (s : StateDB Ω) (c : PrecompileCall Ω) (s' : StateDB Ω) :
    Prop where
  flush : ((s.entered env c).commitWithCtx env).run (s.entered env c).cacheStore =
    .ok () (s.flushedStore env c)
  handler : ∃ handler, c.precompile.prepare c.frame = .ok handler ∧
    (handler c.frame (s.flushedStore env c)).result = .ok (c.entries (s.flushedStore env c))
  cacheStore : s'.cacheStore = c.effect (s.flushedStore env c)
  balance : ∀ a, (s'.getBalance env a).1 = (s.getBalance env a).1 + c.valueMoved env a +
    netChange env.adjustExtraDecimals (c.entries (s.flushedStore env c)) a
  frame : ∃ s₁, FrameSteps env (s.entered env c) s₁ ∧
    s' = s₁.journalCall (s.entered env c).cacheStore (s.entered env c).cacheContext.events

variable {s s' : StateDB Ω} {c : PrecompileCall Ω}

theorem Succeeded.run_of_prepare {emitted : Frame → Store Ω → Emitted}
    {method : Frame → KeeperM Ω BalanceChanges} (h : Succeeded env s c s')
    (hprepare : c.precompile.prepare c.frame = .ok (Handler.of emitted method)) :
    (method c.frame).run (s.flushedStore env c) =
      .ok (c.entries (s.flushedStore env c)) s'.cacheStore := by
  obtain ⟨handler, hprepare', hresult⟩ := h.handler
  cases hprepare.symm.trans hprepare'
  have hstore : s'.cacheStore =
      (Handler.of emitted method c.frame (s.flushedStore env c)).store := by
    rw [h.cacheStore, PrecompileCall.effect, hprepare]
  rw [hstore]
  exact Handler.of_ok hresult

theorem Succeeded.method {Call : Type} {name : Call → String} {abi : Abi Ω name}
    {method : Call → Frame → KeeperM Ω BalanceChanges} (h : Succeeded env s c s')
    (hp : c.precompile.unpack = fun m bz =>
      (abi.unpack m bz).map fun call => Handler.of (abi.emitted call) (method call)) :
    ∃ call, (method call c.frame).run (s.flushedStore env c) =
      .ok (c.entries (s.flushedStore env c)) s'.cacheStore := by
  obtain ⟨handler, hprepare, hresult⟩ := h.handler
  obtain ⟨m, bz, -, hunpack⟩ := Precompile.prepare_ok hprepare
  rw [hp] at hunpack
  obtain ⟨call, -, rfl⟩ := except_map_ok.mp hunpack
  exact ⟨call, h.run_of_prepare hprepare⟩

/-- What a body that succeeds has run. -/
theorem StateDB.runBody_ok {entries : BalanceChanges}
    (h : (s.runBody env c.precompile c.frame).1 = .ok entries) :
    (∃ handler, c.precompile.prepare c.frame = .ok handler ∧
      (handler c.frame (s.flush env).2.cacheStore).result = .ok entries) ∧
    (s.runBody env c.precompile c.frame).2.cacheStore = c.effect (s.flush env).2.cacheStore ∧
    ∀ a, ((s.runBody env c.precompile c.frame).2.getBalance env a).1 = (s.getBalance env a).1 := by
  obtain ⟨st, hflush⟩ := s.flush_eq env
  obtain ⟨e, hbody⟩ | ⟨e, hbody⟩ | ⟨handler, result, -, hprepare, hresult, hbody⟩ :=
    s.runBody_cases env c.precompile c.frame
  · rw [hbody] at h
    cases h
  · rw [hbody] at h
    cases h
  rw [hbody] at h ⊢
  refine ⟨⟨handler, hprepare, hresult entries h⟩, ?_, fun a => ?_⟩
  · unfold PrecompileCall.effect
    rw [hprepare]
    exact applyHandlerOutput_cacheStore env _ _
  have hcache : ∀ cache, ((s.flush env).2.withCache cache).object env = s.object env := by
    rw [hflush]
    exact fun _ => rfl
  exact (addLogs_getBalance ((s.flush env).2.withCache _) _ a).trans (getBalance_congr (hcache _) a)

/-- **A call that succeeds.** -/
theorem callPrecompile_spec (h : s.callPrecompile env c = some (none, s')) :
    Succeeded env s c s' := by
  have hrun := callPrecompile_succeeded h
  obtain ⟨e, -, herror⟩ | ⟨entries, s₁, hok, hs₁, hchanges, hdone⟩ :=
    runPrecompile_frame (s.entered env c) c.precompile c.frame
  · rw [hrun] at herror
    cases herror
  have hs' : s' =
      s₁.journalCall (s.entered env c).cacheStore (s.entered env c).cacheContext.events :=
    congrArg Prod.snd (hrun.symm.trans hdone)
  obtain ⟨⟨handler, hprepare, hresult⟩, hstore, hbalance⟩ := runBody_ok hok
  have hentries : c.entries (s.flushedStore env c) = entries := by
    unfold PrecompileCall.entries flushedStore
    rw [hprepare]
    dsimp only
    rw [hresult]
  have hcontrol : SameControl ((s.entered env c).runBody env c.precompile c.frame).2 s₁ := by
    rw [hs₁]
    exact (applyBalanceChanges_steps env _ entries).sameControl.trans
      (getOrNew_steps env _ c.precompile.address).1.sameControl
  refine ⟨flush_of_runBody hok, ⟨handler, hprepare, ?_⟩, ?_, ?_, s₁, ?_, hs'⟩
  · rw [hentries]
    exact hresult
  · rw [hs']
    exact (cacheStore_eq hcontrol.ctx hcontrol.cacheCtx).trans hstore
  · intro a
    have hjournal : s'.object env = s₁.object env := by
      rw [hs']
      rfl
    rw [getBalance_congr hjournal, hs₁, (getOrNewStateObject_balance env _ _).2,
      applyBalanceChanges_getBalance, hbalance, entered_getBalance, hentries]
  · exact (FrameSteps.runBody _ c.precompile c.frame).trans hchanges.frame

end TacEvm
