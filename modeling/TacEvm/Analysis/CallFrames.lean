import TacEvm.Analysis.Machine

/-!
# What happens in the frame of a call

`FrameStep` lists what a call of a precompile does to the `StateDB`, and `runPrecompile_frame` says
that `Run` is made of these steps, up to the entry it journals last. The rules for invariants of
calls and runs follow.
-/

namespace TacEvm

open StateDB

variable {Ω : Type} {env : Env}

/-- The steps of a call frame. -/
inductive FrameStep (env : Env) : StateDB Ω → StateDB Ω → Prop
  | lookup {s : StateDB Ω} {a : Address} {o : StateObject} (hobj : s.object env a = some o) :
      FrameStep env s (s.setStateObject a o)
  | create {s : StateDB Ω} {a : Address} (hobj : s.object env a = none) :
      FrameStep env s ((s.append (.createObjectChange a)).setStateObject a
        (newObject (newEmptyAccount env)))
  | balance {s : StateDB Ω} {a : Address} {o : StateObject} (hobj : s.object env a = some o)
      (amount : ℤ) : FrameStep env s (s.setObjectBalance a o amount)
  | log {s : StateDB Ω} (log : Log) :
      FrameStep env s { s.append .addLogChange with logs := s.logs ++ [log] }
  | cache {s : StateDB Ω} (cache : Option (CacheContext Ω)) : FrameStep env s (s.withCache cache)

/-- Sequences of the steps of a call frame. -/
def FrameSteps (env : Env) : StateDB Ω → StateDB Ω → Prop := Relation.ReflTransGen (FrameStep env)

/-- What no frame touches. -/
structure SameFrame (s s' : StateDB Ω) : Prop where
  ctx : s'.ctx = s.ctx
  txConfig : s'.txConfig = s.txConfig
  validRevisions : s'.validRevisions = s.validRevisions
  nextRevisionID : s'.nextRevisionID = s.nextRevisionID
  counter : s'.precompileCallsCounter = s.precompileCallsCounter

/-- The state in which `Run` starts. -/
def StateDB.entered (env : Env) (s : StateDB Ω) (c : PrecompileCall Ω) : StateDB Ω :=
  (s.canTransfer env c).2.snapshot.2.enterCall env c

/-- The store after the flush, which the handler is given. -/
def StateDB.flushedStore (env : Env) (s : StateDB Ω) (c : PrecompileCall Ω) : Store Ω :=
  ((s.entered env c).flush env).2.cacheStore

theorem StateDB.entered_cacheContext (env : Env) (s : StateDB Ω) (c : PrecompileCall Ω) :
    (s.entered env c).cacheContext = s.cacheContext := by
  have hcan := (s.canTransfer_steps env c).sameControl
  have henter := ((s.canTransfer env c).2.snapshot.2.enterCall_steps env c).sameControl
  have hctx : (s.entered env c).ctx = s.ctx := henter.ctx.trans hcan.ctx
  have hcache : (s.entered env c).cacheCtx = s.cacheCtx := henter.cacheCtx.trans hcan.cacheCtx
  simp only [cacheContext, hctx, hcache]

variable {s₀ s s' : StateDB Ω}

theorem Moves.canTransfer (hs : Moves env s₀ s) (c : PrecompileCall Ω) :
    Moves env s₀ (s.canTransfer env c).2 :=
  hs.trans (s.canTransfer_steps env c).moves

theorem Moves.entered (hs : Moves env s₀ s) (c : PrecompileCall Ω) :
    Moves env s₀ (s.entered env c) :=
  ((hs.canTransfer c).tail .snapshot).trans
    ((s.canTransfer env c).2.snapshot.2.enterCall_steps env c).moves

/-- `P` holds of every call of a run, with the states around it. -/
def StateDB.forCalls (env : Env) (P : StateDB Ω → PrecompileCall Ω → StateDB Ω → Prop) :
    StateDB Ω → List (Action Ω) → Prop
  | _, [] => True
  | s, .op o :: as => ∀ s', o.step env s = some s' → s'.forCalls env P as
  | s, .call c :: as =>
    ∀ e s', s.callPrecompile env c = some (e, s') → P s c s' ∧ s'.forCalls env P as

theorem StateDB.forCalls_of_invariant {P : StateDB Ω → PrecompileCall Ω → StateDB Ω → Prop}
    (I : StateDB Ω → Prop) {as : List (Action Ω)}
    (hstep : ∀ a ∈ as, ∀ s s', I s → a.step env s = some s' → I s')
    (hcall : ∀ c, Action.call c ∈ as → ∀ s s', I s → P s c s') (h : I s) : s.forCalls env P as := by
  induction as generalizing s with
  | nil => trivial
  | cons a as ih =>
    have hrest : ∀ s, I s → s.forCalls env P as := fun s hs =>
      ih (fun b hb => hstep b (List.mem_cons_of_mem a hb))
        (fun c hc => hcall c (List.mem_cons_of_mem a hc)) hs
    cases a with
    | op o =>
      intro s' hs'
      exact hrest s' (hstep (.op o) List.mem_cons_self s s' h hs')
    | call c =>
      intro e s' hs'
      refine ⟨hcall c List.mem_cons_self s s' h, hrest s' ?_⟩
      exact hstep (.call c) List.mem_cons_self s s' h (by simp [Action.step, hs'])

namespace FrameSteps

variable {s s' s'' : StateDB Ω}

theorem sameFrame (h : FrameSteps env s s') : SameFrame s s' := by
  induction h with
  | refl => exact ⟨rfl, rfl, rfl, rfl, rfl⟩
  | tail _ hstep ih =>
    cases hstep <;>
      exact ⟨ih.ctx, ih.txConfig, ih.validRevisions, ih.nextRevisionID, ih.counter⟩

theorem addLogs (s : StateDB Ω) (logs : List EmittedLog) :
    FrameSteps env s (logs.foldl (fun s log => s.addLog log.1 log.2.1 log.2.2) s) := by
  induction logs generalizing s with
  | nil => exact .refl
  | cons log logs ih => exact .head (.log _) (ih _)

theorem runBody (s : StateDB Ω) (p : Precompile Ω) (c : Frame) :
    FrameSteps env s (s.runBody env p c).2 := by
  obtain ⟨st, hflush⟩ := s.flush_eq env
  have hflushed : FrameSteps env s (s.flush env).2 := by
    rw [hflush]
    exact .single (.cache _)
  obtain ⟨e, hbody⟩ | ⟨e, hbody⟩ | ⟨handler, result, -, -, -, hbody⟩ := s.runBody_cases env p c
  · rw [hbody]
    exact .refl
  · rw [hbody]
    exact hflushed
  · rw [hbody]
    exact (hflushed.tail (.cache _)).trans (addLogs _ _)

end FrameSteps

theorem ValueSteps.frame (h : ValueSteps env s s') : FrameSteps env s s' := by
  induction h with
  | refl => exact .refl
  | tail _ hstep ih =>
    cases hstep with
    | lookup hobj => exact ih.tail (.lookup hobj)
    | create hobj => exact ih.tail (.create hobj)
    | balance hlive amount hdvd =>
      exact ih.tail (.balance (object_of_live hlive) amount)

/-- **`Run` in one piece**: an error of its body, or changes and an entry. -/
theorem runPrecompile_frame (s : StateDB Ω) (p : Precompile Ω) (c : Frame) :
    (∃ e, (s.runBody env p c).1 = .error e ∧
      s.runPrecompile env p c = (some e, (s.runBody env p c).2)) ∨
    ∃ entries s₁, (s.runBody env p c).1 = .ok entries ∧
      s₁ = ((entries.foldl (applyBalanceChange env)
        (s.runBody env p c).2).getOrNewStateObject env p.address).2 ∧
      ValueSteps env (s.runBody env p c).2 s₁ ∧
      s.runPrecompile env p c =
        (if maxPrecompileCalls < s.precompileCallsCounter + 1 then
          some (.errorf "max calls to precompiles (%d) reached" [.num maxPrecompileCalls.toNat])
        else none, s₁.journalCall s.cacheStore s.cacheContext.events) := by
  have hcounter := (@FrameSteps.runBody Ω env s p c).sameFrame.counter
  unfold runPrecompile
  generalize s.runBody env p c = r at hcounter
  obtain ⟨result, s₁⟩ := r
  cases result with
  | error e => exact .inl ⟨e, rfl, rfl⟩
  | ok entries =>
    right
    have hchanges := s₁.applyBalanceChanges_value env entries
    have hmake := (getOrNew_value env (entries.foldl (applyBalanceChange env) s₁) p.address).1
    refine ⟨entries, _, rfl, rfl, hchanges.trans hmake, ?_⟩
    dsimp only [addJournalEntries] at hcounter ⊢
    rw [addPrecompileFn_eq, hchanges.frame.sameFrame.counter, hcounter]
    rfl

theorem StateDB.callPrecompile_succeeded {c : PrecompileCall Ω}
    (h : s.callPrecompile env c = some (none, s')) :
    (s.entered env c).runPrecompile env c.precompile c.frame = (none, s') := by
  obtain ⟨-, hne, -⟩ | ⟨-, s₁, hrun, ⟨-, rfl⟩ | ⟨hne, -⟩⟩ := callPrecompile_cases h
  · exact absurd rfl hne
  · exact hrun
  · exact absurd rfl hne

theorem StateDB.flush_of_runBody {p : Precompile Ω} {c : Frame} {entries : BalanceChanges}
    (h : (s.runBody env p c).1 = .ok entries) :
    (s.commitWithCtx env).run s.cacheStore = .ok () (s.flush env).2.cacheStore := by
  obtain ⟨e, hbody⟩ | ⟨e, hbody⟩ | ⟨handler, result, hflush, -⟩ := s.runBody_cases env p c
  · rw [hbody] at h
    cases h
  · rw [hbody] at h
    cases h
  unfold flush commitWithCacheCtx at hflush ⊢
  have hsame : (s.commitWithCtx env).run s.cacheStore =
      (s.getCacheContext.commitWithCtx env).run s.getCacheContext.cacheStore := rfl
  rw [hsame]
  cases hrun : (s.getCacheContext.commitWithCtx env).run s.getCacheContext.cacheStore with
  | ok u st => rfl
  | error e st =>
    rw [hrun] at hflush
    cases hflush

/-! ## Invariants of calls and runs -/

section

variable {s s' : StateDB Ω} (I : StateDB Ω → Prop)

theorem StateDB.runBody_invariant {p : Precompile Ω} {c : Frame} (hs : I s)
    (hflush : I (s.flush env).2) (hhandler : ∀ handler, p.prepare c = .ok handler →
      I ((s.flush env).2.applyHandlerOutput (handler c (s.flush env).2.cacheStore))) :
    I (s.runBody env p c).2 := by
  obtain ⟨e, hbody⟩ | ⟨e, hbody⟩ | ⟨handler, result, -, hprepare, -, hbody⟩ :=
    s.runBody_cases env p c
  · rw [hbody]
    exact hs
  · rw [hbody]
    exact hflush
  · rw [hbody]
    exact hhandler handler hprepare

/-- **Invariants of calls** survive values, entries and reverts. -/
theorem StateDB.callPrecompile_invariant {c : PrecompileCall Ω} {err : Option Err}
    (hcan : I (s.canTransfer env c).2)
    (hbody : I ((s.entered env c).runBody env c.precompile c.frame).2)
    (hvalue : ∀ s₁ s₂, ValueSteps env s₁ s₂ → I s₁ → I s₂)
    (hjournal : ∀ s₁, I s₁ → I (s₁.journalCall (s.entered env c).cacheStore
      (s.entered env c).cacheContext.events))
    (hrevert : ∀ s₁ s₂ revid, s₁.revertToSnapshot env revid = some s₂ → I s₁ → I s₂)
    (hcall : s.callPrecompile env c = some (err, s')) : I s' := by
  obtain ⟨-, -, rfl⟩ | ⟨-, s₁, hrun, hend⟩ := callPrecompile_cases hcall
  · exact hcan
  have hs₁ : I s₁ := by
    obtain ⟨e, -, hframe⟩ | ⟨entries, s₂, -, -, hchanges, hframe⟩ :=
      runPrecompile_frame (s.entered env c) c.precompile c.frame
    · cases hframe.symm.trans hrun
      exact hbody
    · cases hframe.symm.trans hrun
      exact hjournal s₂ (hvalue _ _ hchanges hbody)
  obtain ⟨-, rfl⟩ | ⟨-, hback⟩ := hend
  · exact hs₁
  · exact hrevert _ _ _ hback hs₁

/-- **Invariants of operations.** -/
theorem Op.invariant {o : Op} (hplain : ∀ s₁ s₂, PlainSteps env s₁ s₂ → I s₁ → I s₂)
    (hwrite : ∀ w, o = .write w → w.plain = false → w.step env s = some s' → I s')
    (hsnapshot : I s → I s.snapshot.2)
    (hrevert : ∀ s₁ s₂ revid, s₁.revertToSnapshot env revid = some s₂ → I s₁ → I s₂)
    (hs : I s) (hstep : o.step env s = some s') : I s' := by
  cases o with
  | read r =>
    cases hstep
    exact hplain _ _ (Read.plainSteps s r) hs
  | write w =>
    cases hw : w.plain with
    | true => exact hplain _ _ (Write.plainSteps hw hstep) hs
    | false => exact hwrite w rfl hw hstep
  | snapshot =>
    cases hstep
    exact hsnapshot hs
  | revertToSnapshot place =>
    obtain ⟨r, -, hback⟩ := Option.bind_eq_some_iff.mp hstep
    exact hrevert _ _ _ hback hs

/-- **Invariants of runs.** -/
theorem StateDB.run_invariant {as : List (Action Ω)}
    (hstep : ∀ a ∈ as, ∀ s s', a.step env s = some s' → I s → I s') (hs : I s)
    (hrun : s.run env as = some s') : I s' := by
  induction as generalizing s with
  | nil =>
    cases hrun
    exact hs
  | cons a as ih =>
    obtain ⟨s₁, hfirst, hrest⟩ := Option.bind_eq_some_iff.mp hrun
    exact ih (fun b hb => hstep b (List.mem_cons_of_mem a hb))
      (hstep a List.mem_cons_self s s₁ hfirst hs) hrest

end

end TacEvm
