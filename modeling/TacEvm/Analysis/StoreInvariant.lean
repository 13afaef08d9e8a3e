import TacEvm.Analysis.ExactRollback

/-!
# Invariants of the stores of a run

What is said of all stores of a `StateDB` holds along a run as soon as the handlers of precompiles
and the flushes keep it. `KeptByCommit` lists what a commit writes for one object.
-/

namespace TacEvm

open FallibleState StateDB Bank

variable {Ω : Type} {env : Env}

/-- `Q` does not look at balances and supplies. -/
structure KeptByBank (Q : Store Ω → Prop) : Prop where
  balance : ∀ st a d n, Q st → Q (st.setBankBalance a d n)
  supply : ∀ st d n, Q st → Q (st.setSupply d n)

/-- `Q` is kept by every write of the object `o` at `a`. -/
structure KeptByCommit (Q : Store Ω → Prop) (a : Address) (o : StateObject) : Prop
    extends KeptByBank Q where
  code : ∀ (st : Store Ω) code, Q st → Q { st with code := code }
  storage : ∀ (st : Store Ω) storage, Q st → Q { st with storage := storage }
  codeHash : ∀ st h, Q st → Q (st.setCodeHash a h)
  sequence : ∀ st, o.suicided = false → Q st → Q (st.setSequence a (some o.account.nonce))
  removed : ∀ st, o.suicided = true → Q st → Q (st.setSequence a none)

section Bank

variable {Q : Store Ω → Prop} {st : Store Ω}

theorem validateAmount_leaves {amt : ℤ} (h : Q st) :
    Leaves Q (validateAmount amt : KeeperM Ω Unit) st := by
  unfold validateAmount
  split
  · exact h
  · exact h

theorem subUnlockedCoins_leaves (hQ : KeptByBank Q) (a : Address) (d : Denom) (n : ℕ) (h : Q st) :
    Leaves Q (subUnlockedCoins env a d n) st := by
  refine Leaves.get_bind ?_
  split
  · exact h
  · exact Leaves.set (hQ.balance _ _ _ _ h)

theorem addCoins_leaves (hQ : KeptByBank Q) (a : Address) (d : Denom) (n : ℕ) (h : Q st) :
    Leaves Q (addCoins a d n) st :=
  Leaves.modify (hQ.balance _ _ _ _ h)

theorem sendCoins_leaves (hQ : KeptByBank Q) (src dst : Address) (d : Denom) (amt : ℤ)
    (h : Q st) : Leaves Q (sendCoins env src dst d amt) st := by
  refine (validateAmount_leaves h).seq fun _ st₁ h₁ => ?_
  refine (subUnlockedCoins_leaves hQ src d _ h₁).seq fun _ st₂ h₂ => ?_
  exact addCoins_leaves hQ dst d _ h₂

theorem mintAmountToAccount_leaves (hQ : KeptByBank Q) (a : Address) (amt : ℤ) (h : Q st) :
    Leaves Q (mintAmountToAccount env a amt) st := by
  unfold mintAmountToAccount mintCoins sendCoinsFromModuleToAccount
  refine .seq ?_ fun _ st₁ h₁ => ?_
  · refine (validateAmount_leaves h).seq fun _ st₁ h₁ => ?_
    refine (addCoins_leaves hQ _ _ _ h₁).seq fun _ st₂ h₂ => ?_
    exact .modify (hQ.supply _ _ _ h₂)
  · split
    · exact h₁
    · exact sendCoins_leaves hQ _ _ _ _ h₁

theorem burnAmountFromAccount_leaves (hQ : KeptByBank Q) (a : Address) (amt : ℤ) (h : Q st) :
    Leaves Q (burnAmountFromAccount env a amt) st := by
  refine (sendCoins_leaves hQ _ _ _ _ h).seq fun _ st₁ h₁ => ?_
  refine (validateAmount_leaves h₁).seq fun _ st₂ h₂ => ?_
  refine (subUnlockedCoins_leaves hQ _ _ _ h₂).seq fun _ st₃ h₃ => ?_
  refine Leaves.get_bind ?_
  split
  · exact h₃
  · exact Leaves.set (hQ.supply _ _ _ h₃)

theorem setBalance_leaves (hQ : KeptByBank Q) (a : Address) (amount : ℤ) (h : Q st) :
    Leaves Q (Keeper.setBalance env a amount) st := by
  refine Leaves.get_bind ?_
  dsimp only
  split
  · exact mintAmountToAccount_leaves hQ _ _ h
  · split
    · exact burnAmountFromAccount_leaves hQ _ _ h
    · exact h

end Bank

section Commit

variable {Q : Store Ω → Prop} {st : Store Ω}

/-- A commit of an object leaves what it keeps. -/
theorem commitObject_leaves {a : Address} {o : StateObject} (hQ : KeptByCommit Q a o) (h : Q st) :
    Leaves Q (commitObject env a o) st := by
  unfold commitObject
  split
  · rename_i hsuicided
    refine Leaves.mapError ?_
    refine Leaves.get_bind ?_
    split
    · exact h
    · split
      · exact h
      · refine (setBalance_leaves hQ.toKeptByBank a 0 h).seq fun _ st₁ h₁ => ?_
        exact hQ.removed _ hsuicided (hQ.codeHash _ none (hQ.storage _ _ h₁))
  · rename_i hlive
    have hsuicided : o.suicided = false := by simpa using hlive
    have hcode : Leaves Q (commitCode o) st := by
      unfold commitCode
      split
      · exact hQ.code _ _ h
      · exact h
    refine hcode.seq fun _ st₁ h₁ => ?_
    have haccount : Leaves Q (Keeper.setAccount env a o.account) st₁ := by
      refine Leaves.modify_bind (Leaves.modify_bind ?_)
      exact setBalance_leaves hQ.toKeptByBank a _ (hQ.sequence _ hsuicided (hQ.codeHash _ _ h₁))
    refine haccount.mapError.seq fun _ st₂ h₂ => ?_
    refine .forM h₂ fun k _ st₃ h₃ => ?_
    have hslot : (commitSlot a o k).run st₃ =
        .ok () (st₃.setState a k (hashBytes ((o.dirtyStorage.lookup k).getD 0))) := by
      simp [commitSlot]
    exact Leaves.of_ok hslot (hQ.storage _ _ h₃)

/-- `Q` is kept by the writes of all live objects of a state. -/
def CommitKeeps (Q : Store Ω → Prop) (s : StateDB Ω) : Prop :=
  ∀ a o, s.stateObjects a = some o → KeptByCommit Q a o

/-- **What a commit keeps**, also one that fails half way. -/
theorem commitWithCtx_leaves {s : StateDB Ω} (hQ : CommitKeeps Q s) (h : Q st) :
    Leaves Q (s.commitWithCtx env) st := by
  refine .forM h fun a _ st' h' => ?_
  split
  · exact h'
  · rename_i o hobj
    exact commitObject_leaves (hQ a o hobj) h'

theorem CommitKeeps.flush {s : StateDB Ω} (hQ : CommitKeeps Q s) (h : Q s.cacheStore) :
    Q (s.flush env).2.cacheStore := by
  have hcommit : Leaves Q (s.getCacheContext.commitWithCtx env) s.getCacheContext.cacheStore :=
    commitWithCtx_leaves (s := s.getCacheContext) hQ h
  unfold Leaves at hcommit
  unfold StateDB.flush StateDB.commitWithCacheCtx
  cases hrun : (s.getCacheContext.commitWithCtx env).run s.getCacheContext.cacheStore with
  | ok u st =>
    rw [hrun] at hcommit
    exact hcommit
  | error e st =>
    rw [hrun] at hcommit
    exact hcommit

theorem CommitKeeps.commit {s : StateDB Ω} (hQ : CommitKeeps Q s) (h : Q s.cacheStore) :
    Q (s.commit env).2.store := by
  have hstore : Q s.writeCache.store := by
    rw [StateDB.writeCache_store]
    exact h
  have hcommit : Leaves Q (s.commitWithCtx env) s.writeCache.store :=
    commitWithCtx_leaves hQ hstore
  unfold Leaves at hcommit
  unfold StateDB.commit
  cases hrun : (s.commitWithCtx env).run s.writeCache.store with
  | ok u st =>
    rw [hrun] at hcommit
    exact hcommit
  | error e st =>
    rw [hrun] at hcommit
    exact hcommit

end Commit

/-- What a call makes of the store its handler is given. -/
def PrecompileCall.effect (c : PrecompileCall Ω) (st : Store Ω) : Store Ω :=
  match c.precompile.prepare c.frame with
  | .error _ => st
  | .ok handler => (handler c.frame st).store

/-- `P` holds of every store of a `StateDB`. -/
structure StoresSatisfy (P : Store Ω → Prop) (s : StateDB Ω) : Prop where
  ctx : P s.ctx.store
  cache : P s.cacheStore
  journal : ∀ cms events, .precompileCallChange cms events ∈ s.journal.entries → P cms

namespace StoresSatisfy

variable {P : Store Ω → Prop} {s s' : StateDB Ω}

theorem new {ctx : Context Ω} {tx : TxConfig} (h : P ctx.store) :
    StoresSatisfy P (new ctx tx) :=
  ⟨h, h, fun _ _ hmem => by cases hmem⟩

theorem extend (h : StoresSatisfy P s) {es : List (JournalEntry Ω)} (hctx : s'.ctx = s.ctx)
    (hcache : P s'.cacheStore) (hentries : s'.journal.entries = s.journal.entries ++ es)
    (hcalls : ∀ e ∈ es, e.isCall = false) : StoresSatisfy P s' := by
  refine ⟨hctx ▸ h.ctx, hcache, fun cms events hmem => ?_⟩
  rw [hentries] at hmem
  rcases List.mem_append.mp hmem with hmem | hmem
  · exact h.journal cms events hmem
  · cases hcalls _ hmem

theorem steps (h : StoresSatisfy P s) (hsteps : Steps env s s') : StoresSatisfy P s' := by
  induction hsteps with
  | refl => exact h
  | @tail s₁ s₂ hfirst hstep ih =>
    obtain ⟨es, hentries, -, hcalls⟩ := hstep.change
    have hcontrol := hstep.sameControl
    refine ih.extend hcontrol.ctx ?_ hentries hcalls
    rw [cacheStore_eq hcontrol.ctx hcontrol.cacheCtx]
    exact ih.cache

theorem withCache (h : StoresSatisfy P s) {c : CacheContext Ω} (hc : P c.store) :
    StoresSatisfy P (s.withCache (some c)) :=
  ⟨h.ctx, hc, h.journal⟩

theorem snapshot (h : StoresSatisfy P s) : StoresSatisfy P s.snapshot.2 :=
  ⟨h.ctx, h.cache, h.journal⟩

theorem journalCall (h : StoresSatisfy P s) {cms : Store Ω} (hcms : P cms) (events : List Event) :
    StoresSatisfy P (s.journalCall cms events) := by
  refine ⟨h.ctx, h.cache, fun cms' events' hmem => ?_⟩
  rcases List.mem_append.mp hmem with hmem | hmem
  · exact h.journal cms' events' hmem
  · cases List.mem_singleton.mp hmem
    exact hcms

theorem revert (h : StoresSatisfy P s) {revid : ℕ}
    (hrevert : s.revertToSnapshot env revid = some s') : StoresSatisfy P s' := by
  obtain ⟨idx, r, s₁, -, -, hroll, rfl⟩ := revertToSnapshot_cases hrevert
  have hrestored : ∀ es : List (JournalEntry Ω),
      (∀ cms events, .precompileCallChange cms events ∈ es → P cms) →
      P (es.foldr JournalEntry.restore s.cacheStore) := by
    intro es hes
    induction es with
    | nil => exact h.cache
    | cons e es ih =>
      have hrest := ih fun cms events hmem => hes cms events (List.mem_cons_of_mem e hmem)
      cases e with
      | precompileCallChange cms events => exact hes cms events List.mem_cons_self
      | _ => exact hrest
  have hctx : s₁.ctx = s.ctx := ((observe_rollback s _).2 s₁ hroll).ctx
  refine ⟨?_, ?_, fun cms events hmem => ?_⟩
  · show P s₁.ctx.store
    rw [hctx]
    exact h.ctx
  · show P s₁.cacheStore
    rw [(rollback_objects hroll).2]
    exact hrestored _ fun cms events hmem => h.journal cms events (List.mem_of_mem_drop hmem)
  · exact h.journal cms events (List.mem_of_mem_take hmem)

end StoresSatisfy

section Run

variable {P : Store Ω → Prop} {s s' : StateDB Ω} {c : PrecompileCall Ω}

/-- Equal grants and modules outside of the EVM. -/
structure SameModules (st st' : Store Ω) : Prop where
  grants : st'.grants = st.grants
  rest : st'.rest = st.rest

/-- `P` is about grants and other modules only. -/
def AboutModules (P : Store Ω → Prop) : Prop := ∀ st st', SameModules st st' → P st → P st'

theorem AboutModules.commitKeeps (hP : AboutModules P) (s : StateDB Ω) : CommitKeeps P s := by
  intro a o _
  exact {
    balance := fun st _ _ _ h => hP st _ ⟨rfl, rfl⟩ h
    supply := fun st _ _ h => hP st _ ⟨rfl, rfl⟩ h
    code := fun st _ h => hP st _ ⟨rfl, rfl⟩ h
    storage := fun st _ h => hP st _ ⟨rfl, rfl⟩ h
    codeHash := fun st _ h => hP st _ ⟨rfl, rfl⟩ h
    sequence := fun st _ h => hP st _ ⟨rfl, rfl⟩ h
    removed := fun st _ h => hP st _ ⟨rfl, rfl⟩ h }

theorem StoresSatisfy.flush (h : StoresSatisfy P s) (hkeeps : CommitKeeps P s) :
    StoresSatisfy P (s.flush env).2 := by
  have hstore : P (s.flush env).2.cacheStore := hkeeps.flush h.cache
  obtain ⟨st, hflush⟩ := s.flush_eq env
  rw [hflush] at hstore ⊢
  exact h.withCache hstore

theorem StoresSatisfy.runBody (h : StoresSatisfy P s) (hkeeps : CommitKeeps P s)
    (heffect : ∀ st, P st → P (c.effect st)) :
    StoresSatisfy P (s.runBody env c.precompile c.frame).2 := by
  have hflushed := @StoresSatisfy.flush Ω env P s h hkeeps
  refine runBody_invariant (StoresSatisfy P) h hflushed fun handler hprepare => ?_
  have hstore := heffect _ hflushed.cache
  unfold PrecompileCall.effect at hstore
  rw [hprepare] at hstore
  exact StoresSatisfy.steps (hflushed.withCache hstore) (addLogs_steps env _ _)

theorem StoresSatisfy.entered (h : StoresSatisfy P s) (c : PrecompileCall Ω) :
    StoresSatisfy P (s.entered env c) :=
  (h.steps (s.canTransfer_steps env c)).snapshot.steps (enterCall_steps env _ c)

theorem StoresSatisfy.call {err : Option Err} (h : StoresSatisfy P s)
    (hkeeps : CommitKeeps P (s.entered env c)) (heffect : ∀ st, P st → P (c.effect st))
    (hcall : s.callPrecompile env c = some (err, s')) : StoresSatisfy P s' := by
  have hentered : StoresSatisfy P (s.entered env c) := h.entered c
  exact callPrecompile_invariant (StoresSatisfy P)
    (h.steps (s.canTransfer_steps env c)) (hentered.runBody hkeeps heffect)
    (fun _ _ hsteps h => h.steps hsteps.steps) (fun _ h => h.journalCall hentered.cache _)
    (fun _ _ _ hback h => h.revert hback) hcall

theorem StoresSatisfy.action (h : StoresSatisfy P s) {a : Action Ω}
    (hkeeps : ∀ c, a = .call c → CommitKeeps P (s.entered env c))
    (heffect : ∀ c, a = .call c → ∀ st, P st → P (c.effect st))
    (hstep : a.step env s = some s') : StoresSatisfy P s' := by
  cases a with
  | call c =>
    obtain ⟨⟨err, s₁⟩, hcall, rfl⟩ := Option.map_eq_some_iff.mp hstep
    exact h.call (hkeeps c rfl) (heffect c rfl) hcall
  | op o =>
    exact Op.invariant (StoresSatisfy P) (fun _ _ hsteps h => h.steps hsteps.steps)
      (fun w _ _ hwrite => h.steps (Write.steps hwrite)) StoresSatisfy.snapshot
      (fun _ _ _ hback h => h.revert hback) h hstep

/-- **The invariant rule** for grants and other modules. -/
theorem StoresSatisfy.run {as : List (Action Ω)} (h : StoresSatisfy P s) (hP : AboutModules P)
    (heffect : ∀ c, Action.call c ∈ as → ∀ st, P st → P (c.effect st))
    (hrun : s.run env as = some s') : StoresSatisfy P s' := by
  refine run_invariant (StoresSatisfy P) (fun a ha s s' hstep h => ?_) h hrun
  exact h.action (fun _ _ => hP.commitKeeps _) (fun c hc => heffect c (hc ▸ ha)) hstep

theorem StoresSatisfy.commit (h : StoresSatisfy P s) (hP : AboutModules P) :
    P (s.commit env).2.store :=
  (hP.commitKeeps s).commit h.cache

end Run

end TacEvm
