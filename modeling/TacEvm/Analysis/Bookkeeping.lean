import TacEvm.Analysis.Invariants
import TacEvm.Model.Devnet

/-!
# Nothing missing is dereferenced

`Commit` and the reverting of an entry look up objects without asking whether they are there. They
always are, because nothing about an account comes before its creation (`Tracked`).
-/

namespace TacEvm

open FallibleState Devnet

variable {Ω : Type} {env : Env}

/-! ## What a commit can fail with -/

/-- An error that is not a nil dereference. -/
def Dereferenced (e : Err) : Prop := e ≠ .nilDereference

theorem Dereferenced.errorf (format : String) (args : List Arg) :
    Dereferenced (.errorf format args) := by
  intro h
  cases h

theorem Dereferenced.wrapf {e : Err} (h : Dereferenced e) (format : String) (args : List Arg) :
    Dereferenced (Err.wrapf format args e) := by
  cases e with
  | errorf _ _ =>
    intro heq
    cases heq
  | wrapped _ _ _ =>
    intro heq
    cases heq
  | panic text => exact h

section Keeper

theorem validateAmount_fails (amt : ℤ) :
    FailsOnly Dereferenced (Bank.validateAmount amt : KeeperM Ω Unit) := by
  unfold Bank.validateAmount
  split
  · exact .pure ()
  · exact .throw (.errorf _ _)

theorem subUnlockedCoins_fails (addr : Address) (denom : Denom) (amt : ℕ) :
    FailsOnly Dereferenced (Bank.subUnlockedCoins env addr denom amt : KeeperM Ω Unit) := by
  refine .bind FailsOnly.get fun st => ?_
  split
  · exact .throw (.errorf _ _)
  · exact FailsOnly.set _

theorem sendCoins_fails (src dst : Address) (denom : Denom) (amt : ℤ) :
    FailsOnly Dereferenced (Bank.sendCoins env src dst denom amt : KeeperM Ω Unit) := by
  refine .bind (validateAmount_fails amt) fun _ => ?_
  refine .bind (subUnlockedCoins_fails _ _ _) fun _ => ?_
  exact .modify _

theorem mintAmountToAccount_fails (addr : Address) (amt : ℤ) :
    FailsOnly Dereferenced (Bank.mintAmountToAccount env addr amt : KeeperM Ω Unit) := by
  refine .bind ?_ fun _ => ?_
  · refine .bind (validateAmount_fails _) fun _ => ?_
    exact .bind (FailsOnly.modify _) fun _ => .modify _
  · unfold Bank.sendCoinsFromModuleToAccount
    split
    · exact .throw (.errorf _ _)
    · exact sendCoins_fails _ _ _ _

theorem burnAmountFromAccount_fails (addr : Address) (amt : ℤ) :
    FailsOnly Dereferenced (Bank.burnAmountFromAccount env addr amt : KeeperM Ω Unit) := by
  refine .bind (sendCoins_fails _ _ _ _) fun _ => ?_
  refine .bind (validateAmount_fails _) fun _ => ?_
  refine .bind (subUnlockedCoins_fails _ _ _) fun _ => ?_
  refine .bind FailsOnly.get fun st => ?_
  split
  · apply FailsOnly.throw
    intro h
    exact absurd h (by decide)
  · exact FailsOnly.set _

theorem setBalance_fails (addr : Address) (amount : ℤ) :
    FailsOnly Dereferenced (Keeper.setBalance env addr amount : KeeperM Ω Unit) := by
  refine .bind FailsOnly.get fun st => ?_
  dsimp only
  split
  · exact mintAmountToAccount_fails _ _
  · split
    · exact burnAmountFromAccount_fails _ _
    · exact .pure ()

theorem setAccount_fails (addr : Address) (account : Account) :
    FailsOnly Dereferenced (Keeper.setAccount env addr account : KeeperM Ω Unit) := by
  refine .bind (FailsOnly.modify _) fun _ => ?_
  exact .bind (FailsOnly.modify _) fun _ => setBalance_fails _ _

theorem deleteAccount_fails (addr : Address) :
    FailsOnly Dereferenced (Keeper.deleteAccount env addr : KeeperM Ω Unit) := by
  refine .bind FailsOnly.get fun st => ?_
  split
  · exact .pure ()
  split
  · exact .throw (.errorf _ _)
  · refine .bind (setBalance_fails _ _) fun _ => ?_
    refine .bind (FailsOnly.modify _) fun _ => ?_
    exact .bind (FailsOnly.modify _) fun _ => .modify _

end Keeper

theorem commitObject_fails (addr : Address) (o : StateObject) :
    FailsOnly Dereferenced (StateDB.commitObject env addr o : KeeperM Ω Unit) := by
  unfold StateDB.commitObject
  split
  · exact (deleteAccount_fails addr).mapError fun _ he => he.wrapf _ _
  refine .bind ?_ fun _ => ?_
  · unfold StateDB.commitCode
    split
    · exact .modify _
    · exact .pure ()
  · refine .bind ?_ fun _ => ?_
    · exact (setAccount_fails addr _).mapError fun _ he => he.wrapf _ _
    · exact .forM fun key _ => .modify _

theorem commitWithCtx_fails {s : StateDB Ω}
    (hlive : ∀ a ∈ s.journal.dirties, ∃ o, s.stateObjects a = some o) :
    FailsOnly Dereferenced (s.commitWithCtx env) := by
  refine .forM fun a ha => ?_
  obtain ⟨o, ho⟩ := hlive a ((mem_sortedDirties s.journal a).mp ha)
  simp only [ho]
  exact commitObject_fails a o

/-! ## The books of a state -/

/-- The books are kept, and no missing object is dereferenced. -/
structure Bookkept (env : Env) (s : StateDB Ω) : Prop where
  counted : ∀ a, s.journal.dirties.lookup a =
    if dirtyCount s.journal.entries a = 0 then none
    else some (dirtyCount s.journal.entries a : ℤ)
  live : ∀ a ∈ s.journal.dirties, ∃ o, s.stateObjects a = some o
  sorted : s.validRevisions.Pairwise fun m n => m.journalIndex ≤ n.journalIndex
  within : ∀ r ∈ s.validRevisions, r.journalIndex ≤ s.journal.entries.length
  commits : (s.commit env).1 ≠ some .nilDereference
  flushes : (s.commitWithCacheCtx env).1 ≠ some .nilDereference
  reverts : ∀ r ∈ s.validRevisions, ∃ s', s.revertToSnapshot env r.id = some s'

/-- What is reached is kept in the books. -/
theorem Reached.bookkept {ctx : Context Ω} {s : StateDB Ω} (h : Reached env ctx s) :
    Bookkept env s := by
  have hlive : ∀ a ∈ s.journal.dirties, ∃ o, s.stateObjects a = some o := by
    intro a ha
    exact h.tracked.live_of_dirty ha
  have hfails := @commitWithCtx_fails Ω env s hlive
  refine ⟨h.tracked.dirties, hlive, ?_, ?_, ?_, ?_, h.revertible⟩
  · have hsorted := List.pairwise_map.mp h.ordered.sorted
    exact hsorted.imp fun hlt => hlt.2
  · intro r hr
    exact h.ordered.within (r.id, r.journalIndex) (List.mem_map_of_mem hr)
  · unfold StateDB.commit
    cases hrun : (s.commitWithCtx env).run s.writeCache.store with
    | ok u st => simp
    | error e st =>
      intro heq
      exact hfails _ _ _ hrun (Option.some.inj heq)
  · unfold StateDB.commitWithCacheCtx
    cases hrun : (s.commitWithCtx env).run s.cacheStore with
    | ok u st => simp
    | error e st =>
      intro heq
      exact hfails _ _ _ hrun (Option.some.inj heq)

/-- **The journal keeps its books** in every state and in every flush; so committing and reverting
find every object. -/
theorem run_bookkept {ctx : Context Ω} {tx : TxConfig} {as : List (Action Ω)} {s : StateDB Ω}
    (hrun : (StateDB.new ctx tx).run env as = some s) :
    Bookkept env s ∧ ∀ c : PrecompileCall Ω, Bookkept env (s.entered env c) := by
  have hmoves := run_moves hrun
  refine ⟨hmoves.reached.bookkept, fun c => ?_⟩
  have hcan := (s.canTransfer_steps env c).moves
  have henter := ((s.canTransfer env c).2.snapshot.2.enterCall_steps env c).moves
  exact (((hmoves.trans hcan).tail .snapshot).trans henter).reached.bookkept

/-- An account is created and reset and calls, and most is reverted. -/
def Devnet.createdAndReset : List (Action Unit) :=
  [.op (.write (.addBalance 0xA1 5000000000000)), .op .snapshot,
    .op (.write (.createAccount 0xA1)), .op (.write (.setNonce 0xA1 1)),
    .call ⟨.call, precompile idle, frame 0xA1 [0, 0, 0, 1]⟩, .op (.revertToSnapshot 0)]

/-- Two entries are left, and both count for the account. -/
theorem run_bookkept_devnet :
    ∃ s, (StateDB.new (ctx (emptyStore ())) txConfig).run env6 createdAndReset = some s ∧
      s.journal.dirties.lookup 0xA1 = some 2 ∧ Bookkept env6 s := by
  obtain ⟨s, hrun, hcount⟩ : ∃ s,
      (StateDB.new (ctx (emptyStore ())) txConfig).run env6 createdAndReset = some s ∧
      s.journal.dirties.lookup 0xA1 = some 2 := ⟨_, rfl, by decide⟩
  exact ⟨s, hrun, hcount, (run_bookkept hrun).1⟩

open StateDB

/-- The refund counter goes below zero, or a snapshot is not there. The panics of the bank in a
flush are left out: amounts of over 256 bits, and a supply below what is burnt. -/
def Op.Panics (s : StateDB Ω) : Op → Prop
  | .write (.subRefund gas) => s.refund < gas
  | .revertToSnapshot place => s.validRevisions.length ≤ place
  | _ => False

theorem Reached.step_eq_none_iff {ctx : Context Ω} {s : StateDB Ω} (h : Reached env ctx s)
    (o : Op) : o.step env s = none ↔ o.Panics s := by
  cases o with
  | revertToSnapshot place =>
    simp only [Op.step, Op.Panics, ← List.getElem?_eq_none_iff]
    cases hr : s.validRevisions[place]? with
    | none => simp
    | some r =>
      obtain ⟨s', hrevert⟩ := h.revertible r (List.mem_of_getElem? hr)
      simp [hrevert]
  | write w =>
    have hslot := AccessList.addSlot_cases h.accessList
    cases w <;> simp [Op.step, Write.step, subRefund, addSlotToAccessList, Op.Panics]
    grind
  | _ => simp [Op.step, Op.Panics]

/-- **What a run panics on**, the bank apart. -/
theorem run_panics_iff (ctx : Context Ω) (tx : TxConfig) (as : List (Action Ω)) :
    (new ctx tx).run env as = none ↔ ∃ pre o post s, as = pre ++ .op o :: post ∧
      (new ctx tx).run env pre = some s ∧ o.Panics s := by
  constructor
  · -- by the last action: the run before it panics, or it does itself
    intro h
    induction as using List.reverseRecOn with
    | nil => cases h
    | append_singleton as a ih =>
      rw [run_append] at h
      cases hs : (new ctx tx).run env as with
      | none =>
        obtain ⟨pre, o, post, s, rfl, hrun⟩ := ih hs
        exact ⟨pre, o, post ++ [a], s, by simp, hrun⟩
      | some s =>
        cases a with
        | call c =>
          obtain ⟨r, hr⟩ := callPrecompile_total (run_moves hs) c
          simp [hs, StateDB.run, Action.step, hr] at h
        | op o =>
          have hnone : o.step env s = none := by simpa [hs, StateDB.run, Action.step] using h
          exact ⟨as, o, [], s, rfl, hs, ((run_reached hs).step_eq_none_iff o).mp hnone⟩
  · rintro ⟨pre, o, post, s, rfl, hrun, ho⟩
    have hnone := ((run_reached hrun).step_eq_none_iff o).mpr ho
    rw [run_append, hrun]
    simp [StateDB.run, Action.step, hnone]

/-- **A transaction changes what its journal names.** Other accounts read as at the start, and are
committed as the calls left them. -/
theorem run_frame {ctx : Context Ω} {tx : TxConfig} {as : List (Action Ω)} {s : StateDB Ω}
    (hrun : (new ctx tx).run env as = some s)
    {a : Address} (ha : ∀ e ∈ s.journal.entries, e.account ≠ some a) :
    (s.observe env).objects a = ((new ctx tx).observe env).objects a ∧
      ∀ ctx', s.commit env = (none, ctx') →
        ctx'.store.accountState a = s.writeCache.store.accountState a := by
  have hr := run_reached hrun
  refine ⟨(hr.untouched a ha).trans (observe_new env ctx tx a).symm, fun ctx' hcommit => ?_⟩
  refine (hr.commitWithCtx_ok (commit_ok hcommit)).accountState_ahead fun hmem => ?_
  obtain ⟨e, he, hdirtied⟩ := (hr.tracked.mem_dirties a).mp ((mem_sortedDirties _ a).mp hmem)
  exact ha e he (JournalEntry.account_of_dirtied hdirtied)

theorem run_frame_devnet :
    ∃ s, (new (ctx (emptyStore ())) txConfig).run env6 createdAndReset = some s ∧
      (s.commit env6).2.store.accountState 0xA2 = s.writeCache.store.accountState 0xA2 := by
  obtain ⟨s, hrun, hcommit, ha⟩ : ∃ s, (new (ctx (emptyStore ())) txConfig).run
      env6 createdAndReset = some s ∧
      (s.commit env6).1 = none ∧
      ∀ e ∈ s.journal.entries, e.account ≠ some 0xA2 := ⟨_, rfl, by decide +kernel, by decide⟩
  exact ⟨s, hrun, (run_frame hrun ha).2 _ (Prod.ext hcommit rfl)⟩

end TacEvm
