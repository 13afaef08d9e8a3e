import Mathlib.Data.Nat.Count
import TacEvm.Analysis.ExactRollback

/-!
# The bound on precompile calls

`AddPrecompileFn` refuses the calls of a transaction after the seventh. Its counter has eight bits
and counts the refused calls too, so it starts again after 255.
-/

namespace TacEvm

open StateDB

variable {Ω : Type} {env : Env}

variable (env) in
/-- The calls of a run before which `P` holds. -/
def StateDB.countCalls (P : StateDB Ω → PrecompileCall Ω → Bool) :
    StateDB Ω → List (Action Ω) → ℕ
  | _, [] => 0
  | s, a :: as =>
    (match a with
      | .op _ => 0
      | .call c => if P s c then 1 else 0) +
      (a.step env s).elim 0 fun s' => countCalls P s' as

variable (env) in
/-- Whether `Run` completes without error. -/
def StateDB.callSucceeds (s : StateDB Ω) (c : PrecompileCall Ω) : Bool :=
  match s.callPrecompile env c with
  | some (none, _) => true
  | _ => false

/-- Whether the `i`-th call from a counter of `n` is within the bound. -/
def withinBound (n : UInt8) (i : ℕ) : Prop := n + UInt8.ofNat i + 1 ≤ maxPrecompileCalls

instance (n : UInt8) : DecidablePred (withinBound n) := fun i =>
  inferInstanceAs (Decidable (n + UInt8.ofNat i + 1 ≤ maxPrecompileCalls))

theorem withinBound_succ (n : UInt8) (i : ℕ) :
    withinBound n (i + 1) ↔ withinBound (n + 1) i := by
  have hsum : n + UInt8.ofNat (i + 1) = n + 1 + UInt8.ofNat i := by
    rw [UInt8.ofNat_add, UInt8.add_comm (UInt8.ofNat i), UInt8.add_assoc]
    rfl
  unfold withinBound
  rw [hsum]

/-! ## What actions do to the counter -/

variable {s s' : StateDB Ω}

theorem StateDB.revertToSnapshot_counter {revid : ℕ} (h : s.revertToSnapshot env revid = some s') :
    s'.precompileCallsCounter = s.precompileCallsCounter := by
  obtain ⟨idx, r, s₁, -, -, hroll, rfl⟩ := revertToSnapshot_cases h
  exact ((s.observe_rollback _).2 s₁ hroll).counter

theorem Op.step_counter {o : Op} (h : o.step env s = some s') :
    s'.precompileCallsCounter = s.precompileCallsCounter := by
  cases o with
  | read r =>
    cases h
    exact (Read.steps s r).sameControl.counter
  | write w => exact (Write.steps h).sameControl.counter
  | snapshot =>
    cases h
    rfl
  | revertToSnapshot place =>
    obtain ⟨r, -, hrevert⟩ := Option.bind_eq_some_iff.mp h
    exact revertToSnapshot_counter hrevert

/-- `Run` advances the counter, and succeeds within the bound. -/
theorem StateDB.runPrecompile_counter (s : StateDB Ω) (p : Precompile Ω) (c : Frame) :
    (∃ entries s₁, s.runBody env p c = (.ok entries, s₁) ∧
      (s.runPrecompile env p c).2.precompileCallsCounter = s.precompileCallsCounter + 1 ∧
      ((s.runPrecompile env p c).1 = none ↔ s.precompileCallsCounter + 1 ≤ maxPrecompileCalls)) ∨
    (∃ e s₁, s.runBody env p c = (.error e, s₁) ∧ s.runPrecompile env p c = (some e, s₁) ∧
      s₁.precompileCallsCounter = s.precompileCallsCounter) := by
  have hbody := (@FrameSteps.runBody Ω env s p c).sameFrame.counter
  rcases @runPrecompile_frame Ω env s p c with
    ⟨e, herror, hrun⟩ | ⟨entries, s₁, hok, -, hchanges, hrun⟩
  · exact .inr ⟨e, _, Prod.ext herror rfl, hrun, hbody⟩
  refine .inl ⟨entries, _, Prod.ext hok rfl, ?_, ?_⟩
  · rw [hrun]
    show s₁.precompileCallsCounter + 1 = _
    rw [hchanges.frame.sameFrame.counter, hbody]
  rw [hrun]
  split
  · rename_i hover
    simpa using hover
  · rename_i hwithin
    simpa using hwithin

/-- **One call** that completes advances the counter. -/
theorem StateDB.callPrecompile_counter (s : StateDB Ω) (c : PrecompileCall Ω) :
    (s.callCompletes env c = true ∧
      (s.callSucceeds env c = true ↔ s.precompileCallsCounter + 1 ≤ maxPrecompileCalls) ∧
      ∀ e s', s.callPrecompile env c = some (e, s') →
        s'.precompileCallsCounter = s.precompileCallsCounter + 1) ∨
    (s.callCompletes env c = false ∧ s.callSucceeds env c = false ∧
      ∀ e s', s.callPrecompile env c = some (e, s') →
        s'.precompileCallsCounter = s.precompileCallsCounter) := by
  have hcan := (s.canTransfer_steps env c).sameControl.counter
  unfold callSucceeds callCompletes callPrecompile
  generalize s.canTransfer env c = r at hcan
  obtain ⟨enough, s₁⟩ := r
  cases enough with
  | false =>
    right
    refine ⟨rfl, by simp, fun e s' h => ?_⟩
    cases h
    exact hcan
  | true =>
    dsimp only at hcan ⊢
    have henter := (s₁.snapshot.2.enterCall_steps env c).sameControl.counter
    have hsame := henter.trans hcan
    rw [← hsame]
    rcases @runPrecompile_counter Ω env (s₁.snapshot.2.enterCall env c) c.precompile c.frame with
      ⟨entries, s₂, hbody, hcounter, hnone⟩ | ⟨err, s₂, hbody, hrun, hcounter⟩
    · left
      rw [hbody]
      generalize (s₁.snapshot.2.enterCall env c).runPrecompile env c.precompile c.frame = q
        at hcounter hnone
      obtain ⟨err, s₃⟩ := q
      cases err with
      | none =>
        refine ⟨rfl, by simpa using hnone, fun e s' h => ?_⟩
        cases h
        exact hcounter
      | some err =>
        have hover := hnone.not.mp (by simp)
        refine ⟨rfl, ?_, fun e s' h => ?_⟩
        · cases s₃.revertToSnapshot env s₁.snapshot.1 <;> simpa using hover
        obtain ⟨s₄, hrevert, heq⟩ := Option.map_eq_some_iff.mp h
        cases heq
        rw [revertToSnapshot_counter hrevert]
        exact hcounter
    · right
      rw [hbody, hrun]
      refine ⟨rfl, ?_, fun e s' h => ?_⟩
      · cases hrevert : s₂.revertToSnapshot env s₁.snapshot.1 <;> simp [hrevert]
      obtain ⟨s₄, hrevert, heq⟩ := Option.map_eq_some_iff.mp h
      cases heq
      rw [revertToSnapshot_counter hrevert]
      exact hcounter

/-- **Calls of a run** that complete succeed exactly within the bound. -/
theorem StateDB.countCalls_succeeds (s : StateDB Ω) (as : List (Action Ω)) :
    s.countCalls env (callSucceeds env) as =
      Nat.count (withinBound s.precompileCallsCounter)
        (s.countCalls env (callCompletes env) as) := by
  induction as generalizing s with
  | nil => rfl
  | cons a as ih =>
    have hrest : ∀ n : UInt8, (∀ s', a.step env s = some s' → s'.precompileCallsCounter = n) →
        ((a.step env s).elim 0 fun s' => s'.countCalls env (callSucceeds env) as) =
          Nat.count (withinBound n)
            ((a.step env s).elim 0 fun s' => s'.countCalls env (callCompletes env) as) := by
      intro n hn
      cases hstep : a.step env s with
      | none => rfl
      | some s' =>
        have hs' := ih s'
        rw [hn s' hstep] at hs'
        exact hs'
    cases a with
    | op o =>
      simp only [countCalls, zero_add]
      exact hrest _ fun s' h => Op.step_counter h
    | call c =>
      have hstep : ∀ n : UInt8, (∀ e s', s.callPrecompile env c = some (e, s') →
          s'.precompileCallsCounter = n) →
          ∀ s', (Action.call c).step env s = some s' → s'.precompileCallsCounter = n := by
        intro n hn s' h
        obtain ⟨⟨e, s''⟩, hcall, rfl⟩ := Option.map_eq_some_iff.mp h
        exact hn e s'' hcall
      simp only [countCalls]
      rcases @callPrecompile_counter Ω env s c with
        ⟨hcomplete, hsucceeds, hcounter⟩ | ⟨hcomplete, hfail, hcounter⟩
      · rw [hrest _ (hstep _ hcounter)]
        simp only [hcomplete, if_true, hsucceeds]
        rw [Nat.add_comm 1, Nat.count_succ']
        have hfirst : withinBound s.precompileCallsCounter 0 ↔
            s.precompileCallsCounter + 1 ≤ maxPrecompileCalls := by simp [withinBound]
        simp only [withinBound_succ, hfirst]
        exact Nat.add_comm _ _
      · rw [hrest _ (hstep _ hcounter)]
        simp [hcomplete, hfail]

/-- **The bound on precompile calls** holds exactly for at most 255 counted calls. -/
theorem callSucceeds_le_iff (ctx : Context Ω) (tx : TxConfig) (as : List (Action Ω)) :
    (StateDB.new ctx tx).countCalls env (StateDB.callSucceeds env) as ≤ maxPrecompileCalls.toNat ↔
      (StateDB.new ctx tx).countCalls env (StateDB.callCompletes env) as ≤ 255 := by
  rw [StateDB.countCalls_succeeds]
  have hmono := Nat.count_monotone (withinBound (StateDB.new ctx tx).precompileCallsCounter)
  have hmost : Nat.count (withinBound 0) 255 = 7 := by decide +kernel
  have hover : Nat.count (withinBound 0) 256 = 8 := by decide +kernel
  constructor
  · intro hle
    by_contra hlt
    push Not at hlt
    have height := hover.ge.trans (hmono hlt)
    exact absurd (height.trans hle) (by decide)
  · intro hle
    exact (hmono hle).trans hmost.le

/-! ## A run of 256 calls -/

/-- No entry is about an account. -/
def Quiet (s : StateDB Ω) : Prop := ∀ e ∈ s.journal.entries, e.account = none

theorem Quiet.sortedDirties {ctx : Context Ω} (hq : Quiet s) (hr : Reached env ctx s) :
    s.journal.sortedDirties = [] := by
  rw [List.eq_nil_iff_forall_not_mem]
  intro a ha
  obtain ⟨e, he, hd⟩ := (hr.tracked.mem_dirties a).mp ((mem_sortedDirties s.journal a).mp ha)
  have hnone := hq e he
  rw [JournalEntry.account_of_dirtied hd] at hnone
  cases hnone

theorem Quiet.object {ctx : Context Ω} (hq : Quiet s) (hr : Reached env ctx s) {a : Address}
    (ha : ctx.store.sequence a ≠ none) : ∃ o, s.object env a = some o := by
  have hview := hr.untouched a fun e he hacc => by
    rw [hq e he] at hacc
    cases hacc
  rw [observe_objects] at hview
  cases hobj : s.object env a with
  | some o => exact ⟨o, rfl⟩
  | none =>
    rw [hobj] at hview
    obtain ⟨seq, hseq⟩ := Option.ne_none_iff_exists'.mp ha
    simp [loadedView, Store.getAccount, hseq] at hview

theorem Quiet.append_call {cms : Store Ω} {events : List Event} (hq : Quiet s)
    (h : s'.journal.entries = s.journal.entries ++ [.precompileCallChange cms events]) :
    Quiet s' := by
  intro e he
  rw [h] at he
  rcases List.mem_append.mp he with he | he
  · exact hq e he
  · rw [List.mem_singleton.mp he]
    rfl

theorem Quiet.revertToSnapshot {revid : ℕ} (hq : Quiet s)
    (h : s.revertToSnapshot env revid = some s') : Quiet s' := by
  obtain ⟨idx, r, s₁, -, -, -, rfl⟩ := revertToSnapshot_cases h
  exact fun e he => hq e (List.mem_of_mem_take he)

namespace StateDB

variable {s : StateDB Ω} {a : Address} {o : StateObject}

theorem exist_of_object (h : s.object env a = some o) :
    s.exist env a = (true, s.setStateObject a o) := by
  unfold exist readObject
  rw [getStateObject_eq, h]
  simp [setStateObject]

theorem transfer_zero {b : Address} {o' : StateObject} (h : s.object env a = some o)
    (h' : s.object env b = some o') : ∃ o'', s.transfer env a b 0 =
      (s.setStateObject a o).setStateObject b o'' := by
  have hzero : env.adjustExtraDecimals 0 = 0 := by simp [Env.adjustExtraDecimals]
  have hsub : s.subBalance env a 0 = s.setStateObject a o := by
    simp [subBalance, getOrNewStateObject_eq, h, hzero]
  have hobj : ∃ o'', (s.setStateObject a o).object env b = some o'' := by
    rw [object_setStateObject]
    by_cases hba : b = a
    · subst hba
      exact ⟨o, by simp⟩
    · exact ⟨o', by rw [Function.update_of_ne hba, h']⟩
  obtain ⟨o'', ho''⟩ := hobj
  refine ⟨o'', ?_⟩
  rw [transfer, hsub]
  simp [addBalance, getOrNewStateObject_eq, ho'', hzero]

theorem flush_quiet (h : s.journal.sortedDirties = []) :
    s.flush env = (none, { s with cacheCtx := some s.cacheContext }) := by
  have hrun : ∀ st, (s.getCacheContext.commitWithCtx env).run st = .ok () st := by
    intro st
    unfold commitWithCtx
    rw [show s.getCacheContext.journal.sortedDirties = [] from h]
    rfl
  have hevents : s.getCacheContext.commitWithCtxEvents env s.getCacheContext.cacheStore = [] := by
    unfold commitWithCtxEvents
    rw [show s.getCacheContext.journal.sortedDirties = [] from h]
    rfl
  unfold flush commitWithCacheCtx
  rw [hrun, hevents, List.append_nil]
  rfl

end StateDB

namespace Devnet

/-- `0xA1` calls the precompile that does nothing. -/
def idleCall : PrecompileCall Unit :=
  ⟨.call, precompile idle, frame 0xA1 [0, 0, 0, 1]⟩

variable {d : Decimals} {s : StateDB Unit}

theorem idle_runBody (h : s.journal.sortedDirties = []) :
    ∃ s', s.runBody (Devnet.env d) idleCall.precompile idleCall.frame = (.ok [], s') ∧
      s'.journal = s.journal ∧ s'.object (Devnet.env d) = s.object (Devnet.env d) := by
  have hguard : idleCall.precompile.guard idleCall.frame = none := rfl
  have hprepare : idleCall.precompile.prepare idleCall.frame = .ok idle := rfl
  have hflush : s.flush (Devnet.env d) = (none, { s with cacheCtx := some s.cacheContext }) :=
    flush_quiet h
  unfold runBody runMethod
  rw [hguard]
  rw [hflush]
  rw [hprepare]
  exact ⟨_, rfl, rfl, rfl⟩

theorem idle_runPrecompile (h : s.journal.sortedDirties = []) {o : StateObject}
    (hobj : s.object (Devnet.env d) 0x800 = some o) :
    ∃ cms events, (s.runPrecompile (Devnet.env d) idleCall.precompile
      idleCall.frame).2.journal.entries =
        s.journal.entries ++ [.precompileCallChange cms events] := by
  obtain ⟨s', hbody, hjournal, hobject⟩ := @idle_runBody d s h
  refine ⟨s.cacheContext.store, s.cacheContext.events, ?_⟩
  unfold runPrecompile addJournalEntries addPrecompileFn
  rw [hbody]
  have hsame : s'.object (Devnet.env d) idleCall.precompile.address = some o := by
    rw [hobject]
    exact hobj
  simp only [List.foldl_nil, getOrNewStateObject_eq, hsame]
  rw [← hjournal]
  split <;> rfl

theorem idle_enterCall {o o' : StateObject} (hself : s.object (Devnet.env d) 0x800 = some o)
    (hcaller : s.object (Devnet.env d) 0xA1 = some o') :
    ∃ o₁ o₂ o₃, s.enterCall (Devnet.env d) idleCall =
      ((s.setStateObject 0x800 o₁).setStateObject 0xA1 o₂).setStateObject 0x800 o₃ := by
  have hself' : (s.setStateObject 0x800 o).object (Devnet.env d) 0x800 = some o := by simp
  have hcaller' : (s.setStateObject 0x800 o).object (Devnet.env d) 0xA1 = some o' := by
    rw [object_setStateObject, Function.update_of_ne (by decide)]
    exact hcaller
  obtain ⟨o₃, htransfer⟩ := transfer_zero hcaller' hself'
  refine ⟨o, o', o₃, ?_⟩
  have hexist : s.exist (Devnet.env d) idleCall.precompile.address =
      (true, s.setStateObject 0x800 o) := exist_of_object hself
  unfold enterCall
  simp only [hexist]
  exact htransfer

/-- A transaction that has called the idle precompile so far. -/
structure Idling (d : Decimals) (s : StateDB Unit) : Prop where
  moves : Moves (Devnet.env d) (new (ctx accountsStore) txConfig) s
  quiet : Quiet s

/-- A call of the idle contract completes, and idles on. -/
theorem Idling.call (h : Idling d s) :
    s.callCompletes (Devnet.env d) idleCall = true ∧
      ∃ s', (Action.call idleCall).step (Devnet.env d) s = some s' ∧ Idling d s' := by
  have hr := h.moves.reached
  have hdirties : s.journal.sortedDirties = [] := h.quiet.sortedDirties hr
  obtain ⟨o, hself⟩ := h.quiet.object hr (a := 0x800) (by decide)
  obtain ⟨o', hcaller⟩ := h.quiet.object hr (a := 0xA1) (by decide)
  have hsnapshot : s.snapshot.2.object (Devnet.env d) = s.object (Devnet.env d) := rfl
  rw [← hsnapshot] at hself hcaller
  obtain ⟨o₁, o₂, o₃, henter⟩ := idle_enterCall hself hcaller
  have hcan : s.canTransfer (Devnet.env d) idleCall = (true, s) := rfl
  set s₂ := s.snapshot.2.enterCall (Devnet.env d) idleCall with hs₂
  have hjournal : s₂.journal = s.journal := by
    rw [henter]
    rfl
  have hclean : s₂.journal.sortedDirties = [] := by
    rw [hjournal, hdirties]
  have hobj : s₂.object (Devnet.env d) 0x800 = some o₃ := by
    rw [henter]
    simp
  obtain ⟨s₃, hbody, -, -⟩ := @idle_runBody d s₂ hclean
  obtain ⟨cms, events, hentries⟩ := idle_runPrecompile hclean hobj
  have hquiet : Quiet (s₂.runPrecompile (Devnet.env d) idleCall.precompile idleCall.frame).2 := by
    rw [hjournal] at hentries
    exact h.quiet.append_call hentries
  obtain ⟨⟨err, s'⟩, hcall⟩ := callPrecompile_total h.moves idleCall
  refine ⟨?_, s', by rw [Action.step, hcall]; rfl, h.moves.trans (callPrecompile_moves hcall), ?_⟩
  · unfold callCompletes
    rw [hcan]
    dsimp only
    rw [← hs₂, hbody]
  unfold callPrecompile at hcall
  rw [hcan] at hcall
  dsimp only at hcall
  rw [show s.snapshot = (s.snapshot.1, s.snapshot.2) from rfl] at hcall
  rw [← hs₂] at hcall
  generalize s₂.runPrecompile (Devnet.env d) idleCall.precompile idleCall.frame = q at hcall hquiet
  obtain ⟨e, s₄⟩ := q
  cases e with
  | none =>
    cases hcall
    exact hquiet
  | some e =>
    obtain ⟨s₅, hrevert, heq⟩ := Option.map_eq_some_iff.mp hcall
    cases heq
    exact hquiet.revertToSnapshot hrevert

theorem Idling.countCalls (h : Idling d s) (n : ℕ) :
    s.countCalls (Devnet.env d) (callCompletes (Devnet.env d))
      (List.replicate n (.call idleCall)) = n := by
  induction n generalizing s with
  | zero => rfl
  | succ n ih =>
    obtain ⟨hcomplete, s', hstep, hnext⟩ := h.call
    have hrest := ih hnext
    rw [List.replicate_succ, countCalls, hstep]
    simp only [hcomplete, if_true, Option.elim_some, hrest]
    exact Nat.add_comm 1 n

end Devnet

/-- Of 256 calls in one transaction eight succeed. -/
theorem eight_calls_succeed :
    maxPrecompileCalls.toNat <
      Devnet.accountsState.countCalls
        Devnet.env18 (StateDB.callSucceeds Devnet.env18)
        (List.replicate 256 (.call Devnet.idleCall)) := by
  have hstart : Devnet.Idling .eighteenDecimals Devnet.accountsState :=
    ⟨.refl, by simp [Quiet, StateDB.new]⟩
  rw [StateDB.countCalls_succeeds, hstart.countCalls]
  decide +kernel

end TacEvm
