import TacEvm.Analysis.StoreInvariant

/-!
# Nonces that a run does not change

`Settled` says of all versions of an account that a `StateDB` can bring back that their nonces are
in a set. It is kept by everything but the writes of nonces, and what is committed is such a nonce.
-/

namespace TacEvm

open StateDB

variable {Ω : Type} {env : Env} {a : Address} {N : UInt64 → Prop}

/-- An object that is not destroyed and has one of the nonces. -/
def StateObject.HasNonce (N : UInt64 → Prop) (o : StateObject) : Prop :=
  N o.account.nonce ∧ o.suicided = false

theorem StateObject.HasNonce.of_view {st : Store Ω} {o o' : StateObject} (h : o.HasNonce N)
    (hview : o'.view env st a = o.view env st a) : o'.HasNonce N := by
  have hnonce : o'.account.nonce = o.account.nonce := congrArg ObjectView.nonce hview
  have hsuicided : o'.suicided = o.suicided := congrArg ObjectView.suicided hview
  rw [StateObject.HasNonce, hnonce, hsuicided]
  exact h

/-- A store in which the account has one of the nonces. -/
def HasSequence (a : Address) (N : UInt64 → Prop) (st : Store Ω) : Prop :=
  ∃ n, st.sequence a = some n ∧ N n

/-- What an entry restores of the account is one of the nonces. -/
def JournalEntry.Restores (a : Address) (N : UInt64 → Prop) : JournalEntry Ω → Prop
  | .resetObjectChange b prev => b = a → prev.HasNonce N
  | .suicideChange b prev _ => b = a → prev = false
  | .nonceChange b prev => b = a → N prev
  | _ => True

theorem JournalEntry.restores_of_plain (e : JournalEntry Ω) (h : e.plain = true) :
    e.Restores a N := by
  cases e <;> trivial

theorem ObjectWrite.hasNonce {st : Store Ω} {b : Address} {o o' : StateObject}
    {e : JournalEntry Ω} (h : ObjectWrite env st b o e o') (hplain : e.plain = true)
    (ho : o.HasNonce N) : o'.HasNonce N := by
  cases h with
  | nonce nonce => cases hplain
  | suicide => cases hplain
  | _ => exact ho

/-- The objects of a state that is reverted down to `log`. -/
structure Settled (a : Address) (N : UInt64 → Prop) (s : StateDB Ω)
    (log : List (JournalEntry Ω)) : Prop where
  ctx : HasSequence a N s.ctx.store
  object : ∀ o, s.stateObjects a = some o → o.HasNonce N
  journal : ∀ e ∈ log, e.Restores a N

namespace Settled

variable {s s' : StateDB Ω} {log : List (JournalEntry Ω)} {b : Address} {o : StateObject}
  {e : JournalEntry Ω}

theorem new {ctx : Context Ω} (tx : TxConfig) (h : HasSequence a N ctx.store) :
    Settled a N (new ctx tx) (new ctx tx).journal.entries := by
  refine ⟨h, ?_, ?_⟩
  · intro o ho
    cases ho
  · intro e he
    cases he

theorem lookup (h : Settled a N s log) (env : Env) :
    ∃ o, s.object env a = some o ∧ o.HasNonce N := by
  unfold StateDB.object
  cases hlive : s.stateObjects a with
  | some o => exact ⟨o, rfl, h.object o hlive⟩
  | none =>
    obtain ⟨n, hseq, hn⟩ := h.ctx
    rw [Option.none_or, Store.getAccount, hseq]
    exact ⟨_, rfl, hn, rfl⟩

theorem hasNonce (h : Settled a N s log) (hobj : s.object env b = some o) :
    b = a → o.HasNonce N := by
  rintro rfl
  obtain ⟨o', ho', hnonce⟩ := h.lookup env
  rw [hobj] at ho'
  cases ho'
  exact hnonce

theorem ne_of_missing (h : Settled a N s log) (hobj : s.object env b = none) : b ≠ a := by
  rintro rfl
  obtain ⟨o, ho, -⟩ := h.lookup env
  rw [hobj] at ho
  cases ho

theorem same (h : Settled a N s log) (hctx : s'.ctx = s.ctx)
    (hobjects : s'.stateObjects = s.stateObjects) : Settled a N s' log :=
  ⟨hctx ▸ h.ctx, hobjects ▸ h.object, h.journal⟩

theorem setStateObject (h : Settled a N s log) (ho : b = a → o.HasNonce N) :
    Settled a N (s.setStateObject b o) log := by
  refine ⟨h.ctx, ?_, h.journal⟩
  intro o' ho'
  by_cases hba : b = a
  · subst hba
    rw [StateDB.stateObjects_setStateObject_self] at ho'
    cases ho'
    exact ho rfl
  · have hsame : (s.setStateObject b o).stateObjects a = s.stateObjects a := by
      simp [StateDB.setStateObject, Ne.symm hba]
    rw [hsame] at ho'
    exact h.object o' ho'

theorem append (h : Settled a N s log) (he : e.Restores a N) : Settled a N s (log ++ [e]) := by
  refine ⟨h.ctx, h.object, ?_⟩
  intro e' he'
  rcases List.mem_append.mp he' with hold | hnew
  · exact h.journal e' hold
  · cases List.mem_singleton.mp hnew
    exact he

theorem write (h : Settled a N s s.journal.entries) (ho : b = a → o.HasNonce N)
    (he : e.Restores a N) :
    Settled a N ((s.append e).setStateObject b o)
      ((s.append e).setStateObject b o).journal.entries := by
  have happend : Settled a N (s.append e) (s.journal.entries ++ [e]) :=
    (h.append he).same rfl rfl
  exact happend.setStateObject ho

theorem frameStep (h : Settled a N s s.journal.entries) (hstep : FrameStep env s s') :
    Settled a N s' s'.journal.entries := by
  cases hstep with
  | lookup hobj => exact h.setStateObject (h.hasNonce hobj)
  | create hobj => exact h.write (fun hb => absurd hb (h.ne_of_missing hobj)) trivial
  | @balance b o hobj amount =>
    have ho : b = a → o.HasNonce N := h.hasNonce hobj
    exact h.write (o := o.setBalance amount) ho trivial
  | log log =>
    have happend := h.append (e := .addLogChange) trivial
    exact happend.same rfl rfl
  | cache cache => exact h.same rfl rfl

theorem frameSteps (h : Settled a N s s.journal.entries) (hsteps : FrameSteps env s s') :
    Settled a N s' s'.journal.entries := by
  induction hsteps with
  | refl => exact h
  | tail _ hstep ih => exact ih.frameStep hstep

theorem plainStep (h : Settled a N s s.journal.entries) (hstep : PlainStep env s s') :
    Settled a N s' s'.journal.entries := by
  cases hstep with
  | value hvalue =>
    have hvalues : ValueSteps env s s' := .single hvalue
    exact h.frameSteps hvalues.frame
  | @fill b o o' hlive hfill =>
    refine h.setStateObject fun hb => ?_
    subst hb
    rcases hfill with rfl | ⟨key, rfl⟩
    · exact (h.object o hlive).of_view (o.view_loadCode env s.ctx.store b)
    · exact (h.object o hlive).of_view (o.view_getCommittedState env s.ctx.store b key)
  | @write b o o' e hlive hwrite hplain =>
    have ho := h.hasNonce (@StateDB.object_of_live _ env _ _ _ hlive)
    exact h.write (fun hb => hwrite.hasNonce hplain (ho hb)) (e.restores_of_plain hplain)
  | refund refund => exact (h.append (e := .refundChange s.refund) trivial).same rfl rfl
  | accessAddress habsent =>
    exact (h.append (e := .accessListAddAccountChange _) trivial).same rfl rfl
  | accessSlot hadd => exact (h.append (e := .accessListAddSlotChange _ _) trivial).same rfl rfl

theorem plainSteps (h : Settled a N s s.journal.entries) (hsteps : PlainSteps env s s') :
    Settled a N s' s'.journal.entries := by
  induction hsteps with
  | refl => exact h
  | tail _ hstep ih => exact ih.plainStep hstep

theorem setNonce (h : Settled a N s s.journal.entries) {n : UInt64} (hn : b = a → N n) :
    Settled a N (s.setNonce env b n) (s.setNonce env b n).journal.entries := by
  obtain ⟨hsteps, hlive⟩ := s.getOrNew_value env b
  unfold StateDB.setNonce
  generalize s.getOrNewStateObject env b = r at hsteps hlive
  have hnew := h.plainSteps hsteps.plain
  have ho := hnew.hasNonce (@StateDB.object_of_live _ env _ _ _ hlive)
  exact hnew.write (o := r.1.setNonce n) (fun hb => ⟨hn hb, (ho hb).2⟩) fun hb => (ho hb).1

theorem createAccount (h : Settled a N s s.journal.entries) (hb : b ≠ a) :
    Settled a N (s.createAccount env b) (s.createAccount env b).journal.entries := by
  have hno : ∀ {o : StateObject}, b = a → o.HasNonce N := fun hba => absurd hba hb
  unfold StateDB.createAccount StateDB.createObject
  rw [StateDB.getStateObject_eq]
  cases hobj : s.object env b with
  | none => exact h.write hno trivial
  | some prev =>
    have hprev : (JournalEntry.resetObjectChange (Ω := Ω) b prev).Restores a N := hno
    exact ((h.setStateObject hno).write hno hprev).setStateObject hno

theorem suicide (h : Settled a N s s.journal.entries) (hb : b ≠ a) :
    Settled a N (s.suicide env b).2 (s.suicide env b).2.journal.entries := by
  have hno : ∀ {o : StateObject}, b = a → o.HasNonce N := fun hba => absurd hba hb
  unfold StateDB.suicide
  rw [StateDB.getStateObject_eq]
  cases hobj : s.object env b with
  | none => exact h
  | some o => exact (h.setStateObject hno).write hno fun hba => absurd hba hb

end Settled

/-- The actions that leave the nonce of an account within a set. -/
def Action.Spares (a : Address) (N : UInt64 → Prop) : Action Ω → Prop
  | .op (.write (.setNonce b n)) => b = a → N n
  | .op (.write (.createAccount b)) => b ≠ a
  | .op (.write (.suicide b)) => b ≠ a
  | _ => True

theorem Action.Spares.mono {N' : UInt64 → Prop} {act : Action Ω} (h : act.Spares a N)
    (hN : ∀ n, N n → N' n) : act.Spares a N' := by
  unfold Spares at h ⊢
  split
  · exact fun hb => hN _ (h hb)
  · exact h
  · exact h
  · trivial

namespace Settled

variable {s s' : StateDB Ω} {log : List (JournalEntry Ω)} {e : JournalEntry Ω}

/-- Undoing an entry keeps the nonce settled. -/
theorem revertEntry (h : Settled a N s (log ++ [e]))
    (hrevert : revertEntry env e s = some s') : Settled a N s' log := by
  have he : e.Restores a N := h.journal e (List.mem_append_right _ (List.mem_singleton_self e))
  have hlog : Settled a N s log :=
    ⟨h.ctx, h.object, fun e' he' => h.journal e' (List.mem_append_left _ he')⟩
  obtain ⟨s₁, hundo, rfl⟩ := Option.map_eq_some_iff.mp hrevert
  suffices hs₁ : Settled a N s₁ log from hs₁.same rfl rfl
  have hkeep : ∀ {account : Address} {o o' : StateObject}, s.object env account = some o →
      (o.HasNonce N → account = a → o'.HasNonce N) →
        Settled a N (s.setStateObject account o') log :=
    fun hobj hnonce => hlog.setStateObject fun hacc => hnonce (hlog.hasNonce hobj hacc) hacc
  cases JournalEntry.undone hundo with
  | create account =>
    refine ⟨hlog.ctx, fun o ho => ?_, hlog.journal⟩
    by_cases hacc : a = account
    · subst hacc
      simp at ho
    · simp only [Function.update_of_ne hacc] at ho
      exact hlog.object o ho
  | reset account prev => exact hlog.setStateObject he
  | suicideAbsent hobj prev prevbalance => exact hlog
  | suicide hobj prev prevbalance => exact hkeep hobj fun ho hacc => ⟨ho.1, he hacc⟩
  | balance hobj prev => exact hkeep hobj fun ho _ => ho
  | nonce hobj prev => exact hkeep hobj fun ho hacc => ⟨he hacc, ho.2⟩
  | storage hobj key prev => exact hkeep hobj fun ho _ => ho
  | code hobj prevcode prevhash => exact hkeep hobj fun ho _ => ho
  | _ => exact hlog.same rfl rfl

section

variable (h : Settled a N s s.journal.entries)
include h

theorem revertToSnapshot {revid : ℕ} (hrevert : s.revertToSnapshot env revid = some s') :
    Settled a N s' s'.journal.entries := by
  obtain ⟨idx, r, s₁, -, -, hroll, rfl⟩ := revertToSnapshot_cases hrevert
  have hsplit : Settled a N s (s.journal.entries.take r.journalIndex ++
      s.journal.entries.drop r.journalIndex) := by
    rw [List.take_append_drop]
    exact h
  have hback :=
    Rollback.rollback_invariant (Settled a N) (fun _ _ _ _ hw hundo => hw.revertEntry hundo)
      hsplit hroll
  exact hback.same rfl rfl

theorem entered (env : Env) (c : PrecompileCall Ω) :
    Settled a N (s.entered env c) (s.entered env c).journal.entries := by
  have hsnapshot : Settled a N (s.canTransfer env c).2.snapshot.2
      (s.canTransfer env c).2.snapshot.2.journal.entries :=
    (h.plainSteps (s.canTransfer_value env c).plain).same rfl rfl
  exact hsnapshot.plainSteps (enterCall_value env _ c).plain

theorem call {c : PrecompileCall Ω} {err : Option Err}
    (hcall : s.callPrecompile env c = some (err, s')) : Settled a N s' s'.journal.entries := by
  have hframe := (h.entered env c).frameSteps
    (FrameSteps.runBody _ c.precompile c.frame : FrameSteps env _ _)
  refine callPrecompile_invariant (fun s => Settled a N s s.journal.entries)
    (h.plainSteps (s.canTransfer_value env c).plain) hframe
    (fun _ _ hsteps h => h.plainSteps hsteps.plain) (fun s₁ h₁ => ?_)
    (fun _ _ _ hback h => h.revertToSnapshot hback) hcall
  exact (h₁.append (e := .precompileCallChange (s.entered env c).cacheStore
    (s.entered env c).cacheContext.events) trivial).same rfl rfl

theorem ofWrite {w : Write} (hspares : (Action.op (Ω := Ω) (.write w)).Spares a N)
    (hplain : w.plain = false) (hstep : w.step env s = some s') :
    Settled a N s' s'.journal.entries := by
  cases w with
  | createAccount addr =>
    cases hstep
    exact h.createAccount hspares
  | setNonce addr nonce =>
    cases hstep
    exact h.setNonce hspares
  | suicide addr =>
    cases hstep
    exact h.suicide hspares
  | addLog address topics data =>
    cases hstep
    exact h.frameStep (.log _ : FrameStep env _ _)
  | _ => cases hplain

theorem action {act : Action Ω} (hspares : act.Spares a N) (hstep : act.step env s = some s') :
    Settled a N s' s'.journal.entries := by
  cases act with
  | call c =>
    obtain ⟨⟨err, s₁⟩, hcall, rfl⟩ := Option.map_eq_some_iff.mp hstep
    exact h.call hcall
  | op o =>
    refine Op.invariant (fun s => Settled a N s s.journal.entries)
      (fun _ _ hsteps h => h.plainSteps hsteps) ?_ (fun h => h.same rfl rfl)
      (fun _ _ _ hback h => h.revertToSnapshot hback) h hstep
    rintro w rfl hplain hwrite
    exact h.ofWrite hspares hplain hwrite

end

theorem commitKeeps (h : Settled a N s log) : CommitKeeps (HasSequence a N) s := by
  intro b o ho
  have hset : ∀ (st : Store Ω) (seq : Option UInt64), (b = a → ∃ n, seq = some n ∧ N n) →
      HasSequence a N st → HasSequence a N (st.setSequence b seq) := by
    intro st seq hseq hst
    by_cases hba : b = a
    · obtain ⟨n, rfl, hn⟩ := hseq hba
      subst hba
      exact ⟨n, by simp [Store.setSequence], hn⟩
    · obtain ⟨n, hsame, hn⟩ := hst
      exact ⟨n, by simp [Store.setSequence, Ne.symm hba, hsame], hn⟩
  exact {
    balance := fun _ _ _ _ hst => hst
    supply := fun _ _ _ hst => hst
    code := fun _ _ hst => hst
    storage := fun _ _ hst => hst
    codeHash := fun _ _ hst => hst
    sequence := by
      intro st _ hst
      refine hset st _ ?_ hst
      rintro rfl
      exact ⟨_, rfl, (h.object o ho).1⟩
    removed := by
      intro st hsuicided hst
      refine hset st none ?_ hst
      rintro rfl
      rw [(h.object o ho).2] at hsuicided
      cases hsuicided }

end Settled

/-- The nonce is settled in the objects and in all stores. -/
structure FullySettled (a : Address) (N : UInt64 → Prop) (s : StateDB Ω) : Prop where
  objects : Settled a N s s.journal.entries
  stores : StoresSatisfy (HasSequence a N) s

namespace FullySettled

variable {s s' : StateDB Ω}

theorem new {ctx : Context Ω} (tx : TxConfig) (h : HasSequence a N ctx.store) :
    FullySettled a N (new ctx tx) :=
  ⟨.new tx h, .new h⟩

/-- **Runs keep settled nonces.** -/
theorem run {as : List (Action Ω)} (h : FullySettled a N s) (hspares : ∀ act ∈ as, act.Spares a N)
    (heffect : ∀ c, Action.call c ∈ as → ∀ st, HasSequence a N st → HasSequence a N (c.effect st))
    (hrun : s.run env as = some s') : FullySettled a N s' := by
  induction as generalizing s with
  | nil =>
    cases hrun
    exact h
  | cons act as ih =>
    obtain ⟨s₁, hstep, hrest⟩ := Option.bind_eq_some_iff.mp hrun
    have hstores : StoresSatisfy (HasSequence a N) s₁ :=
      h.stores.action (fun c _ => (h.objects.entered env c).commitKeeps)
        (fun c hc => heffect c (hc ▸ List.mem_cons_self)) hstep
    have hobjects := h.objects.action (hspares act List.mem_cons_self) hstep
    exact ih ⟨hobjects, hstores⟩ (fun b hb => hspares b (List.mem_cons_of_mem act hb))
      (fun c hc => heffect c (List.mem_cons_of_mem act hc)) hrest

theorem commit (h : FullySettled a N s) (env : Env) :
    HasSequence a N (s.commit env).2.store :=
  h.objects.commitKeeps.commit h.stores.cache

end FullySettled

end TacEvm
