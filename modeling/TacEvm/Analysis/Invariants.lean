import TacEvm.Analysis.CallFrames
import TacEvm.Analysis.CommitSpec
import TacEvm.Analysis.Tracking

/-!
# What holds in every reachable state

Facts about accounts that hold whatever a transaction does and reverts, each proved of the single
changes and carried to all runs by `Moves.invariant_new` or `Moves.forall_objects`.
-/

namespace TacEvm

open Rollback StateDB Observation

variable {Ω : Type} {env : Env} {st : Store Ω}

variable {w w' : Observation} {es : List (JournalEntry Ω)}

variable {a : Address}

theorem Change.objects_other (h : Change env st w es w') (ha : ∀ e ∈ es, e.account ≠ some a) :
    w'.objects a = w.objects a := by
  have hset : ∀ (b : Address) (v : Option ObjectView) (e : JournalEntry Ω), e ∈ es →
      e.account = some b → (w.setObject b v).objects a = w.objects a := by
    intro b v e he hb
    have hne : a ≠ b := by
      rintro rfl
      exact ha e he hb
    exact Function.update_of_ne hne _ _
  cases h with
  | silent => rfl
  | refund refund => rfl
  | log log => rfl
  | accessAddress habsent => rfl
  | accessSlot hadd => rfl
  | call cms events => rfl
  | _ => exact hset _ _ _ (List.mem_singleton_self _) rfl

theorem Observation.setObject_cases {b : Address} {v' v : ObjectView}
    (h : (w.setObject b (some v')).objects a = some v) :
    (a = b ∧ v = v') ∨ w.objects a = some v := by
  by_cases hab : a = b
  · subst hab
    left
    simpa [setObject, eq_comm] using h
  · right
    simpa [setObject, hab] using h

/-! ## Facts about single accounts -/

/-- Holds of new accounts, and the writes keep it. -/
structure KeptByWrites (env : Env) (st : Store Ω) (P : Address → ObjectView → Prop) : Prop where
  create : ∀ a, P a (freshView env st a)
  reset : ∀ a v, P a v → P a ((freshView env st a).setBalance v.balance)
  balance : ∀ a v amount, (env.conversionFactor : ℤ) ∣ amount - v.balance → P a v →
    P a (v.setBalance amount)
  nonce : ∀ a v nonce, P a v → P a (v.setNonce nonce)
  code : ∀ a v (code : Option Bytes), P a v →
    P a (v.setCode env st (env.keccak256 (code.getD [])) code)
  storage : ∀ a v key value, P a v → P a (v.setState key value)
  suicide : ∀ a v, P a v → P a { v.setBalance 0 with suicided := true }

variable {P : Address → ObjectView → Prop}

theorem Change.forall_objects (hP : KeptByWrites env st P) (h : Change env st w es w')
    (hw : ∀ a v, w.objects a = some v → P a v) : ∀ a v, w'.objects a = some v → P a v := by
  intro a v hv
  have hset : ∀ b v', (w.setObject b (some v')).objects a = some v → P b v' → P a v := by
    intro b v' hv hnew
    rcases setObject_cases hv with ⟨rfl, rfl⟩ | hv
    · exact hnew
    · exact hw a v hv
  cases h with
  | create hobj hload => exact hset _ _ hv (hP.create _)
  | reset hobj => exact hset _ _ hv (hP.reset _ _ (hw _ _ hobj))
  | balance amount hobj hdvd => exact hset _ _ hv (hP.balance _ _ amount hdvd (hw _ _ hobj))
  | nonce nonce hobj => exact hset _ _ hv (hP.nonce _ _ nonce (hw _ _ hobj))
  | code code hobj hcode => exact hset _ _ hv (hP.code _ _ code (hw _ _ hobj))
  | storage key value hobj => exact hset _ _ hv (hP.storage _ _ key value (hw _ _ hobj))
  | suicide hobj => exact hset _ _ hv (hP.suicide _ _ (hw _ _ hobj))
  | _ => exact hw a v hv

variable {ctx : Context Ω} {tx : TxConfig} {s s' : StateDB Ω}

/-- **Accounts in every reachable state** have what writes keep. -/
theorem Moves.forall_objects (hP : KeptByWrites env ctx.store P)
    (hload : ∀ a v, loadedView env ctx.store a = some v → P a v) (h : Moves env (new ctx tx) s) :
    ∀ a v, (s.observe env).objects a = some v → P a v := by
  have hinit : ∀ a v, ((new ctx tx).observe env).objects a = some v → P a v := by
    intro a v hv
    rw [observe_new] at hv
    exact hload a v hv
  obtain ⟨-, -, ⟨-, hall⟩, -⟩ := Moves.invariant_new
    (Φ := fun w _ => ∀ a v, w.objects a = some v → P a v) hinit
    (fun w log es w' hchange hw => hchange.forall_objects hP hw) h
  exact hall

theorem wholeUnits_kept (env : Env) (st : Store Ω) :
    KeptByWrites env st fun _ v => (env.conversionFactor : ℤ) ∣ v.balance where
  create := fun _ => dvd_zero _
  reset := fun _ _ h => h
  balance := fun _ _ _ hdvd h => (dvd_sub_left h).mp hdvd
  nonce := fun _ _ _ h => h
  code := fun _ _ _ h => h
  storage := fun _ _ _ _ h => h
  suicide := fun _ _ _ => dvd_zero _

/-! ## Facts about accounts and their entries -/

/-- Accounts without entries read as they would be loaded. -/
def Untouched (env : Env) (st : Store Ω) (w : Observation) (log : List (JournalEntry Ω)) : Prop :=
  ∀ a, (∀ e ∈ log, e.account ≠ some a) → w.objects a = loadedView env st a

/-- Balances are whole numbers of bank units. -/
def WholeUnits (env : Env) (w : Observation) : Prop :=
  ∀ a v, w.objects a = some v → (env.conversionFactor : ℤ) ∣ v.balance

/-- The journal has an entry for every account that is suicided. -/
def SuicidesJournaled (w : Observation) (log : List (JournalEntry Ω)) : Prop :=
  ∀ a v, w.objects a = some v → v.suicided = true → ∃ prev b, .suicideChange a prev b ∈ log

variable {log : List (JournalEntry Ω)}

theorem Change.untouched (h : Change env st w es w') (hw : Untouched env st w log) :
    Untouched env st w' (log ++ es) := by
  intro a ha
  rw [h.objects_other fun e he => ha e (List.mem_append_right _ he)]
  exact hw a fun e he => ha e (List.mem_append_left _ he)

/-- Suicides stay journaled through every change. -/
theorem Change.suicidesJournaled (h : Change env st w es w') (hw : SuicidesJournaled w log) :
    SuicidesJournaled w' (log ++ es) := by
  intro a v hv hs
  have hold : ∀ v, w.objects a = some v → v.suicided = true →
      ∃ prev b, .suicideChange a prev b ∈ log ++ es := by
    intro v hobj hs
    obtain ⟨prev, b, hmem⟩ := hw a v hobj hs
    exact ⟨prev, b, List.mem_append_left _ hmem⟩
  cases h with
  | create hobj hload =>
    rcases setObject_cases hv with ⟨rfl, rfl⟩ | hv
    · cases hs
    · exact hold v hv hs
  | reset hobj =>
    rcases setObject_cases hv with ⟨rfl, rfl⟩ | hv
    · cases hs
    · exact hold v hv hs
  | balance amount hobj hdvd =>
    rcases setObject_cases hv with ⟨rfl, rfl⟩ | hv
    · exact hold _ hobj hs
    · exact hold v hv hs
  | nonce nonce hobj =>
    rcases setObject_cases hv with ⟨rfl, rfl⟩ | hv
    · exact hold _ hobj hs
    · exact hold v hv hs
  | code code hobj hcode =>
    rcases setObject_cases hv with ⟨rfl, rfl⟩ | hv
    · exact hold _ hobj hs
    · exact hold v hv hs
  | storage key value hobj =>
    rcases setObject_cases hv with ⟨rfl, rfl⟩ | hv
    · exact hold _ hobj hs
    · exact hold v hv hs
  | suicide hobj =>
    rcases setObject_cases hv with ⟨rfl, rfl⟩ | hv
    · exact ⟨_, _, List.mem_append_right _ (List.mem_singleton_self _)⟩
    · exact hold v hv hs
  | _ => exact hold v hv hs

/-! ## Runs without precompile calls -/

/-- There is no cache context and no entry of a call. -/
structure CallFree (s : StateDB Ω) (log : List (JournalEntry Ω)) : Prop where
  cacheCtx : s.cacheCtx = none
  entries : ∀ e ∈ log, e.isCall = false

theorem Elementary.callFree (h : Elementary env s s') (hs : CallFree s s.journal.entries) :
    CallFree s' s'.journal.entries := by
  obtain ⟨es, hentries, -, hcalls⟩ := h.change
  refine ⟨h.sameControl.cacheCtx.trans hs.cacheCtx, fun e he => ?_⟩
  rw [hentries] at he
  rcases List.mem_append.mp he with he | he
  · exact hs.entries e he
  · exact hcalls e he

theorem Steps.callFree (h : Steps env s s') (hs : CallFree s s.journal.entries) :
    CallFree s' s'.journal.entries := by
  induction h with
  | refl => exact hs
  | tail _ hstep ih => exact hstep.callFree ih

theorem Op.callFree {o : Op} (h : o.step env s = some s') (hs : CallFree s s.journal.entries) :
    CallFree s' s'.journal.entries := by
  cases o with
  | read r =>
    cases h
    exact (Read.steps s r).callFree hs
  | write w => exact (Write.steps h).callFree hs
  | snapshot =>
    cases h
    exact ⟨hs.cacheCtx, hs.entries⟩
  | revertToSnapshot place =>
    obtain ⟨r, -, hrevert⟩ := Option.bind_eq_some_iff.mp h
    obtain ⟨idx, r, s₁, -, -, hroll, rfl⟩ := revertToSnapshot_cases hrevert
    have hsplit : CallFree s (s.journal.entries.take r.journalIndex ++
        s.journal.entries.drop r.journalIndex) := by
      rw [List.take_append_drop]
      exact hs
    have hback : CallFree s₁ (s.journal.entries.take r.journalIndex) := by
      refine rollback_invariant CallFree ?_ hsplit hroll
      intro log e v v' hv hundo
      obtain ⟨v₁, hrev, rfl⟩ := Option.map_eq_some_iff.mp hundo
      have hcall := hv.entries e (by simp)
      exact ⟨(revert_cacheCtx hcall hrev).trans hv.cacheCtx,
        fun e' he' => hv.entries e' (List.mem_append_left _ he')⟩
    exact ⟨hback.cacheCtx, hback.entries⟩

variable {ops : List Op}

theorem runOps_callFree (h : s.runOps env ops = some s') (hs : CallFree s s.journal.entries) :
    CallFree s' s'.journal.entries := by
  induction ops generalizing s with
  | nil =>
    cases h
    exact hs
  | cons o ops ih =>
    obtain ⟨s₁, hstep, hrest⟩ := Option.bind_eq_some_iff.mp h
    exact ih hrest (Op.callFree hstep hs)

theorem runOps_writeCache (hrun : (new ctx tx).runOps env ops = some s) (hctx : s.ctx = ctx)
    : s.writeCache = ctx := by
  have hfree := runOps_callFree hrun ⟨rfl, by simp [new]⟩
  rw [writeCache, hfree.cacheCtx]
  exact hctx

theorem runOps_commit_ok {ctx' : Context Ω} (hrun : (new ctx tx).runOps env ops = some s)
    (hctx : s.ctx = ctx) (hcommit : s.commit env = (none, ctx')) :
    (s.commitWithCtx env).run ctx.store = .ok () ctx'.store := by
  rw [← runOps_writeCache hrun hctx]
  exact commit_ok hcommit

/-- What is known of a state reached from `ctx`. -/
structure Reached (env : Env) (ctx : Context Ω) (s : StateDB Ω) : Prop where
  sameCtx : s.ctx = ctx
  ordered : Ordered (s.tape env)
  accessList : s.accessList.WellFormed
  untouched : Untouched env ctx.store (s.observe env) s.journal.entries
  wholeUnits : WholeUnits env (s.observe env)
  suicidesJournaled : SuicidesJournaled (s.observe env) s.journal.entries
  tracked : Tracked s s.journal.entries
  revertible : ∀ r ∈ s.validRevisions, ∃ s', s.revertToSnapshot env r.id = some s'

/-- **Every run stays within the invariants.** -/
theorem Moves.reached (h : Moves env (new ctx tx) s) : Reached env ctx s := by
  have hinit : Untouched env ctx.store ((new ctx tx).observe env) [] ∧
      SuicidesJournaled ((new ctx tx).observe env) ([] : List (JournalEntry Ω)) := by
    refine ⟨fun a _ => observe_new env ctx tx a, fun a v hv hs => ?_⟩
    rw [observe_new] at hv
    obtain ⟨account, -, rfl⟩ := Option.map_eq_some_iff.mp hv
    cases hs
  have hwhole : WholeUnits env (s.observe env) := by
    refine Moves.forall_objects (wholeUnits_kept env ctx.store) (fun a v hv => ?_) h
    obtain ⟨account, hload, rfl⟩ := Option.map_eq_some_iff.mp hv
    obtain ⟨seq, -, rfl⟩ := Option.map_eq_some_iff.mp hload
    exact Dvd.intro_left _ rfl
  obtain ⟨hctx, ho, ⟨hal, hun, hsui⟩, hmarks⟩ := Moves.invariant_new
    (Φ := fun w log => Untouched env ctx.store w log ∧ SuicidesJournaled w log)
    hinit (fun w log es w' hchange ⟨hun, hsui⟩ =>
      ⟨hchange.untouched hun, hchange.suicidesJournaled hsui⟩) h
  have hrevertible : ∀ r ∈ s.validRevisions, ∃ s', s.revertToSnapshot env r.id = some s' := by
    intro r hr
    obtain ⟨w, hroll, -⟩ := hmarks (r.id, r.journalIndex) (List.mem_map_of_mem hr)
    have hobs := (@StateDB.observe_rollback Ω env s (s.journal.entries.drop r.journalIndex)).1
    rw [hctx] at hobs
    obtain ⟨s₁, hs₁, -⟩ := Option.map_eq_some_iff.mp (hobs.trans hroll)
    obtain ⟨idx, hrevert⟩ := revertToSnapshot_of_mem ho hr hs₁
    exact ⟨_, hrevert⟩
  exact ⟨hctx, ho, hal, hun, hwhole, hsui, h.tracked (tracked_new ctx tx), hrevertible⟩

theorem run_reached {as : List (Action Ω)} (h : (new ctx tx).run env as = some s) :
    Reached env ctx s :=
  (run_moves h).reached

theorem runPrecompile_validRevisions (s : StateDB Ω) (p : Precompile Ω) (c : Frame) :
    (s.runPrecompile env p c).2.validRevisions = s.validRevisions := by
  have hbody := (@FrameSteps.runBody Ω env s p c).sameFrame.validRevisions
  rcases @runPrecompile_frame Ω env s p c with ⟨e, -, hrun⟩ | ⟨entries, s₁, -, -, hchanges, hrun⟩
  · rw [hrun]
    exact hbody
  · rw [hrun]
    exact hchanges.frame.sameFrame.validRevisions.trans hbody

/-- **Calls return**: a failed frame can be reverted. -/
theorem callPrecompile_total (h : Moves env (new ctx tx) s) (call : PrecompileCall Ω) :
    ∃ r, s.callPrecompile env call = some r := by
  have hcan := s.canTransfer_steps env call
  unfold callPrecompile
  generalize s.canTransfer env call = r at hcan
  obtain ⟨enough, s₁⟩ := r
  cases enough with
  | false => exact ⟨_, rfl⟩
  | true =>
    dsimp only at hcan ⊢
    set s₂ := s₁.snapshot.2.enterCall env call with hs₂
    have henter : Steps env s₁.snapshot.2 s₂ := s₁.snapshot.2.enterCall_steps env call
    have hmoves := (((h.trans hcan.moves).tail .snapshot).trans henter.moves).trans
        (runPrecompile_moves s₂ call.precompile call.frame)
    have hrevisions := @runPrecompile_validRevisions Ω env s₂ call.precompile call.frame
    generalize s₂.runPrecompile env call.precompile call.frame = q at hmoves hrevisions
    obtain ⟨err, s₃⟩ := q
    cases err with
    | none => exact ⟨_, rfl⟩
    | some e =>
      have hmem : (⟨s₁.nextRevisionID, s₁.journal.entries.length⟩ : Revision) ∈
          s₃.validRevisions := by
        rw [hrevisions, henter.sameControl.validRevisions]
        exact List.mem_append_right _ (List.mem_singleton_self _)
      obtain ⟨s₄, hrevert⟩ := hmoves.reached.revertible _ hmem
      exact ⟨(some e, s₄), Option.map_eq_some_iff.mpr ⟨s₄, hrevert, rfl⟩⟩

namespace Reached

variable {ctx : Context Ω} {s : StateDB Ω}

theorem dvd_balance (h : Reached env ctx s) (a : Address) (o : StateObject)
    (ho : s.stateObjects a = some o) : (env.conversionFactor : ℤ) ∣ o.account.balance :=
  h.wholeUnits a _ (observe_of_live ho)

end Reached

/-! ## What a commit leaves at a dirty address -/

section Committed

variable {ctx : Context Ω} {s : StateDB Ω} {st st' : Store Ω}

theorem Reached.commitWithCtx_ok (hr : Reached env ctx s)
    (h : (s.commitWithCtx env).run st = .ok () st') :
    CommittedSoFar env s.stateObjects st s.journal.sortedDirties st' :=
  TacEvm.commitWithCtx_ok (fun a o ho => hr.dvd_balance a o ho) h

variable {a : Address} {o : StateObject}

theorem CommittedSoFar.accountState_dirty
    (h : CommittedSoFar env s.stateObjects st s.journal.sortedDirties st')
    (ha : a ∈ s.journal.dirties) (ho : s.stateObjects a = some o) :
    st'.accountState a = commitAccount env o (st.accountState a) := by
  have hmem := (mem_sortedDirties s.journal a).mpr ha
  rw [h.store, accountState_commitAll (nodup_sortedDirties s.journal), if_pos hmem, ho]
  rfl

theorem CommittedSoFar.accountState_clean
    (h : CommittedSoFar env s.stateObjects st s.journal.sortedDirties st')
    (ha : a ∉ s.journal.dirties) : st'.accountState a = st.accountState a := by
  have hmem := mt (mem_sortedDirties s.journal a).mp ha
  rw [h.store]
  exact accountState_commitAll_of_notMem hmem st

theorem bankUnits_mul (hdvd : (env.conversionFactor : ℤ) ∣ o.account.balance)
    (hnonneg : 0 ≤ o.account.balance) :
    (o.bankUnits env : ℤ) * env.conversionFactor = o.account.balance := by
  have hF : (0 : ℤ) ≤ env.conversionFactor := Int.natCast_nonneg _
  have hq := Int.ediv_nonneg hnonneg hF
  rw [StateObject.bankUnits, Int.toNat_of_nonneg hq]
  exact Int.ediv_mul_cancel hdvd

end Committed

end TacEvm
