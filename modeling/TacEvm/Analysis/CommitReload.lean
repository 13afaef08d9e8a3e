import TacEvm.Analysis.CodeTracking
import TacEvm.Analysis.Readings
import TacEvm.Model.Devnet

/-!
# Commit and reload

A `StateDB` over the store a commit leaves reads what the committed one read. An account that is
reset but not written afterwards is not committed; `NonceFollowsReset` says that the EVM writes the
nonce of each.
-/

namespace TacEvm

open AccountState StateDB StateObject Observation

variable {Ω : Type} {env : Env}

/-- Every reset is followed by a change of the nonce. -/
def NonceFollowsReset (log : List (JournalEntry Ω)) : Prop :=
  ∀ pre a prev post, log = pre ++ .resetObjectChange a prev :: post →
    ∃ nonce, .nonceChange a nonce ∈ post

/-- The codes that can be read, those of the store, and no code. -/
def StateDB.codesUsed (env : Env) (s : StateDB Ω) : Set Bytes :=
  {c | c = [] ∨ (∃ a, (s.getCode env a).1 = some c) ∨ ∃ h, s.ctx.store.code h = some c}

theorem StateDB.mem_codesUsed {s : StateDB Ω} {a : Address} {v : ObjectView} {c : Bytes}
    (hv : (s.observe env).objects a = some v) (hc : v.code = some c) :
    c ∈ s.codesUsed env := by
  have hread := congrFun (congrArg Readings.code (s.readings_eq env)) a
  have hcode : (s.getCode env a).1 = some c := by
    refine hread.trans ?_
    simp [Observation.readings, hv, hc]
  exact .inr (.inl ⟨a, hcode⟩)

theorem Reached.loaded_of_clean {ctx : Context Ω} {s : StateDB Ω} (hr : Reached env ctx s)
    (hcreate : NonceFollowsReset s.journal.entries) {a : Address} (ha : a ∉ s.journal.dirties) :
    (s.observe env).objects a = loadedView env ctx.store a := by
  have hdirty : ∀ e ∈ s.journal.entries, e.dirtied ≠ some a := by
    intro e he hd
    exact ha ((hr.tracked.mem_dirties a).mpr ⟨e, he, hd⟩)
  refine hr.untouched a fun e he hacc => ?_
  cases e with
  | resetObjectChange b prev =>
    cases hacc
    obtain ⟨pre, post, hsplit⟩ := List.append_of_mem he
    obtain ⟨nonce, hnonce⟩ := hcreate pre a prev post hsplit
    refine hdirty (.nonceChange a nonce) ?_ rfl
    rw [hsplit]
    exact List.mem_append_right _ (List.mem_cons_of_mem _ hnonce)
  | createObjectChange b => exact hdirty _ he hacc
  | suicideChange b prev prevbalance => exact hdirty _ he hacc
  | balanceChange b prev => exact hdirty _ he hacc
  | nonceChange b prev => exact hdirty _ he hacc
  | storageChange b key prevalue => exact hdirty _ he hacc
  | codeChange b prevcode prevhash => exact hdirty _ he hacc
  | _ => cases hacc

/-! ## The codes after a commit -/

section Codes

variable {ctx : Context Ω} {s : StateDB Ω} {st' : Store Ω}

/-- What is known of a state that has been committed into `st'`. -/
structure Committed (env : Env) (ctx : Context Ω) (s : StateDB Ω) (st' : Store Ω) : Prop where
  reached : Reached env ctx s
  codes : CodeTracked env ctx.store s s.journal.entries
  views : ∀ a v, (s.observe env).objects a = some v → ViewSound env ctx.store a v
  stored : ctx.store.CodesStored env
  noCollision : Set.InjOn env.keccak256 (s.codesUsed env)
  creates : NonceFollowsReset s.journal.entries
  done : CommittedSoFar env s.stateObjects ctx.store s.journal.sortedDirties st'

namespace Committed

variable {a : Address} {o : StateObject}

theorem view_of_live (h : Committed env ctx s st') (ho : s.stateObjects a = some o) :
    (s.observe env).objects a = some (o.view env ctx.store a) := by
  rw [observe_of_live ho, h.reached.sameCtx]

variable {hash : Hash}

variable (h : Committed env ctx s st')
include h

theorem mem_used_of_stored {c : Bytes} (hc : ctx.store.code hash = some c) :
    c ∈ s.codesUsed env := by
  have hctx : s.ctx.store = ctx.store := congrArg Context.store h.reached.sameCtx
  exact .inr (.inr ⟨hash, by rw [hctx, hc]⟩)

theorem writtenCode_cases {written : Option Bytes} (ho : s.stateObjects a = some o)
    (hw : o.writtenCode = some (hash, written)) (hne : hash ≠ env.emptyCodeHash) :
    ∃ c, written = some c ∧ env.keccak256 c = hash ∧ c ∈ s.codesUsed env := by
  unfold writtenCode at hw
  split at hw
  · cases hw
  split at hw
  · rename_i c hcode hdirty
    simp only [Option.some.injEq, Prod.mk.injEq] at hw
    obtain ⟨rfl, hwritten⟩ := hw
    have hview : (o.view env ctx.store a).code = some c := by
      simp [view, codeView, hcode]
    have hhash := (h.views a _ (h.view_of_live ho)).hash c hview
    have hlength : c.length ≠ 0 := by
      intro hzero
      have hnil : c = [] := List.eq_nil_of_length_eq_zero hzero
      subst hnil
      exact hne hhash.symm
    rw [if_neg hlength] at hwritten
    exact ⟨c, hwritten.symm, hhash, mem_codesUsed (h.view_of_live ho) hview⟩
  · cases hw

theorem code_eq {c : Bytes} (hne : hash ≠ env.emptyCodeHash) (hhash : env.keccak256 c = hash)
    (hc : c ∈ s.codesUsed env)
    (hsource : ctx.store.code hash = some c ∨ ∃ a ∈ s.journal.sortedDirties, ∃ o,
      s.stateObjects a = some o ∧ ∃ v, o.writtenCode = some (hash, v)) :
    st'.code hash = some c := by
  have hcodes := @code_commitAll Ω env s.stateObjects s.journal.sortedDirties ctx.store hash
  rw [← h.done.store] at hcodes
  rcases hcodes with ⟨hnone, hsame⟩ | ⟨a, -, o, ho, hw⟩
  · rw [hsame]
    rcases hsource with hstored | ⟨a, ha, o, ho, v, hw⟩
    · exact hstored
    · exact absurd hw (hnone a ha o ho v)
  · obtain ⟨c', hwritten, hhash', hc'⟩ := h.writtenCode_cases ho hw hne
    rw [hwritten, h.noCollision hc' hc (hhash'.trans hhash.symm)]

theorem code_stored (hne : ctx.store.getCodeHash env a ≠ env.emptyCodeHash) :
    ∃ c, env.keccak256 c = ctx.store.getCodeHash env a ∧
      ctx.store.code (ctx.store.getCodeHash env a) = some c ∧
      st'.code (ctx.store.getCodeHash env a) = some c := by
  obtain ⟨c, hstored, hhash⟩ := h.stored.of_getCodeHash hne
  exact ⟨c, hhash, hstored, h.code_eq hne hhash (h.mem_used_of_stored hstored) (.inl hstored)⟩

/-- The code of a dirty contract is stored under its hash. -/
theorem code_of_dirty (ha : a ∈ s.journal.dirties) (ho : s.stateObjects a = some o)
    (hs : o.suicided = false) (hne : o.account.codeHash ≠ env.emptyCodeHash) :
    ∃ c, o.codeView env ctx.store = some c ∧ env.keccak256 c = o.account.codeHash ∧
      st'.code o.account.codeHash = some c := by
  have hview := h.view_of_live ho
  have hsound := h.views a _ hview
  cases hcode : o.codeView env ctx.store with
  | none => exact absurd (hsound.absent hcode) hne
  | some c =>
    have hhash : env.keccak256 c = o.account.codeHash := hsound.hash c hcode
    have hused : c ∈ s.codesUsed env := mem_codesUsed hview hcode
    refine ⟨c, rfl, hhash, h.code_eq hne hhash hused ?_⟩
    by_cases hwrites : o.code = none ∨ o.dirtyCode = false
    · -- the object does not write its code, so it was loaded with this hash
      left
      rcases h.codes.objects a o ho hwrites with hempty | hloaded
      · exact absurd hempty hne
      · rw [hloaded] at hne hhash ⊢
        obtain ⟨c', hstored, hhash'⟩ := h.stored.of_getCodeHash hne
        rw [hstored, h.noCollision (h.mem_used_of_stored hstored) hused (hhash'.trans hhash.symm)]
    · right
      push Not at hwrites
      obtain ⟨hsome, hdirty⟩ := hwrites
      obtain ⟨c', hc'⟩ := Option.ne_none_iff_exists'.mp hsome
      refine ⟨a, (mem_sortedDirties s.journal a).mpr ha, o, ho, ?_⟩
      have hmark : o.dirtyCode = true := by simpa using hdirty
      simp [writtenCode, hs, hc', hmark]

/-- The store still has the code of every contract. -/
theorem codesStored : st'.CodesStored env := by
  intro a hash hcode hne
  by_cases ha : a ∈ s.journal.dirties
  · obtain ⟨o, ho⟩ := h.reached.tracked.live_of_dirty ha
    have hstate : st'.codeHash a = (commitAccount env o (ctx.store.accountState a)).codeHash :=
      congrArg codeHash (h.done.accountState_dirty ha ho)
    rw [hcode] at hstate
    unfold commitAccount at hstate
    cases hs : o.suicided with
    | true =>
      rw [hs, if_pos rfl] at hstate
      split at hstate
      · have hold : ctx.store.codeHash a = some hash := hstate.symm
        have hget : ctx.store.getCodeHash env a = hash := by simp [Store.getCodeHash, hold]
        obtain ⟨c, hhash, -, hstored⟩ := h.code_stored (hget.trans_ne hne)
        rw [hget] at hhash hstored
        exact ⟨c, hstored, hhash⟩
      · cases hstate
    | false =>
      rw [hs, if_neg Bool.false_ne_true] at hstate
      split at hstate
      · cases hstate
      · rename_i hnonempty
        cases hstate
        obtain ⟨c, -, hhash, hstored⟩ := h.code_of_dirty ha ho hs hnonempty
        exact ⟨c, hstored, hhash⟩
  · have hstate : st'.codeHash a = ctx.store.codeHash a :=
      congrArg codeHash (h.done.accountState_clean ha)
    have hget : ctx.store.getCodeHash env a = hash := by
      simp [Store.getCodeHash, ← hstate, hcode]
    obtain ⟨c, hhash, -, hstored⟩ := h.code_stored (hget.trans_ne hne)
    rw [hget] at hhash hstored
    exact ⟨c, hstored, hhash⟩

end Committed

end Codes

/-! ## Views after a commit -/

/-- Views that read alike; a nil code is an empty one. -/
structure SameView (v v' : ObjectView) : Prop where
  nonce : v'.nonce = v.nonce
  balance : v'.balance = v.balance
  codeHash : v'.codeHash = v.codeHash
  code : v'.code.getD [] = v.code.getD []
  state : ∀ k, v'.state k = v.state k

section Views

variable {ctx : Context Ω} {s : StateDB Ω} {st' : Store Ω}

theorem loadedView_eq (st : Store Ω) (a : Address) :
    loadedView env st a = (st.sequence a).map fun seq =>
      { nonce := seq
        balance := (st.balance a env.evmDenom : ℤ) * env.conversionFactor
        codeHash := st.getCodeHash env a
        code := if st.getCodeHash env a = env.emptyCodeHash then none
          else st.code (st.getCodeHash env a)
        suicided := false
        state := st.getState a
        committed := st.getState a } := by
  unfold loadedView Store.getAccount
  rw [Option.map_map]
  rfl

variable {st : Store Ω} {a : Address} {o : StateObject}

section

variable (hstate : st'.accountState a = commitAccount env o (st.accountState a))
include hstate

theorem sequence_of_commitAccount (hs : o.suicided = false) :
    st'.sequence a = some o.account.nonce := by
  simp only [commitAccount, hs, Bool.false_eq_true, if_false] at hstate
  exact congrArg sequence hstate

theorem getCodeHash_of_commitAccount (hs : o.suicided = false) :
    st'.getCodeHash env a = o.account.codeHash := by
  simp only [commitAccount, hs, Bool.false_eq_true, if_false] at hstate
  have hcode : st'.codeHash a = if o.account.codeHash = env.emptyCodeHash then none
      else some o.account.codeHash := congrArg codeHash hstate
  unfold Store.getCodeHash
  rw [hcode]
  split
  · rename_i hempty
    exact hempty.symm
  · rfl

theorem getState_of_commitAccount (hs : o.suicided = false) {k : Hash}
    (hcommitted : o.committedView st a k = st.getState a k) :
    st'.getState a k = o.stateView st a k := by
  simp only [commitAccount, hs, Bool.false_eq_true, if_false] at hstate
  have hslot : st'.storage a k = _ := congrFun (congrArg storage hstate) k
  dsimp only at hslot
  unfold stateView
  rw [hcommitted]
  unfold Store.getState
  rw [hslot]
  cases o.dirtyStorage.lookup k with
  | none => rfl
  | some v => simp

end

/-- A dirty account is loaded as it was seen. -/
theorem Committed.reload_dirty (h : Committed env ctx s st') (ha : a ∈ s.journal.dirties)
    (ho : s.stateObjects a = some o) (hs : o.suicided = false) :
    ∃ v, loadedView env st' a = some v ∧ SameView (o.view env ctx.store a) v := by
  have hstate := h.done.accountState_dirty ha ho
  have hhash := getCodeHash_of_commitAccount hstate hs
  have hbalance : st'.balance a env.evmDenom = o.bankUnits env := by
    have hfun := congrFun (congrArg balance hstate) env.evmDenom
    simpa [commitAccount, hs, Store.accountState] using hfun
  have hunits : (st'.balance a env.evmDenom : ℤ) * env.conversionFactor = o.account.balance := by
    obtain ⟨o', ho', hnonneg⟩ := h.done.live a ((mem_sortedDirties s.journal a).mpr ha)
    rw [ho] at ho'
    cases ho'
    rw [hbalance]
    exact bankUnits_mul (h.reached.dvd_balance a o ho) (hnonneg hs)
  have hsound := h.views a _ (h.view_of_live ho)
  rw [loadedView_eq, sequence_of_commitAccount hstate hs]
  refine ⟨_, rfl, rfl, hunits, hhash, ?_, fun k => ?_⟩
  · rw [hhash]
    by_cases hempty : o.account.codeHash = env.emptyCodeHash
    · rw [if_pos hempty]
      cases hcode : o.codeView env ctx.store with
      | none => simp [view, hcode]
      | some c =>
        have hused := mem_codesUsed (h.view_of_live ho) hcode
        have hc : env.keccak256 c = env.keccak256 [] := (hsound.hash c hcode).trans hempty
        have hnil : c = [] := h.noCollision hused (.inl rfl) hc
        simp [view, hcode, hnil]
    · obtain ⟨c, hcode, -, hstored⟩ := h.code_of_dirty ha ho hs hempty
      rw [if_neg hempty, hstored]
      simp [view, hcode]
  · exact getState_of_commitAccount hstate hs (hsound.committed k)

/-- A clean account is loaded as it was. -/
theorem Committed.reload_clean (h : Committed env ctx s st') (ha : a ∉ s.journal.dirties) :
    ((s.observe env).objects a = none ∧ loadedView env st' a = none) ∨
      ∃ v v', (s.observe env).objects a = some v ∧ loadedView env st' a = some v' ∧
        SameView v v' := by
  have hstate := h.done.accountState_clean ha
  have hsequence : st'.sequence a = ctx.store.sequence a := congrArg sequence hstate
  have hbalance : st'.balance a = ctx.store.balance a := congrArg balance hstate
  have hstorage : st'.storage a = ctx.store.storage a := congrArg storage hstate
  have hhash : st'.getCodeHash env a = ctx.store.getCodeHash env a := by
    have hcode : st'.codeHash a = ctx.store.codeHash a := congrArg codeHash hstate
    simp [Store.getCodeHash, hcode]
  rw [h.reached.loaded_of_clean h.creates ha, loadedView_eq, loadedView_eq, hsequence]
  cases ctx.store.sequence a with
  | none => exact .inl ⟨rfl, rfl⟩
  | some seq =>
    refine .inr ⟨_, _, rfl, rfl, rfl, by rw [hbalance], hhash, ?_, fun k => ?_⟩
    · rw [hhash]
      by_cases hempty : ctx.store.getCodeHash env a = env.emptyCodeHash
      · rw [if_pos hempty, if_pos hempty]
      · obtain ⟨c, -, hbefore, hafter⟩ := h.code_stored hempty
        rw [if_neg hempty, if_neg hempty, hbefore, hafter]
    · simp [Store.getState, hstorage]

theorem Committed.reload_suicided (h : Committed env ctx s st') {v : ObjectView}
    (hv : (s.observe env).objects a = some v) (hs : v.suicided = true) :
    loadedView env st' a = none := by
  obtain ⟨prev, b, hmem⟩ := h.reached.suicidesJournaled a v hv hs
  have ha : a ∈ s.journal.dirties := (h.reached.tracked.mem_dirties a).mpr ⟨_, hmem, rfl⟩
  obtain ⟨o, ho⟩ := h.reached.tracked.live_of_dirty ha
  have hsuicided : o.suicided = true := by
    rw [h.view_of_live ho] at hv
    cases hv
    exact hs
  have hstate := congrArg sequence (h.done.accountState_dirty ha ho)
  have hsequence : st'.sequence a = none := by
    refine hstate.trans ?_
    simp only [commitAccount, hsuicided, if_true]
    split
    · assumption
    · rfl
  rw [loadedView_eq, hsequence]
  rfl

end Views

/-- Two `StateDB`s that read alike at an address. -/
structure ReadAlike (r r' : Readings) (a : Address) : Prop where
  exist : r'.exist a = r.exist a
  balance : r'.balance a = r.balance a
  nonce : r'.nonce a = r.nonce a
  code : (r'.code a).getD [] = (r.code a).getD []
  codeHash : r'.codeHash a = r.codeHash a
  state : ∀ k, r'.state a k = r.state a k

/-- A `StateDB` that reads nothing at an address. -/
structure ReadsNothing (r : Readings) (a : Address) : Prop where
  exist : r.exist a = false
  balance : r.balance a = 0
  nonce : r.nonce a = 0
  code : r.code a = none
  state : ∀ k, r.state a k = 0

/-- **Commit and reload.** A fresh `StateDB` reads what the old one did, and nothing at the suicided
addresses. -/
theorem commit_reload {ctx ctx' : Context Ω} {tx : TxConfig} {s : StateDB Ω} {ops : List Op}
    (hrun : (StateDB.new ctx tx).runOps env ops = some s)
    (hcreates : NonceFollowsReset s.journal.entries)
    (hstored : ctx.store.CodesStored env)
    (hcollision : Set.InjOn env.keccak256 (s.codesUsed env))
    (hcommit : s.commit env = (none, ctx')) (tx' : TxConfig) :
    (∀ a, (s.hasSuicided env a).1 = false →
      ReadAlike (s.readings env) ((StateDB.new ctx' tx').readings env) a) ∧
    (∀ a, (s.hasSuicided env a).1 = true → ReadsNothing ((StateDB.new ctx' tx').readings env) a) ∧
    (∀ a, a ∉ s.journal.dirties → ctx'.store.accountState a = ctx.store.accountState a) ∧
    ctx'.store.CodesStored env := by
  have hr : Reached env ctx s := run_reached hrun
  have hdone := hr.commitWithCtx_ok (runOps_commit_ok hrun hr.sameCtx hcommit)
  have hsound := Moves.forall_objects (viewSound_kept ctx.store)
    (fun _ _ => viewSound_loaded hstored) (run_moves hrun)
  have h : Committed env ctx s ctx'.store :=
    ⟨hr, run_codeTracked hrun, hsound, hstored, hcollision, hcreates, hdone⟩
  have hflag : ∀ a, (s.hasSuicided env a).1 =
      ((s.observe env).objects a).elim false ObjectView.suicided := by
    intro a
    exact congrFun (congrArg Readings.hasSuicided (s.readings_eq env)) a
  refine ⟨fun a ha => ?_, fun a ha => ?_, fun a ha => hdone.accountState_clean ha, h.codesStored⟩
  · rw [hflag] at ha
    rw [StateDB.readings_eq, StateDB.readings_eq]
    have hviews : ((s.observe env).objects a = none ∧ loadedView env ctx'.store a = none) ∨
        ∃ v v', (s.observe env).objects a = some v ∧ loadedView env ctx'.store a = some v' ∧
          SameView v v' := by
      by_cases hdirty : a ∈ s.journal.dirties
      · obtain ⟨o, ho⟩ := hr.tracked.live_of_dirty hdirty
        have hview := h.view_of_live ho
        rw [hview] at ha
        obtain ⟨v', hv', hsame⟩ := h.reload_dirty hdirty ho ha
        exact .inr ⟨_, v', hview, hv', hsame⟩
      · exact h.reload_clean hdirty
    rcases hviews with ⟨hold, hnew⟩ | ⟨v, v', hold, hnew, hsame⟩
    · constructor <;> simp [Observation.readings, observe_new, hold, hnew]
    · constructor <;> simp [Observation.readings, observe_new, hold, hnew, hsame.balance,
        hsame.nonce, hsame.code, hsame.codeHash, hsame.state]
  · rw [hflag] at ha
    rw [StateDB.readings_eq]
    cases hv : (s.observe env).objects a with
    | none =>
      rw [hv] at ha
      cases ha
    | some v =>
      rw [hv] at ha
      have hnew := h.reload_suicided hv ha
      constructor <;> simp [Observation.readings, observe_new, hnew]

namespace Devnet

/-- The contract is created anew, with other code. -/
def recreate : List Op :=
  [.write (.createAccount 0xC0), .write (.setNonce 0xC0 1), .write (.setCode 0xC0 (some [9]))]

theorem codesStored_contractStore (d : Decimals) : contractStore.CodesStored (Devnet.env d) := by
  intro a h hcode _
  simp only [contractStore] at hcode
  split at hcode
  · have hh : keccak256 [7] = h := Option.some.inj hcode
    rw [← hh]
    exact ⟨[7], by decide, rfl⟩
  · cases hcode

theorem codesUsed_recreate {d : Decimals} {s : StateDB Unit}
    (hrun : (StateDB.new (ctx contractStore) txConfig).runOps (Devnet.env d) recreate = some s)
    (haccounts : s.journal.entries.map JournalEntry.account = [some 0xC0, some 0xC0, some 0xC0])
    (hcode : (s.getCode (Devnet.env d) 0xC0).1 = some [9]) :
    s.codesUsed (Devnet.env d) ⊆ {[], [7], [9]} := by
  have hr := run_reached hrun
  rintro c (rfl | ⟨a, ha⟩ | ⟨h, hh⟩)
  · simp
  · by_cases hC : a = 0xC0
    · subst hC
      rw [hcode] at ha
      cases ha
      simp
    -- no entry is about any other account, and none is loaded
    have hview : (s.observe (Devnet.env d)).objects a = none := by
      rw [hr.untouched a, loadedView_eq]
      · have hsequence : contractStore.sequence a = none := if_neg hC
        simp [ctx, hsequence]
      intro e he hacc
      have hmem := List.mem_map.mpr ⟨e, he, hacc⟩
      rw [haccounts] at hmem
      exact hC (by simpa using hmem)
    have hread := congrFun (congrArg Readings.code (s.readings_eq (Devnet.env d))) a
    have hnone : (s.getCode (Devnet.env d) a).1 = none := by
      refine hread.trans ?_
      simp [Observation.readings, hview]
    rw [hnone] at ha
    cases ha
  · rw [hr.sameCtx] at hh
    simp only [ctx, contractStore] at hh
    split at hh
    · cases hh
      simp
    · cases hh

end Devnet

open Devnet

/-- A contract over another one, with the new code and the old balance. -/
theorem commit_reload_devnet :
    ∃ s ctx', (StateDB.new (Devnet.ctx contractStore) txConfig).runOps env6 recreate = some s ∧
      s.commit env6 = (none, ctx') ∧
      (s.getCode env6 0xC0).1 = some [9] ∧
      ReadAlike (s.readings env6) ((StateDB.new ctx' txConfig).readings env6) 0xC0 := by
  have hrun : (StateDB.new (Devnet.ctx contractStore) txConfig).runOps env6 recreate = some _ := rfl
  refine ⟨_, _, hrun, rfl, by decide, ?_⟩
  refine (commit_reload hrun ?_ (codesStored_contractStore _) ?_ rfl txConfig).1 0xC0 (by decide)
  · intro pre a prev post hsplit
    cases pre with
    | nil =>
      cases hsplit
      exact ⟨0, List.mem_cons_self⟩
    | cons e pre =>
      -- the entries after the first are of the nonce and of the code
      have htail : [.nonceChange 0xC0 0, .codeChange 0xC0 none (keccak256 [])] =
          pre ++ .resetObjectChange a prev :: post := (List.cons.inj hsplit).2
      have hmem : JournalEntry.resetObjectChange a prev ∈
          pre ++ .resetObjectChange a prev :: post :=
        List.mem_append_right pre List.mem_cons_self
      rw [← htail] at hmem
      simp at hmem
  · have hinj : Set.InjOn keccak256 {[], [7], [9]} := by
      rintro x (rfl | rfl | rfl) y (rfl | rfl | rfl) hxy <;>
        first | rfl | exact absurd hxy (by decide)
    exact hinj.mono (codesUsed_recreate hrun (by decide) (by decide))

end TacEvm
