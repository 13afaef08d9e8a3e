import TacEvm.Analysis.Invariants

/-!
# Where the code of an account comes from

`Commit` writes the code of an object only if it was marked as new. `CodeTracked` says that an
object without the mark still has the hash it was loaded with; `CodesStored` is the corresponding
fact about a store.
-/

namespace TacEvm

open StateObject StateDB

variable {Ω : Type} {env : Env}

/-- Every recorded code hash is that of a stored code. -/
def Store.CodesStored (env : Env) (st : Store Ω) : Prop :=
  ∀ a h, st.codeHash a = some h → h ≠ env.emptyCodeHash →
    ∃ c, st.code h = some c ∧ env.keccak256 c = h

variable {st : Store Ω} {a : Address}

theorem Store.CodesStored.of_getCodeHash (hst : st.CodesStored env)
    (hne : st.getCodeHash env a ≠ env.emptyCodeHash) :
    ∃ c, st.code (st.getCodeHash env a) = some c ∧ env.keccak256 c = st.getCodeHash env a := by
  cases hcode : st.codeHash a with
  | none => exact absurd (by simp [Store.getCodeHash, hcode]) hne
  | some h =>
    have hget : st.getCodeHash env a = h := by simp [Store.getCodeHash, hcode]
    rw [hget] at hne ⊢
    exact hst a h hcode hne

/-- The code has its hash, and committed slots are those of the store. -/
structure ViewSound (env : Env) (st : Store Ω) (a : Address) (v : ObjectView) : Prop where
  hash : ∀ c, v.code = some c → env.keccak256 c = v.codeHash
  absent : v.code = none → v.codeHash = env.emptyCodeHash
  committed : ∀ k, v.committed k = st.getState a k

theorem viewSound_fresh (st : Store Ω) (a : Address) : ViewSound env st a (freshView env st a) := by
  have hcode : (freshView env st a).code = none := if_pos rfl
  refine ⟨fun c hc => ?_, fun _ => rfl, fun k => rfl⟩
  rw [hcode] at hc
  cases hc

theorem viewSound_kept (st : Store Ω) : KeptByWrites env st (ViewSound env st) where
  create := viewSound_fresh st
  reset := by
    intro a v _
    have hfresh : ViewSound env st a (freshView env st a) := viewSound_fresh st a
    exact ⟨hfresh.hash, hfresh.absent, hfresh.committed⟩
  balance := fun a v amount _ hv => ⟨hv.hash, hv.absent, hv.committed⟩
  nonce := fun a v nonce hv => ⟨hv.hash, hv.absent, hv.committed⟩
  code := by
    intro a v code hv
    cases code with
    | none =>
      have hnone : (v.setCode env st (env.keccak256 []) none).code = none := if_pos rfl
      refine ⟨fun c hc => ?_, fun _ => rfl, hv.committed⟩
      rw [Option.getD_none, hnone] at hc
      cases hc
    | some c =>
      refine ⟨fun c' hc' => ?_, fun hc' => ?_, hv.committed⟩
      · cases hc'
        rfl
      · cases hc'
  storage := fun a v key value hv => ⟨hv.hash, hv.absent, hv.committed⟩
  suicide := fun a v hv => ⟨hv.hash, hv.absent, hv.committed⟩

theorem viewSound_loaded (hst : st.CodesStored env) {v : ObjectView}
    (hv : loadedView env st a = some v) : ViewSound env st a v := by
  obtain ⟨account, hload, rfl⟩ := Option.map_eq_some_iff.mp hv
  obtain ⟨seq, -, rfl⟩ := Option.map_eq_some_iff.mp hload
  by_cases hempty : st.getCodeHash env a = env.emptyCodeHash
  · refine ⟨fun c hc => ?_, fun _ => hempty, fun k => rfl⟩
    simp [view, codeView, newObject, hempty] at hc
  obtain ⟨c, hstored, hhash⟩ := hst.of_getCodeHash hempty
  have hcode : ((newObject
      { nonce := seq, balance := st.getBalance env a,
        codeHash := st.getCodeHash env a }).view env st a).code = some c := by
    simp [view, codeView, newObject, hempty, Store.getCode, hstored]
  refine ⟨fun c' hc' => ?_, fun hnone => ?_, fun k => rfl⟩
  · rw [hcode] at hc'
    cases hc'
    exact hhash
  · rw [hcode] at hnone
    cases hnone

variable {s s' : StateDB Ω}

variable {ctx : Context Ω} {tx : TxConfig} {as : List (Action Ω)}

/-- The hash of no code, or of a stored one. -/
def KnownHash (env : Env) (st : Store Ω) (a : Address) (h : Hash) : Prop :=
  h = env.emptyCodeHash ∨ h = st.getCodeHash env a

/-- Code that `Commit` does not write has a known hash. -/
def CodeKnown (env : Env) (st : Store Ω) (a : Address) (o : StateObject) : Prop :=
  o.code = none ∨ o.dirtyCode = false → KnownHash env st a o.account.codeHash

/-- What is known of code when the journal is reverted to `log`. -/
structure CodeTracked (env : Env) (st : Store Ω) (s : StateDB Ω) (log : List (JournalEntry Ω)) :
    Prop where
  store : s.ctx.store = st
  objects : ∀ a o, s.stateObjects a = some o → CodeKnown env st a o
  resets : ∀ a prev, .resetObjectChange a prev ∈ log → CodeKnown env st a prev
  changes : ∀ a h, .codeChange a none h ∈ log → KnownHash env st a h

namespace CodeTracked

variable {st : Store Ω} {s : StateDB Ω} {log : List (JournalEntry Ω)}

variable {a : Address}

theorem codeKnown_loaded {account : Account} (h : st.getAccount env a = some account) :
    CodeKnown env st a (newObject account) := by
  obtain ⟨seq, -, rfl⟩ := Option.map_eq_some_iff.mp h
  exact fun _ => .inr rfl

variable {o : StateObject}

theorem object (h : CodeTracked env st s log) (ho : s.object env a = some o) :
    CodeKnown env st a o := by
  unfold StateDB.object at ho
  cases hlive : s.stateObjects a with
  | some o' =>
    rw [hlive, Option.some_or] at ho
    cases ho
    exact h.objects a o hlive
  | none =>
    rw [hlive, Option.none_or] at ho
    obtain ⟨account, hload, rfl⟩ := Option.map_eq_some_iff.mp ho
    rw [h.store] at hload
    exact codeKnown_loaded hload

theorem setStateObject (h : CodeTracked env st s log) (ho : CodeKnown env st a o) :
    CodeTracked env st (s.setStateObject a o) log := by
  refine ⟨h.store, fun b ob hob => ?_, h.resets, h.changes⟩
  by_cases hba : b = a
  · subst hba
    simp only [StateDB.setStateObject, Function.update_self, Option.some.injEq] at hob
    subst hob
    exact ho
  · simp only [StateDB.setStateObject, Function.update_of_ne hba] at hob
    exact h.objects b ob hob

theorem append (h : CodeTracked env st s log) {e : JournalEntry Ω}
    (hreset : ∀ a prev, e = .resetObjectChange a prev → CodeKnown env st a prev)
    (hchange : ∀ a h, e = .codeChange a none h → KnownHash env st a h) :
    CodeTracked env st s (log ++ [e]) := by
  refine ⟨h.store, h.objects, fun a prev hmem => ?_, fun a hash hmem => ?_⟩
  · rcases List.mem_append.mp hmem with hmem | hmem
    · exact h.resets a prev hmem
    · exact hreset a prev (List.mem_singleton.mp hmem).symm
  · rcases List.mem_append.mp hmem with hmem | hmem
    · exact h.changes a hash hmem
    · exact hchange a hash (List.mem_singleton.mp hmem).symm

theorem congr (h : CodeTracked env st s log) (hctx : s'.ctx = s.ctx)
    (hobjects : s'.stateObjects = s.stateObjects) : CodeTracked env st s' log := by
  refine ⟨by rw [hctx, h.store], fun a o ho => ?_, h.resets, h.changes⟩
  rw [hobjects] at ho
  exact h.objects a o ho

end CodeTracked

variable {o o' : StateObject}

theorem codeKnown_fill (ho : CodeKnown env st a o)
    (hfill : o' = (o.loadCode env st).1 ∨ ∃ key, o' = (o.getCommittedState st a key).1) :
    CodeKnown env st a o' := by
  rcases hfill with rfl | ⟨key, rfl⟩
  · unfold StateObject.loadCode
    cases hcode : o.code with
    | some c => exact ho
    | none =>
      dsimp only
      split
      · exact ho
      · exact fun _ => ho (.inl hcode)
  · unfold StateObject.getCommittedState
    cases o.originStorage key <;> exact ho

variable {e : JournalEntry Ω}

theorem codeKnown_write (ho : CodeKnown env st a o) (h : ObjectWrite env st a o e o') :
    CodeKnown env st a o' ∧ (∀ b prev, e = .resetObjectChange b prev → CodeKnown env st b prev) ∧
      ∀ b hash, e = .codeChange b none hash → KnownHash env st b hash := by
  cases h with
  | code code =>
    refine ⟨?_, (fun b prev he => by cases he), fun b hash he => ?_⟩
    · rintro (hnone | hclean)
      · have hcode : code = none := hnone
        subst hcode
        exact .inl rfl
      · cases hclean
    · simp only [JournalEntry.codeChange.injEq] at he
      obtain ⟨rfl, hview, rfl⟩ := he
      refine ho (.inl ?_)
      cases hcode : o.code with
      | none => rfl
      | some c => simp [codeView, hcode] at hview
  | _ => exact ⟨ho, by simp, by simp⟩

/-- Every elementary step keeps the codes known. -/
theorem Elementary.codeTracked (h : Elementary env s s')
    (hs : CodeTracked env st s s.journal.entries) : CodeTracked env st s' s'.journal.entries := by
  have hother : ∀ e : JournalEntry Ω, e.account = none →
      CodeTracked env st s (s.journal.entries ++ [e]) := by
    intro e he
    refine hs.append (fun a prev heq => ?_) (fun a hash heq => ?_)
    · subst heq
      cases he
    · subst heq
      cases he
  cases h with
  | load hlive hload =>
    rw [hs.store] at hload
    exact hs.setStateObject (CodeTracked.codeKnown_loaded hload)
  | fill hlive hfill =>
    rw [hs.store] at hfill
    exact hs.setStateObject (codeKnown_fill (hs.objects _ _ hlive) hfill)
  | create hlive hload =>
    refine CodeTracked.setStateObject (s := s.append _) ?_ (fun _ => .inl rfl)
    exact (hs.append (by simp) (by simp)).congr rfl rfl
  | reset hlive =>
    refine CodeTracked.setStateObject (s := s.append _) ?_ (fun _ => .inl rfl)
    refine (hs.append (fun a prev he => ?_) (by simp)).congr rfl rfl
    cases he
    exact hs.objects _ _ hlive
  | write hlive hwrite =>
    rw [hs.store] at hwrite
    obtain ⟨ho', hreset, hchange⟩ := codeKnown_write (hs.objects _ _ hlive) hwrite
    refine CodeTracked.setStateObject (s := s.append _) ?_ ho'
    exact (hs.append hreset hchange).congr rfl rfl
  | _ => exact (hother _ rfl).congr rfl rfl

/-- Undoing an entry keeps the codes known. -/
theorem CodeTracked.revert {log : List (JournalEntry Ω)} (hs : CodeTracked env st s (log ++ [e]))
    (h : e.revert env s = some s') : CodeTracked env st s' log := by
  have hlog : CodeTracked env st s log :=
    ⟨hs.store, hs.objects, fun a prev hmem => hs.resets a prev (List.mem_append_left _ hmem),
      fun a hash hmem => hs.changes a hash (List.mem_append_left _ hmem)⟩
  have hkeep : ∀ {a : Address} {o o' : StateObject}, s.object env a = some o →
      (CodeKnown env st a o → CodeKnown env st a o') →
      CodeTracked env st (s.setStateObject a o') log :=
    fun hobj hknown => hlog.setStateObject (hknown (hlog.object hobj))
  cases JournalEntry.undone h with
  | create a =>
    refine ⟨hs.store, fun b o ho => ?_, hlog.resets, hlog.changes⟩
    by_cases hba : b = a
    · subst hba
      simp at ho
    · exact hs.objects b o (by simpa [hba] using ho)
  | reset a prev => exact hlog.setStateObject (hs.resets a prev (by simp))
  | suicideAbsent hobj prev prevbalance => exact hlog
  | suicide hobj prev prevbalance => exact hkeep hobj fun ho => ho
  | balance hobj prev => exact hkeep hobj fun ho => ho
  | nonce hobj prev => exact hkeep hobj fun ho => ho
  | @code a o hobj prevcode prevhash =>
    -- the mark is set, so only a nil code needs a known hash
    refine hlog.setStateObject ?_
    rintro (hnone | hclean)
    · have hcode : prevcode = none := hnone
      subst hcode
      exact hs.changes a prevhash (by simp)
    · cases hclean
  | storage hobj key prev => exact hkeep hobj fun ho => ho
  | _ => exact hlog.congr rfl rfl

/-- **Every run keeps track of the codes.** -/
theorem run_codeTracked (h : (new ctx tx).run env as = some s) :
    CodeTracked env ctx.store s s.journal.entries := by
  have hinit : CodeTracked env ctx.store (new ctx tx) (new ctx tx).journal.entries :=
    ⟨rfl, by simp [new], by simp [new], by simp [new]⟩
  apply Moves.rawInvariant (CodeTracked env ctx.store) _ _ _ _ (run_moves h) hinit
  · intro s s' log hsame hlog
    exact hlog.congr hsame.ctx hsame.objects
  · intro s s' hstep hs
    exact hstep.codeTracked hs
  · intro s log cms events hlog
    exact hlog.append (by simp) (by simp)
  · intro s s' log e hlog hrevert
    obtain ⟨s₁, hrev, rfl⟩ := Option.map_eq_some_iff.mp hrevert
    exact (hlog.revert hrev).congr rfl rfl

end TacEvm
