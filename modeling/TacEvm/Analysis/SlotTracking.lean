import TacEvm.Analysis.Invariants
import TacEvm.Analysis.Readings
import TacEvm.Model.Devnet

/-!
# Which slots are dirty

A slot that was written since its account was last reset stays in the dirty storage, whatever is
reverted; a slot that was not reads as in the store.
-/

namespace TacEvm

open Rollback StateDB Function Observation

variable {Ω : Type} {env : Env}

/-! ## Slots in the journal -/

/-- Whether a slot counts as written after the entry. -/
def JournalEntry.marksSlot (a : Address) (k : Hash) (w : Prop) : JournalEntry Ω → Prop
  | .storageChange b key _ => w ∨ b = a ∧ key = k
  | .resetObjectChange b _ => w ∧ b ≠ a
  | _ => w

/-- The slot has an entry since the last reset of the account. -/
def SlotWritten (a : Address) (k : Hash) (log : List (JournalEntry Ω)) : Prop :=
  log.foldl (fun w e => e.marksSlot a k w) False

theorem slotWritten_append (a : Address) (k : Hash) (log : List (JournalEntry Ω))
    (e : JournalEntry Ω) :
    SlotWritten a k (log ++ [e]) = e.marksSlot a k (SlotWritten a k log) := by
  simp [SlotWritten]

variable {a : Address} {log : List (JournalEntry Ω)}

theorem mem_of_slotWritten {k : Hash} (h : SlotWritten a k log) :
    ∃ p, .storageChange a k p ∈ log := by
  induction log using List.reverseRecOn with
  | nil => exact h.elim
  | append_singleton log e ih =>
    have hold : SlotWritten a k log → ∃ p, .storageChange a k p ∈ log ++ [e] := by
      intro hlog
      obtain ⟨p, hp⟩ := ih hlog
      exact ⟨p, List.mem_append_left _ hp⟩
    rw [slotWritten_append] at h
    cases e with
    | storageChange b key p =>
      rcases h with h | ⟨rfl, rfl⟩
      · exact hold h
      · exact ⟨p, by simp⟩
    | resetObjectChange b prev => exact hold h.1
    | _ => exact hold h

theorem slotWritten_of_mem {k p : Hash} (h : .storageChange a k p ∈ log)
    (hreset : ∀ prev, .resetObjectChange a prev ∉ log) : SlotWritten a k log := by
  induction log using List.reverseRecOn with
  | nil => cases h
  | append_singleton log e ih =>
    rw [slotWritten_append]
    have hkeep : SlotWritten a k log → e.marksSlot a k (SlotWritten a k log) := by
      intro hlog
      cases e with
      | storageChange b key p => exact .inl hlog
      | resetObjectChange b prev =>
        refine ⟨hlog, ?_⟩
        rintro rfl
        exact hreset prev (by simp)
      | _ => exact hlog
    rcases List.mem_append.mp h with h | h
    · exact hkeep (ih h fun prev hmem => hreset prev (List.mem_append_left _ hmem))
    · rw [List.mem_singleton] at h
      subst h
      exact .inr ⟨rfl, rfl⟩

theorem not_slotWritten (h : ∀ e ∈ log, e.account ≠ some a) (k : Hash) : ¬ SlotWritten a k log := by
  intro hwritten
  obtain ⟨p, hp⟩ := mem_of_slotWritten hwritten
  exact h _ hp rfl

/-! ## Written slots are dirty -/

/-- The object has every slot that `log` counts as written. -/
def HasSlots (log : List (JournalEntry Ω)) (a : Address) (o : StateObject) : Prop :=
  ∀ k, SlotWritten a k log → (o.dirtyStorage.lookup k).isSome

theorem StateObject.isSome_setState (o : StateObject) (key value k : Hash) :
    ((o.setState key value).dirtyStorage.lookup k).isSome ↔
      k = key ∨ (o.dirtyStorage.lookup k).isSome := by
  by_cases hkey : k = key
  · subst hkey
    simp [setState]
  · simp [setState, Finmap.lookup_insert_of_ne _ hkey, hkey]

/-- Objects, live or saved by resets, have their written slots. -/
structure SlotsTracked (objects : Address → Option StateObject) (log : List (JournalEntry Ω)) :
    Prop where
  objects : ∀ a o, objects a = some o → HasSlots log a o
  resets : ∀ pre a prev post, log = pre ++ .resetObjectChange a prev :: post → HasSlots pre a prev

namespace SlotsTracked

variable {f g : Address → Option StateObject} {log : List (JournalEntry Ω)}

theorem update (h : SlotsTracked f log) {a : Address} {x : Option StateObject}
    (hx : ∀ o, x = some o → HasSlots log a o) : SlotsTracked (update f a x) log := by
  refine ⟨fun b o ho => ?_, h.resets⟩
  by_cases hba : b = a
  · subst hba
    rw [update_self] at ho
    exact hx o ho
  · rw [update_of_ne hba] at ho
    exact h.objects b o ho

theorem append (h : SlotsTracked f log) {e : JournalEntry Ω}
    (hmarks : ∀ a k w, e.marksSlot a k w = w) : SlotsTracked f (log ++ [e]) := by
  have hsame : ∀ a k, SlotWritten a k (log ++ [e]) = SlotWritten a k log := by
    intro a k
    rw [slotWritten_append, hmarks]
  refine ⟨fun a o ho k hk => ?_, fun pre a prev post hsplit => ?_⟩
  · rw [hsame] at hk
    exact h.objects a o ho k hk
  · rcases split_concat hsplit with ⟨rfl, rfl⟩ | ⟨post', hlog⟩
    · exact absurd (hmarks a 0 True) (by simp [JournalEntry.marksSlot])
    · exact h.resets pre a prev post' hlog

theorem write (h : SlotsTracked f log) {e : JournalEntry Ω} {a : Address} {o o' : StateObject}
    (hdirty : o'.dirtyStorage = o.dirtyStorage) (ho : HasSlots log a o)
    (hmarks : ∀ a k w, e.marksSlot a k w = w) :
    SlotsTracked (Function.update f a (some o')) (log ++ [e]) := by
  refine (h.append hmarks).update ?_
  rintro _ ⟨⟩ k hk
  rw [slotWritten_append, hmarks] at hk
  rw [hdirty]
  exact ho k hk

theorem forget {e : JournalEntry Ω} (h : SlotsTracked f (log ++ [e]))
    (hother : ∀ a, (∀ prev, e ≠ .resetObjectChange a prev) → g a = f a)
    (hreset : ∀ a prev, e = .resetObjectChange a prev → g a = some prev) : SlotsTracked g log := by
  refine ⟨fun a o ho k hk => ?_, fun pre a prev post hsplit => ?_⟩
  · by_cases he : ∃ prev, e = .resetObjectChange a prev
    · obtain ⟨prev, rfl⟩ := he
      rw [hreset a prev rfl] at ho
      cases ho
      exact h.resets log a o [] rfl k hk
    · push Not at he
      rw [hother a he] at ho
      refine h.objects a o ho k ?_
      rw [slotWritten_append]
      cases e with
      | storageChange b key p => exact .inl hk
      | resetObjectChange b prev =>
        refine ⟨hk, ?_⟩
        rintro rfl
        exact he prev rfl
      | _ => exact hk
  · exact h.resets pre a prev (post ++ [e]) (by simp [hsplit])

end SlotsTracked

variable {s : StateDB Ω}

/-- Every elementary step journals the slots it writes. -/
theorem Elementary.slotsTracked {s' : StateDB Ω} (h : Elementary env s s')
    (ht : Tracked s s.journal.entries) (hs : SlotsTracked (s.object env) s.journal.entries) :
    SlotsTracked (s'.object env) s'.journal.entries := by
  cases h with
  | @load a account hlive hload =>
    rw [StateDB.object_setStateObject]
    refine hs.update ?_
    rintro o ho
    cases ho
    exact hs.objects a _ (by simp [StateDB.object, hlive, hload])
  | @fill a o o' hlive hfill =>
    rw [StateDB.object_setStateObject]
    refine hs.update ?_
    rintro _ ⟨⟩
    have hdirty : o'.dirtyStorage = o.dirtyStorage := by
      rcases hfill with rfl | ⟨key, rfl⟩
      · unfold StateObject.loadCode
        split
        · rfl
        · split <;> rfl
      · unfold StateObject.getCommittedState
        split <;> rfl
    unfold HasSlots
    rw [hdirty]
    exact hs.objects a o (StateDB.object_of_live hlive)
  | @create a hlive hload =>
    rw [StateDB.object_setStateObject]
    refine (hs.append fun _ _ _ => rfl).update ?_
    intro o _ k hk
    refine absurd hk ?_
    rw [slotWritten_append]
    refine not_slotWritten (fun e he hacc => ?_) k
    obtain ⟨o', ho'⟩ := ht.live e he a hacc
    rw [hlive] at ho'
    cases ho'
  | @reset a prev hlive =>
    rw [StateDB.object_setStateObject]
    refine ⟨fun b o ho k hk => ?_, fun pre b prev' post hsplit => ?_⟩
    · rw [StateDB.journal_setStateObject, StateDB.entries_append, slotWritten_append] at hk
      rw [Function.update_of_ne (Ne.symm hk.2)] at ho
      exact hs.objects b o ho k hk.1
    · rcases split_concat hsplit with ⟨rfl, heq⟩ | ⟨post', hlog⟩
      · cases heq
        exact hs.objects a prev (StateDB.object_of_live hlive)
      · exact hs.resets pre b prev' post' hlog
  | @write a o o' entry hlive hwrite =>
    rw [StateDB.object_setStateObject]
    have ho := hs.objects a o (StateDB.object_of_live hlive)
    cases hwrite with
    | storage key value hne =>
      refine ⟨fun b ob hob k hk => ?_, fun pre b prev post hsplit => ?_⟩
      · rw [StateDB.journal_setStateObject, StateDB.entries_append, slotWritten_append] at hk
        by_cases hba : b = a
        · subst hba
          simp only [StateDB.object_append, Function.update_self, Option.some.injEq] at hob
          subst hob
          rw [StateObject.isSome_setState]
          rcases hk with hk | ⟨-, rfl⟩
          · exact .inr (ho k hk)
          · exact .inl rfl
        · rw [Function.update_of_ne hba] at hob
          rcases hk with hk | ⟨rfl, -⟩
          · exact hs.objects b ob hob k hk
          · exact absurd rfl hba
      · rcases split_concat hsplit with ⟨rfl, heq⟩ | ⟨post', hlog⟩
        · cases heq
        · exact hs.resets pre b prev post' hlog
    | _ => exact hs.write rfl ho fun _ _ _ => rfl
  | _ => exact hs.append fun _ _ _ => rfl

/-- Undoing an entry drops what it wrote. -/
theorem SlotsTracked.revert {s' : StateDB Ω} {e : JournalEntry Ω}
    (hs : SlotsTracked (s.object env) (log ++ [e])) (ht : Tracked s (log ++ [e]))
    (h : e.revert env s = some s') : SlotsTracked (s'.object env) log := by
  rw [JournalEntry.object_revert h]
  have hkeep : ∀ (a : Address) (g : StateObject → StateObject),
      (∀ o, (g o).dirtyStorage = o.dirtyStorage) → (∀ b prev, e ≠ .resetObjectChange b prev) →
      SlotsTracked (Function.update (s.object env) a ((s.object env a).map g)) log := by
    intro a g hg hreset
    have hlog : SlotsTracked (s.object env) log :=
      hs.forget (fun _ _ => rfl) fun b prev he => absurd he (hreset b prev)
    refine hlog.update fun o ho k hk => ?_
    obtain ⟨o', ho', rfl⟩ := Option.map_eq_some_iff.mp ho
    rw [hg]
    exact hlog.objects a o' ho' k hk
  cases e with
  | createObjectChange a =>
    have hlog : SlotsTracked (s.object env) log := hs.forget (fun _ _ => rfl) (by simp)
    refine hlog.update fun o ho k hk => absurd hk ?_
    exact not_slotWritten (ht.fresh log a [] rfl) k
  | resetObjectChange a prev =>
    refine hs.forget (fun b hb => ?_) (fun b prev' he => ?_)
    · have hba : b ≠ a := by
        rintro rfl
        exact hb prev rfl
      exact Function.update_of_ne hba _ _
    · cases he
      exact Function.update_self _ _ _
  | suicideChange a prev prevbalance => exact hkeep a _ (fun _ => rfl) (by simp)
  | balanceChange a prev => exact hkeep a _ (fun _ => rfl) (by simp)
  | nonceChange a prev => exact hkeep a _ (fun _ => rfl) (by simp)
  | codeChange a prevcode prevhash => exact hkeep a _ (fun _ => rfl) (by simp)
  | storageChange a key prevalue =>
    -- the slot stays dirty
    have hlog : SlotsTracked (s.object env) log := hs.forget (fun _ _ => rfl) (by simp)
    refine hlog.update fun o ho k hk => ?_
    obtain ⟨o', ho', rfl⟩ := Option.map_eq_some_iff.mp ho
    rw [StateObject.isSome_setState]
    exact .inr (hlog.objects a o' ho' k hk)
  | _ => exact hs.forget (fun _ _ => rfl) (by simp)

/-- **Written slots are dirty**, in every reachable state. -/
theorem Moves.slotsTracked {ctx : Context Ω} {tx : TxConfig} (h : Moves env (new ctx tx) s)
    : SlotsTracked (s.object env) s.journal.entries := by
  have hinit : SlotsTracked ((new ctx tx).object env) (new ctx tx).journal.entries := by
    refine ⟨fun a o _ k hk => hk.elim, fun pre a prev post hsplit => ?_⟩
    simp [new] at hsplit
  refine (Moves.rawInvariant (fun s log => Tracked s log ∧ SlotsTracked (s.object env) log)
    ?_ ?_ ?_ ?_ h ⟨tracked_new ctx tx, hinit⟩).2
  · rintro s s' log hsame ⟨ht, hs⟩
    have hobjects : s'.object env = s.object env := by
      funext a
      simp only [object, hsame.objects, hsame.ctx]
    rw [hobjects]
    exact ⟨ht.congr hsame, hs⟩
  · rintro s s' hstep ⟨ht, hs⟩
    exact ⟨hstep.tracked ht, hstep.slotsTracked ht hs⟩
  · rintro s log cms events ⟨ht, hs⟩
    exact ⟨ht.appendOther rfl rfl rfl, hs.append fun _ _ _ => rfl⟩
  · rintro s s' log e ⟨ht, hs⟩ hrevert
    have ht' := ht.revertEntry hrevert
    obtain ⟨s₁, hrev, rfl⟩ := Option.map_eq_some_iff.mp hrevert
    have hs₁ : SlotsTracked (s₁.object env) log := hs.revert ht hrev
    exact ⟨ht', hs₁⟩

/-! ## Other slots read as in the store -/

/-- A slot that does not count as written reads as in `st`. -/
def SlotsUntouched (st : Store Ω) (w : Observation) (log : List (JournalEntry Ω)) : Prop :=
  ∀ a v, w.objects a = some v → ∀ k, ¬ SlotWritten a k log → v.state k = st.getState a k

/-- No change touches a slot that it does not journal. -/
theorem Change.slotsUntouched {st : Store Ω} {w w' : Observation} {es : List (JournalEntry Ω)}
    (h : Change env st w es w') (hw : SlotsUntouched st w log) :
    SlotsUntouched st w' (log ++ es) := by
  intro a v hv k hk
  cases h with
  | silent =>
    rw [List.append_nil] at hk
    exact hw a v hv k hk
  | create hobj hload =>
    rw [slotWritten_append] at hk
    rcases setObject_cases hv with ⟨rfl, rfl⟩ | hv
    · rfl
    · exact hw a v hv k hk
  | @reset b prev hobj =>
    rw [slotWritten_append] at hk
    by_cases hab : a = b
    · subst hab
      simp only [setObject, update_self, Option.some.injEq] at hv
      subst hv
      rfl
    · simp only [setObject, update_of_ne hab] at hv
      exact hw a v hv k fun hwritten => hk ⟨hwritten, Ne.symm hab⟩
  | storage key value hobj =>
    rw [slotWritten_append] at hk
    rcases setObject_cases hv with ⟨rfl, rfl⟩ | hv
    · have hkey : k ≠ key := fun heq => hk (.inr ⟨rfl, heq.symm⟩)
      have hold := hw a _ hobj k fun hwritten => hk (.inl hwritten)
      simpa [ObjectView.setState, hkey] using hold
    · exact hw a v hv k fun hwritten => hk (.inl hwritten)
  | balance amount hobj hdvd =>
    rw [slotWritten_append] at hk
    rcases setObject_cases hv with ⟨rfl, rfl⟩ | hv
    · exact hw a _ hobj k hk
    · exact hw a v hv k hk
  | nonce nonce hobj =>
    rw [slotWritten_append] at hk
    rcases setObject_cases hv with ⟨rfl, rfl⟩ | hv
    · exact hw a _ hobj k hk
    · exact hw a v hv k hk
  | code code hobj hcode =>
    rw [slotWritten_append] at hk
    rcases setObject_cases hv with ⟨rfl, rfl⟩ | hv
    · exact hw a _ hobj k hk
    · exact hw a v hv k hk
  | suicide hobj =>
    rw [slotWritten_append] at hk
    rcases setObject_cases hv with ⟨rfl, rfl⟩ | hv
    · exact hw a _ hobj k hk
    · exact hw a v hv k hk
  | _ =>
    rw [slotWritten_append] at hk
    exact hw a v hv k hk

theorem Moves.slotsUntouched {ctx : Context Ω} {tx : TxConfig}
    (h : Moves env (new ctx tx) s) :
    SlotsUntouched ctx.store (s.observe env) s.journal.entries := by
  have hinit : SlotsUntouched ctx.store ((new ctx tx).observe env)
      ([] : List (JournalEntry Ω)) := by
    intro a v hv k _
    rw [observe_new] at hv
    obtain ⟨account, -, rfl⟩ := Option.map_eq_some_iff.mp hv
    rfl
  obtain ⟨-, -, ⟨-, hall⟩, -⟩ := Moves.invariant_new (Φ := SlotsUntouched ctx.store) hinit
    (fun w log es w' hchange hw => hchange.slotsUntouched hw) h
  exact hall

theorem committed_kept (st : Store Ω) :
    KeptByWrites env st fun a v => ∀ k, v.committed k = st.getState a k where
  create := fun _ _ => rfl
  reset := fun _ _ _ _ => rfl
  balance := fun _ _ _ _ h => h
  nonce := fun _ _ _ h => h
  code := fun _ _ _ h => h
  storage := fun _ _ _ _ h => h
  suicide := fun _ _ h => h

variable {ctx : Context Ω} {tx : TxConfig}

theorem Moves.committed (h : Moves env (new ctx tx) s) {v : ObjectView}
    (hv : (s.observe env).objects a = some v) (k : Hash) :
    v.committed k = ctx.store.getState a k := by
  refine Moves.forall_objects (committed_kept ctx.store) (fun b u hu => ?_) h a v hv k
  obtain ⟨account, -, rfl⟩ := Option.map_eq_some_iff.mp hu
  exact fun _ => rfl

/-- **The committed state is fixed**: it is that of the store the `StateDB` was made on. -/
theorem getCommittedState_fixed {as : List (Action Ω)} {s' : StateDB Ω}
    (hrun : (new ctx tx).run env as = some s) (hpoint : Moves env s s')
    (hexists : (s'.exist env a).1 = true) (key : Hash) :
    (s'.getCommittedState env a key).1 = ctx.store.getState a key := by
  have hreach : Moves env (new ctx tx) s' := (run_moves hrun).trans hpoint
  have hread : (s'.getCommittedState env a key).1 =
      ((s'.observe env).objects a).elim 0 fun v => v.committed key :=
    congrFun (congrFun (congrArg Readings.committedState (s'.readings_eq env)) a) key
  have hlive : ((s'.observe env).objects a).elim false (fun _ => true) = true :=
    (congrFun (congrArg Readings.exist (s'.readings_eq env)) a).symm.trans hexists
  rw [hread]
  cases hv : (s'.observe env).objects a with
  | none =>
    rw [hv] at hlive
    cases hlive
  | some v => exact hreach.committed hv key

/-- A slot is written, flushed, written anew, and its contract destroyed. -/
def Devnet.rewrittenSlot : List (Action Unit) :=
  [.op (.write (.setState 0xC0 0 5)), .call ⟨.call, precompile idle, frame 0xC0 [0, 0, 0, 1]⟩,
    .op (.write (.createAccount 0xC0)), .op (.write (.setState 0xC0 0 6)), .op .snapshot,
    .op (.write (.suicide 0xC0)), .op (.revertToSnapshot 1)]

theorem getCommittedState_fixed_devnet :
    ∃ s, (StateDB.new (Devnet.ctx Devnet.contractStore) Devnet.txConfig).run
        Devnet.env6 Devnet.rewrittenSlot = some s ∧
      (s.getState Devnet.env6 0xC0 0).1 = 6 ∧
      (s.getCommittedState Devnet.env6 0xC0 0).1 = Devnet.contractStore.getState 0xC0 0 := by
  obtain ⟨s, hrun, hslot, hexists⟩ : ∃ s,
      (StateDB.new (Devnet.ctx Devnet.contractStore) Devnet.txConfig).run
        Devnet.env6 Devnet.rewrittenSlot = some s ∧
      (s.getState Devnet.env6 0xC0 0).1 = 6 ∧
      (s.exist Devnet.env6 0xC0).1 = true := ⟨_, rfl, by decide, by decide⟩
  exact ⟨s, hrun, hslot, getCommittedState_fixed hrun .refl hexists 0⟩

end TacEvm
