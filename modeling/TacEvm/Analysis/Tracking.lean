import TacEvm.Analysis.Machine

/-!
# The bookkeeping of the journal

The dirty counts are the numbers of entries, every account with an entry is live, and an account is
created before anything else happens to it. These facts are proved through `Moves.rawInvariant`.
-/

namespace TacEvm

open Rollback StateDB Function

variable {Ω : Type} {env : Env}

/-- The account an entry is about, also for a reset. -/
def JournalEntry.account : JournalEntry Ω → Option Address
  | .createObjectChange account => some account
  | .resetObjectChange account _ => some account
  | .suicideChange account _ _ => some account
  | .balanceChange account _ => some account
  | .nonceChange account _ => some account
  | .storageChange account _ _ => some account
  | .codeChange account _ _ => some account
  | .refundChange _ => none
  | .addLogChange => none
  | .accessListAddAccountChange _ => none
  | .accessListAddSlotChange _ _ => none
  | .precompileCallChange _ _ => none

variable {e : JournalEntry Ω} {a : Address}

theorem JournalEntry.account_of_dirtied (h : e.dirtied = some a) : e.account = some a := by
  cases e <;> first | exact h | cases h

/-! ## Invariants of the fields -/

/-- The part of a state the bookkeeping is about. -/
structure SameObjects (s s' : StateDB Ω) : Prop where
  objects : s'.stateObjects = s.stateObjects
  dirties : s'.journal.dirties = s.journal.dirties
  ctx : s'.ctx = s.ctx

variable {s s' : StateDB Ω}

/-- **Invariants of the fields**, of a state reverted down to `log`. -/
theorem Moves.rawInvariant (I : StateDB Ω → List (JournalEntry Ω) → Prop)
    (hframe : ∀ s s' log, SameObjects s s' → I s log → I s' log)
    (helementary : ∀ s s', Elementary env s s' → I s s.journal.entries → I s' s'.journal.entries)
    (hcall : ∀ s log cms events, I s log → I s (log ++ [.precompileCallChange cms events]))
    (hrevert : ∀ s s' log e, I s (log ++ [e]) → revertEntry env e s = some s' → I s' log)
    (h : Moves env s s') (hs : I s s.journal.entries) : I s' s'.journal.entries := by
  induction h with
  | refl => exact hs
  | @tail s₁ s₂ _ hmove ih =>
    cases hmove with
    | elementary h => exact helementary _ _ h ih
    | journalCall cms events =>
      exact hframe s₁ _ _ ⟨rfl, rfl, rfl⟩ (hcall s₁ _ cms events ih)
    | revert revid h =>
      obtain ⟨idx, r, s₃, -, -, hroll, rfl⟩ := revertToSnapshot_cases h
      have hsplit : I s₁ (s₁.journal.entries.take r.journalIndex ++
          s₁.journal.entries.drop r.journalIndex) := by
        rw [List.take_append_drop]
        exact ih
      have hback :=
        rollback_invariant I (fun log e w w' hw hundo => hrevert w w' log e hw hundo) hsplit hroll
      exact hframe s₃ _ _ ⟨rfl, rfl, rfl⟩ hback
    | _ => exact hframe s₁ _ _ ⟨rfl, rfl, rfl⟩ ih

/-! ## Dirty counts and live objects -/

/-- The number of entries that dirty an account. -/
def dirtyCount (log : List (JournalEntry Ω)) (a : Address) : ℕ :=
  log.countP fun e => e.dirtied = some a

/-- The bookkeeping of a state reverted down to `log`. -/
structure Tracked (s : StateDB Ω) (log : List (JournalEntry Ω)) : Prop where
  dirties : ∀ a, s.journal.dirties.lookup a =
    if dirtyCount log a = 0 then none else some (dirtyCount log a : ℤ)
  live : ∀ e ∈ log, ∀ a, e.account = some a → ∃ o, s.stateObjects a = some o
  fresh : ∀ pre a post, log = pre ++ .createObjectChange a :: post → ∀ e ∈ pre, e.account ≠ some a

theorem dirtyCount_append (log : List (JournalEntry Ω)) (e : JournalEntry Ω) (a : Address) :
    dirtyCount (log ++ [e]) a = dirtyCount log a + if e.dirtied = some a then 1 else 0 := by
  simp [dirtyCount, List.countP_append, List.countP_cons]

theorem lookup_addDirty (j : Journal Ω) (x : Option Address) (a : Address) :
    (j.addDirty x).lookup a =
      if x = some a then some ((j.dirties.lookup a).getD 0 + 1) else j.dirties.lookup a := by
  cases x with
  | none => rfl
  | some b =>
    by_cases hab : a = b
    · subst hab
      simp [Journal.addDirty]
    · simp [Journal.addDirty, Finmap.lookup_insert_of_ne _ hab, Ne.symm hab]

theorem lookup_dropDirty (j : Journal Ω) (x : Option Address) (a : Address) :
    (j.dropDirty x).lookup a =
      if x = some a then
        if (j.dirties.lookup a).getD 0 - 1 = 0 then none
        else some ((j.dirties.lookup a).getD 0 - 1)
      else j.dirties.lookup a := by
  cases x with
  | none => rfl
  | some b =>
    unfold Journal.dropDirty
    by_cases hab : a = b
    · subst hab
      simp only [if_true]
      split <;> simp
    have hne : some b ≠ some a := fun h => hab (Option.some.inj h).symm
    simp only [hne, if_false]
    split
    · exact Finmap.lookup_erase_ne hab
    · exact Finmap.lookup_insert_of_ne _ hab

variable {log : List (JournalEntry Ω)}

/-- One more entry is tracked. -/
theorem Tracked.append (h : Tracked s log)
    (hdirties : s'.journal.dirties = s.journal.addDirty e.dirtied)
    (hkeep : ∀ a o, s.stateObjects a = some o → ∃ o', s'.stateObjects a = some o')
    (hlive : ∀ a, e.account = some a → ∃ o, s'.stateObjects a = some o)
    (hfresh : ∀ a, e = .createObjectChange a → ∀ e' ∈ log, e'.account ≠ some a) :
    Tracked s' (log ++ [e]) := by
  refine ⟨fun a => ?_, fun e' he' a ha => ?_, fun pre a post hsplit e' he' => ?_⟩
  · rw [hdirties, lookup_addDirty, dirtyCount_append, h.dirties a]
    by_cases he : e.dirtied = some a
    · simp only [he, if_true]
      by_cases hcount : dirtyCount log a = 0 <;> simp [hcount]
    · simp [he]
  · rcases List.mem_append.mp he' with he' | he'
    · obtain ⟨o, ho⟩ := h.live e' he' a ha
      exact hkeep a o ho
    · rw [List.mem_singleton] at he'
      subst he'
      exact hlive a ha
  · -- the created entry is the new one, or one of the old ones
    rcases split_concat hsplit with ⟨rfl, rfl⟩ | ⟨post', hlog⟩
    · exact hfresh a rfl e' he'
    · exact h.fresh pre a post' hlog e' he'

theorem live_setStateObject {b : Address} {ob : StateObject} (a : Address) (o : StateObject)
    (ho : s.stateObjects a = some o) : ∃ o', (s.setStateObject b ob).stateObjects a = some o' := by
  by_cases hab : a = b
  · exact ⟨ob, by simp [setStateObject, hab]⟩
  · exact ⟨o, by simp [setStateObject, hab, ho]⟩

theorem Tracked.setStateObject (h : Tracked s log) (a : Address) (o : StateObject) :
    Tracked (s.setStateObject a o) log where
  dirties := h.dirties
  live := by
    intro e he b hb
    obtain ⟨ob, hob⟩ := h.live e he b hb
    exact live_setStateObject b ob hob
  fresh := h.fresh

theorem Tracked.appendOther (h : Tracked s log) (haccount : e.account = none)
    (hobjects : s'.stateObjects = s.stateObjects)
    (hdirties : s'.journal.dirties = s.journal.addDirty e.dirtied) : Tracked s' (log ++ [e]) := by
  apply h.append hdirties
  · intro a o ho
    exact ⟨o, by rw [hobjects, ho]⟩
  · intro a ha
    rw [haccount] at ha
    cases ha
  · rintro a rfl
    cases haccount

/-- Every elementary step is tracked. -/
theorem Elementary.tracked (h : Elementary env s s') (ht : Tracked s s.journal.entries) :
    Tracked s' s'.journal.entries := by
  cases h with
  | load hlive hload => exact ht.setStateObject _ _
  | fill hlive hfill => exact ht.setStateObject _ _
  | @create addr hlive hload =>
    apply ht.append rfl
    · intro a o ho
      exact live_setStateObject a o ho
    · rintro a ha
      cases ha
      exact ⟨_, stateObjects_setStateObject_self (s := s.append _) _ _⟩
    rintro a ha e' he' hacc
    cases ha
    obtain ⟨o, ho⟩ := ht.live e' he' addr hacc
    rw [hlive] at ho
    cases ho
  | @reset addr prev hlive =>
    apply ht.append rfl
    · intro a o ho
      exact live_setStateObject a o ho
    · rintro a ha
      cases ha
      exact ⟨_, stateObjects_setStateObject_self (s := s.append _) _ _⟩
    · rintro a ha
      cases ha
  | @write addr o o' entry hlive hwrite =>
    apply ht.append rfl
    · intro a o ho
      exact live_setStateObject a o ho
    · intro a ha
      have haddr : entry.account = some addr := by cases hwrite <;> rfl
      rw [haddr] at ha
      cases ha
      exact ⟨_, stateObjects_setStateObject_self (s := s.append _) _ _⟩
    · rintro a rfl
      cases hwrite
  | _ => exact ht.appendOther rfl rfl rfl

theorem revert_objects (h : e.revert env s = some s') :
    s'.journal = s.journal ∧
      ((∃ a, e = .createObjectChange a ∧ s'.stateObjects = update s.stateObjects a none) ∨
        (∃ a o, e.account = some a ∧ s'.stateObjects = update s.stateObjects a (some o)) ∨
        s'.stateObjects = s.stateObjects) := by
  cases JournalEntry.undone h with
  | create a => exact ⟨rfl, .inl ⟨a, rfl, rfl⟩⟩
  | reset a prev => exact ⟨rfl, .inr (.inl ⟨a, prev, rfl, rfl⟩)⟩
  | suicide hobj prev prevbalance => exact ⟨rfl, .inr (.inl ⟨_, _, rfl, rfl⟩)⟩
  | balance hobj prev => exact ⟨rfl, .inr (.inl ⟨_, _, rfl, rfl⟩)⟩
  | nonce hobj prev => exact ⟨rfl, .inr (.inl ⟨_, _, rfl, rfl⟩)⟩
  | code hobj prevcode prevhash => exact ⟨rfl, .inr (.inl ⟨_, _, rfl, rfl⟩)⟩
  | storage hobj key prev => exact ⟨rfl, .inr (.inl ⟨_, _, rfl, rfl⟩)⟩
  | _ => exact ⟨rfl, .inr (.inr rfl)⟩

/-- Undoing an entry keeps the rest tracked. -/
theorem Tracked.revertEntry (ht : Tracked s (log ++ [e]))
    (h : revertEntry env e s = some s') : Tracked s' log := by
  obtain ⟨s₁, hrevert, rfl⟩ := Option.map_eq_some_iff.mp h
  obtain ⟨hjournal, hobjects⟩ := revert_objects hrevert
  refine ⟨fun a => ?_, fun e' he' a ha => ?_, fun pre a post hsplit => ?_⟩
  · have hcount := ht.dirties a
    rw [dirtyCount_append] at hcount
    rw [hjournal, lookup_dropDirty, hcount]
    by_cases he : e.dirtied = some a
    · simp only [he, if_true]
      by_cases hzero : dirtyCount log a = 0 <;> simp [hzero]
    · simp [he]
  · obtain ⟨o, ho⟩ := ht.live e' (List.mem_append_left _ he') a ha
    rcases hobjects with ⟨b, rfl, hobj⟩ | ⟨b, ob, -, hobj⟩ | hobj
    · have hne : a ≠ b := by
        rintro rfl
        exact ht.fresh log a [] rfl e' he' ha
      exact ⟨o, by simp [hobj, hne, ho]⟩
    · by_cases hab : a = b
      · exact ⟨ob, by simp [hobj, hab]⟩
      · exact ⟨o, by simp [hobj, hab, ho]⟩
    · exact ⟨o, by simp [hobj, ho]⟩
  · exact ht.fresh pre a (post ++ [e]) (by simp [hsplit])

theorem Tracked.congr (h : Tracked s log) (hsame : SameObjects s s') : Tracked s' log where
  dirties := fun a => by rw [hsame.dirties, h.dirties a]
  live := by
    rw [hsame.objects]
    exact h.live
  fresh := h.fresh

/-- **Every run keeps the books.** -/
theorem Moves.tracked (h : Moves env s s') (ht : Tracked s s.journal.entries) :
    Tracked s' s'.journal.entries := by
  apply Moves.rawInvariant Tracked _ _ _ _ h ht
  · intro s s' log hsame hlog
    exact hlog.congr hsame
  · intro s s' hstep hlog
    exact hstep.tracked hlog
  · intro s log cms events hlog
    exact hlog.appendOther rfl rfl rfl
  · intro s s' log e hlog hrevert
    exact hlog.revertEntry hrevert

theorem tracked_new (ctx : Context Ω) (tx : TxConfig) :
    Tracked (new ctx tx) (new ctx tx).journal.entries where
  dirties := fun a => by simp [new, dirtyCount]
  live := by simp [new]
  fresh := by simp [new]

theorem Tracked.mem_dirties (h : Tracked s log) (a : Address) :
    a ∈ s.journal.dirties ↔ ∃ e ∈ log, e.dirtied = some a := by
  have hcount : dirtyCount log a = 0 ↔ ¬ ∃ e ∈ log, e.dirtied = some a := by
    simp [dirtyCount, List.countP_eq_zero]
  rw [← Finmap.lookup_isSome, h.dirties a]
  by_cases hzero : dirtyCount log a = 0
  · simp only [hzero, if_true, Option.isSome_none, Bool.false_eq_true, false_iff]
    exact hcount.mp hzero
  · simp only [hzero, if_false, Option.isSome_some, true_iff]
    exact not_not.mp (fun hno => hzero (hcount.mpr hno))

theorem Tracked.live_of_dirty (h : Tracked s log) (ha : a ∈ s.journal.dirties) :
    ∃ o, s.stateObjects a = some o := by
  obtain ⟨e, he, hdirtied⟩ := (h.mem_dirties a).mp ha
  exact h.live e he a (JournalEntry.account_of_dirtied hdirtied)

/-! ## Reverting, object by object -/

/-- What reverting an entry makes of the objects. -/
def JournalEntry.undoObjects (load : Address → Option StateObject) :
    JournalEntry Ω → (Address → Option StateObject) → Address → Option StateObject
  | .createObjectChange a, f => update f a (load a)
  | .resetObjectChange a prev, f => update f a (some prev)
  | .suicideChange a prev prevbalance, f =>
    update f a ((f a).map fun o => { o.setBalance prevbalance with suicided := prev })
  | .balanceChange a prev, f => update f a ((f a).map (·.setBalance prev))
  | .nonceChange a prev, f => update f a ((f a).map (·.setNonce prev))
  | .codeChange a prevcode prevhash, f =>
    update f a ((f a).map (·.setCode prevhash prevcode))
  | .storageChange a key prevalue, f =>
    update f a ((f a).map (·.setState key prevalue))
  | .refundChange _, f => f
  | .addLogChange, f => f
  | .accessListAddAccountChange _, f => f
  | .accessListAddSlotChange _ _, f => f
  | .precompileCallChange _ _, f => f

/-- The object a new `StateDB` over the store would load. -/
def loadedObject (env : Env) (st : Store Ω) (a : Address) : Option StateObject :=
  (st.getAccount env a).map newObject

theorem JournalEntry.object_revert (h : e.revert env s = some s') :
    s'.object env = e.undoObjects (loadedObject env s.ctx.store) (s.object env) := by
  cases JournalEntry.undone h with
  | create a =>
    funext b
    by_cases hb : b = a
    · subst hb
      simp [undoObjects, object, loadedObject]
    · simp [undoObjects, object, hb]
  | reset a prev => exact object_setStateObject env s a prev
  | @suicideAbsent a hobj prev prevbalance =>
    simp only [undoObjects, hobj, Option.map_none]
    rw [← hobj, update_eq_self]
  | suicide hobj prev prevbalance => simp [undoObjects, hobj]
  | balance hobj prev => simp [undoObjects, hobj]
  | nonce hobj prev => simp [undoObjects, hobj]
  | code hobj prevcode prevhash => simp [undoObjects, hobj]
  | storage hobj key prev => simp [undoObjects, hobj]
  | _ => rfl

end TacEvm
