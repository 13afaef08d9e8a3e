import TacEvm.Analysis.TokenCalls

/-!
# Slots that are zero

An entry with the zero word says nothing, and a commit is to remove it. It asks whether the value
has no bytes, but the bytes of a hash are always 32, so it never does.
-/

namespace TacEvm

open Devnet

variable {Ω : Type} {env : Env}

/-- The entries of the store are not zero. -/
def Store.NoZeroSlots (st : Store Ω) : Prop := ∀ a k, st.storage a k ≠ none → st.getState a k ≠ 0

theorem storage_commitAccount {o : StateObject} (hs : o.suicided = false) (x : AccountState)
    (k : Hash) : (commitAccount env o x).storage k =
      (o.dirtyStorage.lookup k).elim (x.storage k) fun v => some (hashBytes v) := by
  unfold commitAccount
  rw [if_neg (by rw [hs]; exact Bool.false_ne_true)]
  dsimp only
  cases o.dirtyStorage.lookup k with
  | none => rfl
  | some v => rfl

theorem storage_commitAccount_suicided {o : StateObject} (hs : o.suicided = true)
    {x : AccountState} {k : Hash} (h : (commitAccount env o x).storage k ≠ none) :
    (commitAccount env o x).storage k = x.storage k := by
  unfold commitAccount at h ⊢
  rw [if_pos hs] at h ⊢
  split
  · rfl
  · rename_i hsequence
    rw [if_neg hsequence] at h
    exact absurd rfl h

theorem getState_hashBytes {st : Store Ω} {a : Address} {k v : Hash}
    (h : st.storage a k = some (hashBytes v)) : st.getState a k = v := by
  unfold Store.getState
  rw [h]
  dsimp only
  rw [if_neg (by rw [length_hashBytes]; decide), bytesToHash_hashBytes]

variable {ctx ctx' : Context Ω} {tx : TxConfig} {db : StateDB Ω} {ops : List Op}

/-- **No entry is zero after a commit**, if and only if no dirty slot of a committed account holds
zero then. -/
theorem noZeroSlots_commit_iff (hrun : (StateDB.new ctx tx).runOps env ops = some db)
    (hcommit : db.commit env = (none, ctx')) (hstore : ctx.store.NoZeroSlots) :
    ctx'.store.NoZeroSlots ↔ ∀ a ∈ db.journal.dirties, ∀ o, db.stateObjects a = some o →
      o.suicided = false → ∀ k, o.dirtyStorage.lookup k ≠ some 0 := by
  have hdone := runOps_committed hrun hcommit
  have hdirty : ∀ a ∈ db.journal.dirties, ∀ o, db.stateObjects a = some o →
      ctx'.store.storage a = (commitAccount env o (ctx.store.accountState a)).storage :=
    fun a ha o ho => congrArg AccountState.storage (hdone.accountState_dirty ha ho)
  constructor
  · intro hzero a ha o ho hs k hk
    have hentry : ctx'.store.storage a k = some (hashBytes 0) := by
      rw [hdirty a ha o ho, storage_commitAccount hs, hk]
      rfl
    refine hzero a k ?_ (getState_hashBytes hentry)
    rw [hentry]
    exact Option.some_ne_none _
  intro hwritten a k hentry
  have hkept : ctx'.store.storage a k = ctx.store.storage a k → ctx'.store.getState a k ≠ 0 := by
    intro hsame
    rw [Store.getState, hsame]
    exact hstore a k (hsame ▸ hentry)
  by_cases ha : a ∈ db.journal.dirties
  · obtain ⟨o, ho⟩ := (run_moves hrun : Moves env _ db).reached.tracked.live_of_dirty ha
    have hstorage := hdirty a ha o ho
    cases hs : o.suicided with
    | true =>
      rw [hstorage] at hentry
      refine hkept ?_
      rw [hstorage]
      exact storage_commitAccount_suicided hs hentry
    | false =>
      have hslot := @storage_commitAccount env o hs (ctx.store.accountState a) k
      rw [← hstorage] at hslot
      cases hk : o.dirtyStorage.lookup k with
      | none =>
        rw [hk] at hslot
        exact hkept hslot
      | some v =>
        rw [hk] at hslot
        rw [getState_hashBytes hslot]
        rintro rfl
        exact hwritten a ha o ho hs k hk
  · exact hkept (congrFun (congrArg AccountState.storage (hdone.accountState_clean ha)) k)

/-- Writes to the first slot of a contract of the small chain. -/
def Devnet.slotWrites (values : List Hash) : List Op :=
  values.map fun v => .write (.setState 0xC0 0 v)

/-- A slot is written and stays so: it is the only entry. -/
theorem noZeroSlots_commit_iff_devnet :
    ∃ db ctx', (StateDB.new (Devnet.ctx Devnet.contractStore) txConfig).runOps
        env6 (slotWrites [5]) = some db ∧
      db.commit env6 = (none, ctx') ∧ ctx'.store.NoZeroSlots := by
  have hrun : (StateDB.new (Devnet.ctx Devnet.contractStore) txConfig).runOps
      env6 (slotWrites [5]) = some _ := rfl
  refine ⟨_, _, hrun, rfl, ?_⟩
  refine (noZeroSlots_commit_iff hrun rfl fun a k h => absurd rfl h).mpr ?_
  intro a _ o ho _ k hk
  by_cases ha : a = 0xC0
  · subst ha
    cases ho
    by_cases hkey : k = 0
    · subst hkey
      revert hk
      decide
    · have hnone : (∅ : Storage).lookup k = some 0 := by
        rw [← Finmap.lookup_insert_of_ne _ hkey]
        exact hk
      cases hnone
  · have hnone : Function.update (Function.update (fun _ => none) 0xC0 _) 0xC0 _ a = some o := ho
    rw [Function.update_of_ne ha, Function.update_of_ne ha] at hnone
    cases hnone

/-- **A slot that is cleared is stored as zero.** -/
theorem noZeroSlots_cleared :
    ∃ db ctx', (Devnet.ctx Devnet.contractStore).store.NoZeroSlots ∧
      (StateDB.new (Devnet.ctx Devnet.contractStore) txConfig).runOps
        env6 (slotWrites [5, 0]) = some db ∧
      db.commit env6 = (none, ctx') ∧
      ctx'.store.storage 0xC0 0 = some (hashBytes 0) ∧ ¬ ctx'.store.NoZeroSlots := by
  have hentry : ∃ db ctx', (StateDB.new (Devnet.ctx Devnet.contractStore) txConfig).runOps
        env6 (slotWrites [5, 0]) = some db ∧
      db.commit env6 = (none, ctx') ∧
      ctx'.store.storage 0xC0 0 = some (hashBytes 0) := ⟨_, _, rfl, rfl, by decide +kernel⟩
  obtain ⟨db, ctx', hrun, hcommit, hslot⟩ := hentry
  refine ⟨db, ctx', fun a k h => absurd rfl h, hrun, hcommit, hslot, fun hzero => ?_⟩
  exact hzero 0xC0 0 (by rw [hslot]; exact Option.some_ne_none _) (getState_hashBytes hslot)

end TacEvm
