import TacEvm.Analysis.Bank
import TacEvm.Model.StateDB

/-!
# What `Commit` writes

The effect of a successful commit in closed form: `commitAccount` for one object, `commitAll` for
the dirty ones. `commitWithCtx_ok` says that a commit that succeeds leaves exactly that,
`commitWithCtx_run` when it succeeds.
-/

namespace TacEvm

open FallibleState

/-- What the stores hold of one address. -/
@[ext]
structure AccountState where
  sequence : Option UInt64
  codeHash : Option Hash
  storage : Hash → Option Bytes
  balance : Denom → ℕ

def Store.accountState {Ω : Type} (st : Store Ω) (addr : Address) : AccountState where
  sequence := st.sequence addr
  codeHash := st.codeHash addr
  storage := st.storage addr
  balance := st.balance addr

namespace Store

variable {Ω : Type} (st : Store Ω) (a : Address)

theorem accountState_update {st' : Store Ω} {x : AccountState} (hself : st'.accountState a = x)
    (hother : ∀ b, b ≠ a → st'.accountState b = st.accountState b) :
    st'.accountState = Function.update st.accountState a x := by
  funext b
  by_cases hb : b = a
  · subst hb
    simp [hself]
  · simp [hb, hother b hb]

theorem accountState_setSequence (seq : Option UInt64) :
    (st.setSequence a seq).accountState =
      Function.update st.accountState a { st.accountState a with sequence := seq } := by
  apply accountState_update
  · simp [accountState, setSequence]
  · intro b hb
    simp [accountState, setSequence, hb]

theorem accountState_setCodeHash (h : Option Hash) :
    (st.setCodeHash a h).accountState =
      Function.update st.accountState a { st.accountState a with codeHash := h } := by
  apply accountState_update
  · simp [accountState, setCodeHash]
  · intro b hb
    simp [accountState, setCodeHash, hb]

theorem accountState_clearStorage :
    (st.clearStorage a).accountState =
      Function.update st.accountState a { st.accountState a with storage := fun _ => none } := by
  apply accountState_update
  · simp [accountState, clearStorage]
  · intro b hb
    simp [accountState, clearStorage, hb]

theorem accountState_balanceSet (env : Env) (m : ℕ) :
    (Keeper.balanceSet env st a m).accountState =
      Function.update st.accountState a
        { st.accountState a with
          balance := Function.update (st.accountState a).balance env.evmDenom m } := by
  apply accountState_update
  · simp [accountState, Keeper.balanceSet, setBankBalance, setSupply]
  · intro b hb
    simp [accountState, Keeper.balanceSet, setBankBalance, setSupply, hb]

end Store

section

variable {Ω : Type} (env : Env)

/-- The store after the slots `keys` of an object are written. -/
def writeSlots (addr : Address) (o : StateObject) (keys : List Hash) (st : Store Ω) : Store Ω :=
  { st with
    storage := Function.update st.storage addr fun k =>
      if k ∈ keys then some (hashBytes ((o.dirtyStorage.lookup k).getD 0)) else st.storage addr k }

theorem commitSlots_run (addr : Address) (o : StateObject) (keys : List Hash) (st : Store Ω) :
    (keys.forM (StateDB.commitSlot addr o)).run st = .ok () (writeSlots addr o keys st) := by
  induction keys generalizing st with
  | nil => simp [writeSlots]
  | cons k keys ih =>
    have hfirst : (StateDB.commitSlot addr o k).run st =
        .ok () (st.setState addr k (hashBytes ((o.dirtyStorage.lookup k).getD 0))) := by
      simp [StateDB.commitSlot]
    have hstep : ((k :: keys).forM (StateDB.commitSlot addr o)).run st =
        (keys.forM (StateDB.commitSlot addr o)).run
          (st.setState addr k (hashBytes ((o.dirtyStorage.lookup k).getD 0))) :=
      bind_run_of_ok hfirst
    rw [hstep, ih]
    congr 1
    simp only [writeSlots, Store.setState, Function.update_idem, Function.update_self]
    congr 2
    funext k'
    by_cases hk : k' = k
    · subst hk
      simp
    · simp [hk]

/-- The code map after the code of an object is written. -/
def codeCommitted (o : StateObject) (code : Hash → Option Bytes) : Hash → Option Bytes :=
  match o.code, o.dirtyCode with
  | some c, true =>
    Function.update code o.account.codeHash (if c.length = 0 then none else some c)
  | _, _ => code

theorem commitCode_run (o : StateObject) (st : Store Ω) :
    (StateDB.commitCode o).run st = .ok () { st with code := codeCommitted o st.code } := by
  unfold StateDB.commitCode codeCommitted
  cases o.code with
  | none => rfl
  | some c => cases o.dirtyCode <;> rfl

/-- The balance of an object in bank units. -/
def StateObject.bankUnits (o : StateObject) : ℕ :=
  (o.account.balance / env.conversionFactor).toNat

/-- The store after code, code hash and nonce of an object are written. -/
def accountWritten (addr : Address) (o : StateObject) (st : Store Ω) : Store Ω :=
  (({ st with code := codeCommitted o st.code } : Store Ω).setCodeHash addr
    (if o.account.codeHash = env.emptyCodeHash then none else some o.account.codeHash)
      ).setSequence addr (some o.account.nonce)

/-- The store after an object is committed. -/
def committed (addr : Address) (o : StateObject) (st : Store Ω) : Store Ω :=
  if o.suicided then
    if st.sequence addr = none then st
    else (((Keeper.balanceSet env st addr 0).clearStorage addr).setCodeHash addr none).setSequence
      addr none
  else
    writeSlots addr o o.dirtyStorage.sortedKeys
      (Keeper.balanceSet env (accountWritten env addr o st) addr (o.bankUnits env))

variable {env}

theorem balance_eq_mul {n : ℤ} (h : (env.conversionFactor : ℤ) ∣ n) :
    n = n / env.conversionFactor * env.conversionFactor := (Int.ediv_mul_cancel h).symm

variable {addr a : Address} {o : StateObject}

theorem commitObject_live (hs : o.suicided = false) (st : Store Ω) :
    (StateDB.commitObject env addr o).run st =
      (mapError (.wrapf "failed to set account" [])
          (Keeper.setBalance env addr o.account.balance) >>= fun _ =>
        o.dirtyStorage.sortedKeys.forM (StateDB.commitSlot addr o)).run
          (accountWritten env addr o st) := by
  simp only [StateDB.commitObject, hs, Bool.false_eq_true, if_false]
  rw [bind_run_of_ok (commitCode_run o st)]
  rfl

theorem commitObject_suicided (hs : o.suicided = true) (st : Store Ω) :
    (StateDB.commitObject env addr o).run st =
      (mapError (.wrapf "failed to delete account %s" [.addr addr])
        (if st.sequence addr = none then pure ()
        else if st.codeHash addr = none then
          throw (.new "only smart contracts can be self-destructed")
        else Keeper.setBalance env addr 0 >>= fun _ => do
          modify fun st => st.clearStorage addr
          modify fun st => st.setCodeHash addr none
          modify fun st => st.setSequence addr none)).run st := by
  simp only [StateDB.commitObject, hs, if_true, Keeper.deleteAccount, mapError, EStateM.run]
  rw [show ∀ (f : Store Ω → KeeperM Ω Unit), (get >>= f) st = f st st from fun f => rfl]
  cases hcode : st.codeHash addr with
  | none => simp [Store.isContract, hcode]
  | some h => simp [Store.isContract, hcode]

variable {st st' : Store Ω}

/-- **One object, committed.** -/
theorem commitObject_ok (hdvd : (env.conversionFactor : ℤ) ∣ o.account.balance)
    (h : (StateDB.commitObject env addr o).run st = .ok () st') :
    st' = committed env addr o st ∧
      (o.suicided = false → 0 ≤ o.account.balance ∧
        st.balance addr env.evmDenom ≤ st.supply env.evmDenom + o.bankUnits env) ∧
      (o.suicided = true → st.sequence addr = none ∨
        st.codeHash addr ≠ none ∧ st.balance addr env.evmDenom ≤ st.supply env.evmDenom) := by
  have hzero : (0 : ℤ) = 0 * env.conversionFactor := by simp
  have hF := env.int_conversionFactor_pos
  cases hs : o.suicided with
  | true =>
    rw [commitObject_suicided hs] at h
    unfold committed
    simp only [hs, if_true]
    replace h := mapError_ok.mp h
    split at h
    · rename_i hseq
      cases h
      simp [hseq]
    rename_i hseq
    split at h
    · cases h
    rename_i hcode
    obtain ⟨_, st₁, hset, hrest⟩ := bind_ok.mp h
    rw [hzero] at hset
    obtain ⟨-, hle, rfl⟩ := Keeper.setBalance_ok hset
    cases hrest
    simp only [hseq, if_false]
    exact ⟨rfl, by simp, fun _ => .inr ⟨hcode, by simpa using hle⟩⟩
  | false =>
    rw [commitObject_live hs] at h
    obtain ⟨_, st₁, hwrapped, hrest⟩ := bind_ok.mp h
    have hset := mapError_ok.mp hwrapped
    rw [balance_eq_mul hdvd] at hset
    obtain ⟨hnonneg, hle, rfl⟩ := Keeper.setBalance_ok hset
    rw [commitSlots_run] at hrest
    cases hrest
    refine ⟨?_, fun _ => ⟨?_, hle⟩, by simp⟩
    · unfold committed
      simp only [hs, Bool.false_eq_true, if_false]
      rfl
    · rw [balance_eq_mul hdvd]
      exact mul_nonneg hnonneg hF.le

/-- When an object can be committed. -/
theorem commitObject_run (hdvd : (env.conversionFactor : ℤ) ∣ o.account.balance)
    (hnonneg : o.suicided = false → 0 ≤ o.account.balance)
    (hcontract : o.suicided = true → st.sequence addr ≠ none → st.codeHash addr ≠ none)
    (hblocked : env.blockedAddr addr = false) (hlocked : ∀ b, env.lockedCoins b env.evmDenom = 0)
    (hsupply : st.balance addr env.evmDenom ≤ st.supply env.evmDenom) :
    (StateDB.commitObject env addr o).run st = .ok () (committed env addr o st) := by
  have hzero : (0 : ℤ) = 0 * env.conversionFactor := by simp
  have hF := env.int_conversionFactor_pos
  have hrun : ∃ st', (StateDB.commitObject env addr o).run st = .ok () st' := by
    cases hs : o.suicided with
    | true =>
      rw [commitObject_suicided hs]
      by_cases hseq : st.sequence addr = none
      · exact ⟨st, mapError_ok.mpr (by simp [hseq])⟩
      · simp only [hseq, if_false, hcontract hs hseq]
        have hset := Keeper.setBalance_run le_rfl hblocked hlocked hsupply
        rw [← hzero] at hset
        exact ⟨_, mapError_ok.mpr (bind_ok.mpr ⟨_, _, hset, rfl⟩)⟩
    | false =>
      rw [commitObject_live hs, balance_eq_mul hdvd]
      have hunits := Int.ediv_nonneg (hnonneg hs) hF.le
      have hset : (Keeper.setBalance env addr (o.account.balance / env.conversionFactor *
          env.conversionFactor)).run (accountWritten env addr o st) = .ok () _ :=
        Keeper.setBalance_run hunits hblocked hlocked hsupply
      rw [bind_run_of_ok (mapError_ok.mpr hset), commitSlots_run]
      exact ⟨_, rfl⟩
  obtain ⟨st', hst'⟩ := hrun
  rw [hst', (commitObject_ok hdvd hst').1]

variable (env)

/-- What committing an object leaves at its address. -/
def commitAccount (o : StateObject) (x : AccountState) : AccountState :=
  if o.suicided then
    if x.sequence = none then x
    else
      { sequence := none
        codeHash := none
        storage := fun _ => none
        balance := Function.update x.balance env.evmDenom 0 }
  else
    { sequence := some o.account.nonce
      codeHash := if o.account.codeHash = env.emptyCodeHash then none else some o.account.codeHash
      storage := fun k =>
        match o.dirtyStorage.lookup k with
        | some v => some (hashBytes v)
        | none => x.storage k
      balance := Function.update x.balance env.evmDenom (o.bankUnits env) }

variable {env}

theorem mem_sortedKeys_iff (s : Storage) (k : Hash) :
    k ∈ s.sortedKeys ↔ (s.lookup k).isSome := by
  rw [Storage.sortedKeys, OrderedKeys.mem_sortedKeys, Finmap.mem_keys, Finmap.lookup_isSome]

theorem accountState_writeSlots (addr : Address) (o : StateObject) (st : Store Ω) :
    (writeSlots addr o o.dirtyStorage.sortedKeys st).accountState =
      Function.update st.accountState addr
        { st.accountState addr with
          storage := fun k =>
            match o.dirtyStorage.lookup k with
            | some v => some (hashBytes v)
            | none => st.storage addr k } := by
  apply Store.accountState_update
  · simp only [Store.accountState, writeSlots, Function.update_self, mem_sortedKeys_iff]
    congr 1
    funext k
    cases o.dirtyStorage.lookup k <;> rfl
  · intro b hb
    simp [Store.accountState, writeSlots, hb]

theorem accountState_committed (addr : Address) (o : StateObject) (st : Store Ω) :
    (committed env addr o st).accountState =
      Function.update st.accountState addr (commitAccount env o (st.accountState addr)) := by
  have hsame : ({ st with code := codeCommitted o st.code } : Store Ω).accountState =
      st.accountState := rfl
  unfold committed commitAccount
  cases hs : o.suicided with
  | true =>
    simp only [if_true]
    by_cases hseq : st.sequence addr = none
    · have hx : (st.accountState addr).sequence = none := hseq
      simp [hseq, hx]
    · have hx : (st.accountState addr).sequence ≠ none := hseq
      simp only [hseq, hx, if_false, Store.accountState_setSequence,
        Store.accountState_setCodeHash, Store.accountState_clearStorage,
        Store.accountState_balanceSet, Function.update_self, Function.update_idem]
  | false =>
    simp only [Bool.false_eq_true, if_false, accountState_writeSlots, accountWritten,
      Store.accountState_balanceSet, Store.accountState_setSequence,
      Store.accountState_setCodeHash, Function.update_self, Function.update_idem, hsame]
    rfl

theorem code_committed (addr : Address) (o : StateObject) (st : Store Ω) :
    (committed env addr o st).code = if o.suicided then st.code else codeCommitted o st.code := by
  unfold committed
  split
  · split <;> rfl
  · rfl

theorem rest_committed (addr : Address) (o : StateObject) (st : Store Ω) :
    (committed env addr o st).grants = st.grants ∧ (committed env addr o st).rest = st.rest := by
  unfold committed
  split
  · split <;> exact ⟨rfl, rfl⟩
  · exact ⟨rfl, rfl⟩

theorem supply_balanceSet {m : ℕ} (hle : st.balance a env.evmDenom ≤ st.supply env.evmDenom + m) :
    ((Keeper.balanceSet env st a m).supply env.evmDenom : ℤ) - st.supply env.evmDenom =
      (m : ℤ) - st.balance a env.evmDenom := by
  have hsup : (Keeper.balanceSet env st a m).supply env.evmDenom =
      st.supply env.evmDenom + m - st.balance a env.evmDenom := by
    simp [Keeper.balanceSet, Store.setSupply]
  rw [hsup]
  omega

/-- A commit changes the supply by what it changes the balance. -/
theorem supply_committed (hdvd : (env.conversionFactor : ℤ) ∣ o.account.balance)
    (h : (StateDB.commitObject env addr o).run st = .ok () st') :
    (st'.supply env.evmDenom : ℤ) - st.supply env.evmDenom =
      (st'.balance addr env.evmDenom : ℤ) - st.balance addr env.evmDenom := by
  obtain ⟨rfl, hlive, hdead⟩ := commitObject_ok hdvd h
  have hbalance : (committed env addr o st).balance addr =
      (commitAccount env o (st.accountState addr)).balance := by
    have hstate := congrFun (@accountState_committed Ω env addr o st) addr
    rw [Function.update_self] at hstate
    exact congrArg AccountState.balance hstate
  rw [hbalance]
  unfold commitAccount committed
  cases hs : o.suicided with
  | true =>
    simp only [if_true]
    by_cases hseq : st.sequence addr = none
    · have hx : (st.accountState addr).sequence = none := hseq
      simp only [hseq, hx, if_true]
      rw [sub_self]
      exact (sub_self _).symm
    · have hx : (st.accountState addr).sequence ≠ none := hseq
      simp only [hseq, hx, if_false, Function.update_self]
      have hle := ((hdead hs).resolve_left hseq).2
      exact supply_balanceSet (by simpa using hle)
  | false =>
    simp only [Bool.false_eq_true, if_false, Function.update_self]
    exact supply_balanceSet (show (accountWritten env addr o st).balance addr _ ≤ _ from
      (hlive hs).2)

theorem supply_committed_other (addr : Address) (o : StateObject) (st : Store Ω) {e : Denom}
    (he : e ≠ env.evmDenom) : (committed env addr o st).supply e = st.supply e := by
  unfold committed
  split
  · split
    · rfl
    · exact Function.update_of_ne he _ _
  · exact Function.update_of_ne he _ _

variable (env)

/-- The store after the objects at `L` are committed in order. -/
def commitAll (objs : Address → Option StateObject) (L : List Address) (st : Store Ω) : Store Ω :=
  L.foldl (fun st a => (objs a).elim st fun o => committed env a o st) st

/-- What committing an object adds to its balance, in bank units. -/
def commitDelta (objs : Address → Option StateObject) (st : Store Ω) (a : Address) : ℤ :=
  (objs a).elim 0 fun o =>
    ((commitAccount env o (st.accountState a)).balance env.evmDenom : ℤ) - st.balance a env.evmDenom

/-- The code hash an object writes code for, and the code. -/
def StateObject.writtenCode (o : StateObject) : Option (Hash × Option Bytes) :=
  if o.suicided then none
  else match o.code, o.dirtyCode with
    | some c, true => some (o.account.codeHash, if c.length = 0 then none else some c)
    | _, _ => none

variable {env} {objs : Address → Option StateObject}

theorem commitAll_append (L : List Address) (a : Address) (st : Store Ω) :
    commitAll env objs (L ++ [a]) st =
      (objs a).elim (commitAll env objs L st)
        fun o => committed env a o (commitAll env objs L st) := by
  simp [commitAll]

theorem accountState_commitAll_of_notMem {L : List Address} (ha : a ∉ L) (st : Store Ω) :
    (commitAll env objs L st).accountState a = st.accountState a := by
  induction L using List.reverseRecOn with
  | nil => rfl
  | append_singleton L b ih =>
    rw [List.mem_append, List.mem_singleton, not_or] at ha
    rw [commitAll_append]
    cases objs b with
    | none => exact ih ha.1
    | some o =>
      rw [Option.elim_some, accountState_committed, Function.update_of_ne ha.2]
      exact ih ha.1

/-- A commit writes the listed accounts only. -/
theorem accountState_commitAll {L : List Address} (hnodup : L.Nodup) (st : Store Ω) (a : Address) :
    (commitAll env objs L st).accountState a =
      if a ∈ L then
        (objs a).elim (st.accountState a) fun o => commitAccount env o (st.accountState a)
      else st.accountState a := by
  induction L using List.reverseRecOn with
  | nil => rfl
  | append_singleton L b ih =>
    have hL : L.Nodup := (List.nodup_append.mp hnodup).1
    have hb : b ∉ L := fun hmem =>
      (List.nodup_append.mp hnodup).2.2 b hmem b (List.mem_singleton_self b) rfl
    have hbefore : (commitAll env objs L st).accountState b = st.accountState b :=
      accountState_commitAll_of_notMem hb st
    rw [commitAll_append]
    by_cases hab : a = b
    · subst hab
      rw [if_pos (by simp)]
      cases objs a with
      | none => exact hbefore
      | some o =>
        rw [Option.elim_some, Option.elim_some, accountState_committed, Function.update_self,
          hbefore]
    · have hmem : a ∈ L ++ [b] ↔ a ∈ L := by simp [hab]
      rw [if_congr hmem rfl rfl, ← ih hL]
      cases objs b with
      | none => rfl
      | some o => rw [Option.elim_some, accountState_committed, Function.update_of_ne hab]

theorem rest_commitAll (L : List Address) (st : Store Ω) :
    (commitAll env objs L st).grants = st.grants ∧ (commitAll env objs L st).rest = st.rest := by
  induction L using List.reverseRecOn with
  | nil => exact ⟨rfl, rfl⟩
  | append_singleton L b ih =>
    rw [commitAll_append]
    cases objs b with
    | none => exact ih
    | some o =>
      rw [Option.elim_some, (rest_committed b o _).1, (rest_committed b o _).2]
      exact ih

theorem code_committed_at (a : Address) (o : StateObject) (st : Store Ω) (h : Hash) :
    (committed env a o st).code h =
      match o.writtenCode with
      | some (h', v) => if h = h' then v else st.code h
      | none => st.code h := by
  rw [code_committed]
  unfold StateObject.writtenCode codeCommitted
  cases o.suicided with
  | true => rfl
  | false =>
    cases o.code with
    | none => rfl
    | some c =>
      cases o.dirtyCode with
      | false => rfl
      | true => simp [Function.update_apply]

/-- The code stored in the end: an object's, or that of before. -/
theorem code_commitAll (L : List Address) (st : Store Ω) (h : Hash) :
    ((∀ a ∈ L, ∀ o, objs a = some o → ∀ v, o.writtenCode ≠ some (h, v)) ∧
      (commitAll env objs L st).code h = st.code h) ∨
    ∃ a ∈ L, ∃ o, objs a = some o ∧ o.writtenCode = some (h, (commitAll env objs L st).code h) := by
  induction L using List.reverseRecOn with
  | nil => exact .inl ⟨by simp, rfl⟩
  | append_singleton L b ih =>
    rw [commitAll_append]
    cases hb : objs b with
    | none =>
      rw [Option.elim_none]
      rcases ih with ⟨hno, heq⟩ | ⟨a, ha, o, ho, hw⟩
      · refine .inl ⟨fun a ha o ho v => ?_, heq⟩
        rcases List.mem_append.mp ha with ha | ha
        · exact hno a ha o ho v
        · rw [List.mem_singleton] at ha
          subst ha
          rw [hb] at ho
          cases ho
      · exact .inr ⟨a, List.mem_append_left _ ha, o, ho, hw⟩
    | some ob =>
      rw [Option.elim_some]
      have hcode := @code_committed_at Ω env b ob (commitAll env objs L st) h
      by_cases hwrite : ∃ v, ob.writtenCode = some (h, v)
      · obtain ⟨v, hv⟩ := hwrite
        rw [hv] at hcode
        refine .inr ⟨b, by simp, ob, hb, ?_⟩
        rw [hcode, hv]
        simp
      push Not at hwrite
      have hkeep : (committed env b ob (commitAll env objs L st)).code h =
          (commitAll env objs L st).code h := by
        rw [hcode]
        cases hw : ob.writtenCode with
        | none => rfl
        | some p =>
          obtain ⟨h', v⟩ := p
          have hne : h ≠ h' := by
            rintro rfl
            exact hwrite v hw
          simp [hne]
      rw [hkeep]
      rcases ih with ⟨hno, heq⟩ | ⟨a, ha, o, ho, hw⟩
      · refine .inl ⟨fun a ha o ho v => ?_, heq⟩
        rcases List.mem_append.mp ha with ha | ha
        · exact hno a ha o ho v
        rw [List.mem_singleton] at ha
        subst ha
        rw [hb] at ho
        cases ho
        exact hwrite v
      · exact .inr ⟨a, List.mem_append_left _ ha, o, ho, hw⟩

theorem nodup_sortedDirties (j : Journal Ω) : j.sortedDirties.Nodup :=
  OrderedKeys.nodup_sortedKeys _ _

theorem mem_sortedDirties (j : Journal Ω) (a : Address) :
    a ∈ j.sortedDirties ↔ a ∈ j.dirties := by
  rw [Journal.sortedDirties, OrderedKeys.mem_sortedKeys, Finmap.mem_keys]

/-- What a commit of a prefix of the dirty addresses has done. -/
structure CommittedSoFar (env : Env) (objs : Address → Option StateObject) (st : Store Ω)
    (done : List Address) (st' : Store Ω) : Prop where
  store : st' = commitAll env objs done st
  live : ∀ a ∈ done, ∃ o, objs a = some o ∧ (o.suicided = false → 0 ≤ o.account.balance)
  contracts : ∀ a ∈ done, ∀ o, objs a = some o → o.suicided = true →
    st.sequence a = none ∨ st.codeHash a ≠ none
  supply : (st'.supply env.evmDenom : ℤ) - st.supply env.evmDenom =
    (done.map (commitDelta env objs st)).sum
  supplyOther : ∀ e, e ≠ env.evmDenom → st'.supply e = st.supply e

theorem CommittedSoFar.init (st : Store Ω) : CommittedSoFar env objs st [] st :=
  ⟨rfl, by simp, by simp, by simp, by simp⟩

variable {done : List Address}

theorem CommittedSoFar.accountState_ahead (h : CommittedSoFar env objs st done st') (ha : a ∉ done)
    : st'.accountState a = st.accountState a := by
  rw [h.store]
  exact accountState_commitAll_of_notMem ha st

/-- One more object is committed. -/
theorem CommittedSoFar.step {st₁ st₂ : Store Ω} (h : CommittedSoFar env objs st done st₁)
    (ha : a ∉ done) (hobj : objs a = some o) (hdvd : (env.conversionFactor : ℤ) ∣ o.account.balance)
    (hrun : (StateDB.commitObject env a o).run st₁ = .ok () st₂) :
    CommittedSoFar env objs st (done ++ [a]) st₂ := by
  obtain ⟨hst₂, hnonneg, hcontract⟩ := commitObject_ok hdvd hrun
  have hstate := h.accountState_ahead ha
  have hsupply := supply_committed hdvd hrun
  have hbalance : st₂.balance a = (commitAccount env o (st.accountState a)).balance := by
    have hacc := congrFun (@accountState_committed Ω env a o st₁) a
    rw [← hst₂, Function.update_self, hstate] at hacc
    exact congrArg AccountState.balance hacc
  have hbefore : st₁.balance a = st.balance a := congrArg AccountState.balance hstate
  have hsequence : st₁.sequence a = st.sequence a := congrArg AccountState.sequence hstate
  have hcode : st₁.codeHash a = st.codeHash a := congrArg AccountState.codeHash hstate
  refine ⟨?_, ?_, ?_, ?_, ?_⟩
  · rw [commitAll_append, hobj, Option.elim_some, ← h.store]
    exact hst₂
  · intro b hb
    rcases List.mem_append.mp hb with hb | hb
    · exact h.live b hb
    · rw [List.mem_singleton] at hb
      subst hb
      exact ⟨o, hobj, fun hs => (hnonneg hs).1⟩
  · intro b hb ob hob hs
    rcases List.mem_append.mp hb with hb | hb
    · exact h.contracts b hb ob hob hs
    rw [List.mem_singleton] at hb
    subst hb
    rw [hobj] at hob
    cases hob
    rw [← hsequence, ← hcode]
    exact (hcontract hs).imp_right And.left
  · have hdelta : commitDelta env objs st a =
        (st₂.balance a env.evmDenom : ℤ) - st₁.balance a env.evmDenom := by
      rw [commitDelta, hobj, Option.elim_some, hbalance, hbefore]
    rw [List.map_append, List.sum_append, ← h.supply, List.map_singleton, List.sum_singleton,
      hdelta, ← hsupply]
    ring
  · intro e he
    rw [hst₂, supply_committed_other a o st₁ he]
    exact h.supplyOther e he

theorem notMem_of_sortedDirties {j : Journal Ω} {rest : List Address}
    (h : j.sortedDirties = done ++ a :: rest) : a ∉ done := by
  have hnodup := nodup_sortedDirties j
  rw [h] at hnodup
  intro hmem
  exact (List.nodup_append.mp hnodup).2.2 a hmem a List.mem_cons_self rfl

variable {s : StateDB Ω}

theorem StateDB.commit_ok {ctx' : Context Ω} (h : s.commit env = (none, ctx')) :
    (s.commitWithCtx env).run s.writeCache.store = .ok () ctx'.store := by
  unfold commit at h
  cases hrun : (s.commitWithCtx env).run s.writeCache.store with
  | ok u st =>
    rw [hrun] at h
    cases h
    rfl
  | error e st =>
    rw [hrun] at h
    cases h

/-- **A successful commit** commits every dirty object. -/
theorem commitWithCtx_ok (hdvd : ∀ a o, s.stateObjects a = some o →
      (env.conversionFactor : ℤ) ∣ o.account.balance)
    (h : (s.commitWithCtx env).run st = .ok () st') :
    CommittedSoFar env s.stateObjects st s.journal.sortedDirties st' := by
  refine forM_ok (CommittedSoFar env s.stateObjects st) h (CommittedSoFar.init st) ?_
  intro done a rest st₁ st₂ hsplit hdone hround
  have ha := notMem_of_sortedDirties hsplit
  cases hobj : s.stateObjects a with
  | none =>
    rw [hobj] at hround
    cases hround
  | some o =>
    rw [hobj] at hround
    exact hdone.step ha hobj (hdvd a o hobj) hround

end

end TacEvm
