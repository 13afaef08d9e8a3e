import TacEvm.Analysis.Observation

/-!
# Elementary steps

Every read and every write of the `StateDB` is a short sequence of the steps that `Elementary`
lists. What holds of the state is proved of these, and of the operations only through `Read.steps`,
`Write.steps` and `enterCall_steps`.
-/

namespace TacEvm

open Relation.ReflTransGen StateDB

section

variable {Ω : Type} (env : Env)

/-- A write of a live object: its entry and the object it leaves. -/
inductive ObjectWrite (st : Store Ω) (addr : Address) (o : StateObject) :
    JournalEntry Ω → StateObject → Prop
  | balance (amount : ℤ) (hdvd : (env.conversionFactor : ℤ) ∣ amount - o.account.balance) :
      ObjectWrite st addr o (.balanceChange addr o.account.balance) (o.setBalance amount)
  | nonce (nonce : UInt64) :
      ObjectWrite st addr o (.nonceChange addr o.account.nonce) (o.setNonce nonce)
  | code (code : Option Bytes) :
      ObjectWrite st addr o (.codeChange addr (o.codeView env st) o.account.codeHash)
        (o.setCode (env.keccak256 (code.getD [])) code)
  | storage (key value : Hash) (hne : o.stateView st addr key ≠ value) :
      ObjectWrite st addr o (.storageChange addr key (o.stateView st addr key))
        (o.setState key value)
  | suicide :
      ObjectWrite st addr o (.suicideChange addr o.suicided o.account.balance) o.markSuicided

/-- The elementary steps. -/
inductive Elementary : StateDB Ω → StateDB Ω → Prop
  | load {s : StateDB Ω} {addr : Address} {account : Account}
      (hlive : s.stateObjects addr = none)
      (hload : s.ctx.store.getAccount env addr = some account) :
      Elementary s (s.setStateObject addr (newObject account))
  | fill {s : StateDB Ω} {addr : Address} {o o' : StateObject}
      (hlive : s.stateObjects addr = some o)
      (hfill : o' = (o.loadCode env s.ctx.store).1 ∨
        ∃ key, o' = (o.getCommittedState s.ctx.store addr key).1) :
      Elementary s (s.setStateObject addr o')
  | create {s : StateDB Ω} {addr : Address} (hlive : s.stateObjects addr = none)
      (hload : s.ctx.store.getAccount env addr = none) :
      Elementary s ((s.append (.createObjectChange addr)).setStateObject addr
        (newObject (newEmptyAccount env)))
  | reset {s : StateDB Ω} {addr : Address} {prev : StateObject}
      (hlive : s.stateObjects addr = some prev) :
      Elementary s ((s.append (.resetObjectChange addr prev)).setStateObject addr
        ((newObject (newEmptyAccount env)).setBalance prev.account.balance))
  | write {s : StateDB Ω} {addr : Address} {o o' : StateObject} {entry : JournalEntry Ω}
      (hlive : s.stateObjects addr = some o)
      (hwrite : ObjectWrite env s.ctx.store addr o entry o') :
      Elementary s ((s.append entry).setStateObject addr o')
  | refund {s : StateDB Ω} (refund : UInt64) :
      Elementary s { s.append (.refundChange s.refund) with refund := refund }
  | log {s : StateDB Ω} (log : Log) :
      Elementary s { s.append .addLogChange with logs := s.logs ++ [log] }
  | accessAddress {s : StateDB Ω} {addr : Address}
      (habsent : s.accessList.addresses addr = none) :
      Elementary s ({ s with accessList := s.accessList.setAddress addr (some none) }.append
        (.accessListAddAccountChange addr))
  | accessSlot {s : StateDB Ω} {addr : Address} {slot : Hash} {al : AccessList}
      (hadd : s.accessList.addSlot addr slot = some (al, false, true)) :
      Elementary s ({ s with accessList := al }.append (.accessListAddSlotChange addr slot))

/-- Sequences of elementary steps. -/
def Steps : StateDB Ω → StateDB Ω → Prop := Relation.ReflTransGen (Elementary env)

end

/-! ## What stays out of reach -/

/-- What the elementary steps leave alone is the same. -/
structure SameControl {Ω : Type} (s s' : StateDB Ω) : Prop where
  ctx : s'.ctx = s.ctx
  cacheCtx : s'.cacheCtx = s.cacheCtx
  txConfig : s'.txConfig = s.txConfig
  validRevisions : s'.validRevisions = s.validRevisions
  nextRevisionID : s'.nextRevisionID = s.nextRevisionID
  counter : s'.precompileCallsCounter = s.precompileCallsCounter

variable {Ω : Type} {env : Env} {s s' : StateDB Ω}

theorem SameControl.trans {s'' : StateDB Ω} (h : SameControl s s') (h' : SameControl s' s'') :
    SameControl s s'' where
  ctx := h'.ctx.trans h.ctx
  cacheCtx := h'.cacheCtx.trans h.cacheCtx
  txConfig := h'.txConfig.trans h.txConfig
  validRevisions := h'.validRevisions.trans h.validRevisions
  nextRevisionID := h'.nextRevisionID.trans h.nextRevisionID
  counter := h'.counter.trans h.counter

theorem Elementary.sameControl (h : Elementary env s s') : SameControl s s' := by
  cases h <;> exact ⟨rfl, rfl, rfl, rfl, rfl, rfl⟩

theorem Steps.sameControl (h : Steps env s s') : SameControl s s' := by
  induction h with
  | refl => exact ⟨rfl, rfl, rfl, rfl, rfl, rfl⟩
  | tail _ hstep ih => exact ih.trans hstep.sameControl

/-! ## Values and plain writes -/

section

variable {Ω : Type} (env : Env)

/-- Lookups, new accounts, and balances changed by whole units. -/
inductive ValueStep : StateDB Ω → StateDB Ω → Prop
  | lookup {s : StateDB Ω} {a : Address} {o : StateObject} (hobj : s.object env a = some o) :
      ValueStep s (s.setStateObject a o)
  | create {s : StateDB Ω} {a : Address} (hobj : s.object env a = none) :
      ValueStep s ((s.append (.createObjectChange a)).setStateObject a
        (newObject (newEmptyAccount env)))
  | balance {s : StateDB Ω} {a : Address} {o : StateObject} (hlive : s.stateObjects a = some o)
      (amount : ℤ) (hdvd : (env.conversionFactor : ℤ) ∣ amount - o.account.balance) :
      ValueStep s (s.setObjectBalance a o amount)

/-- Entries about no nonce, no log, no reset and no destruction. -/
def JournalEntry.plain : JournalEntry Ω → Bool
  | .resetObjectChange _ _ => false
  | .suicideChange _ _ _ => false
  | .nonceChange _ _ => false
  | .addLogChange => false
  | _ => true

/-- The steps that journal plain entries or none. -/
inductive PlainStep : StateDB Ω → StateDB Ω → Prop
  | value {s s' : StateDB Ω} (h : ValueStep env s s') : PlainStep s s'
  | fill {s : StateDB Ω} {addr : Address} {o o' : StateObject}
      (hlive : s.stateObjects addr = some o)
      (hfill : o' = (o.loadCode env s.ctx.store).1 ∨
        ∃ key, o' = (o.getCommittedState s.ctx.store addr key).1) :
      PlainStep s (s.setStateObject addr o')
  | write {s : StateDB Ω} {addr : Address} {o o' : StateObject} {entry : JournalEntry Ω}
      (hlive : s.stateObjects addr = some o)
      (hwrite : ObjectWrite env s.ctx.store addr o entry o') (hplain : entry.plain = true) :
      PlainStep s ((s.append entry).setStateObject addr o')
  | refund {s : StateDB Ω} (refund : UInt64) :
      PlainStep s { s.append (.refundChange s.refund) with refund := refund }
  | accessAddress {s : StateDB Ω} {addr : Address}
      (habsent : s.accessList.addresses addr = none) :
      PlainStep s ({ s with accessList := s.accessList.setAddress addr (some none) }.append
        (.accessListAddAccountChange addr))
  | accessSlot {s : StateDB Ω} {addr : Address} {slot : Hash} {al : AccessList}
      (hadd : s.accessList.addSlot addr slot = some (al, false, true)) :
      PlainStep s ({ s with accessList := al }.append (.accessListAddSlotChange addr slot))

/-- Sequences of steps that move values. -/
def ValueSteps : StateDB Ω → StateDB Ω → Prop := Relation.ReflTransGen (ValueStep env)

/-- Sequences of plain steps. -/
def PlainSteps : StateDB Ω → StateDB Ω → Prop := Relation.ReflTransGen (PlainStep env)

end

namespace StateDB

variable {Ω : Type} {env : Env} {s : StateDB Ω}

theorem stateObjects_setStateObject_self (addr : Address) (o : StateObject) :
    (s.setStateObject addr o).stateObjects addr = some o := by
  simp [setStateObject]

theorem setStateObject_setStateObject (addr : Address) (o o' : StateObject) :
    (s.setStateObject addr o).setStateObject addr o' = s.setStateObject addr o' := by
  simp [setStateObject]

theorem append_setStateObject (entry : JournalEntry Ω) (addr : Address) (o o' : StateObject) :
    ((s.setStateObject addr o).append entry).setStateObject addr o' =
      (s.append entry).setStateObject addr o' := by
  simp [setStateObject, append]

variable {addr : Address}

theorem lookup_steps {o : StateObject} (hobj : s.object env addr = some o) :
    Steps env s (s.setStateObject addr o) := by
  unfold object at hobj
  cases hlive : s.stateObjects addr with
  | some o' =>
    rw [hlive, Option.some_or, Option.some.injEq] at hobj
    subst hobj
    rw [setStateObject_self s hlive]
    exact .refl
  | none =>
    rw [hlive, Option.none_or] at hobj
    obtain ⟨account, hload, rfl⟩ := Option.map_eq_some_iff.mp hobj
    exact .single (.load hlive hload)

theorem object_eq_none (hobj : s.object env addr = none) :
    s.stateObjects addr = none ∧ s.ctx.store.getAccount env addr = none := by
  simpa [object] using hobj

end StateDB

theorem ValueStep.steps (h : ValueStep env s s') : Steps env s s' := by
  cases h with
  | lookup hobj => exact lookup_steps hobj
  | create hobj =>
    obtain ⟨hlive, hload⟩ := object_eq_none hobj
    exact .single (.create hlive hload)
  | balance hlive amount hdvd => exact .single (.write hlive (.balance amount hdvd))

theorem PlainStep.steps (h : PlainStep env s s') : Steps env s s' := by
  cases h with
  | value h => exact h.steps
  | fill hlive hfill => exact .single (.fill hlive hfill)
  | write hlive hwrite hplain => exact .single (.write hlive hwrite)
  | refund refund => exact .single (.refund refund)
  | accessAddress habsent => exact .single (.accessAddress habsent)
  | accessSlot hadd => exact .single (.accessSlot hadd)

theorem PlainSteps.steps (h : PlainSteps env s s') : Steps env s s' := by
  induction h with
  | refl => exact .refl
  | tail _ hstep ih => exact ih.trans hstep.steps

theorem ValueSteps.plain (h : ValueSteps env s s') : PlainSteps env s s' :=
  mono (fun _ _ hstep => PlainStep.value hstep) _ _ h

theorem ValueSteps.steps (h : ValueSteps env s s') : Steps env s s' := h.plain.steps

/-! ## Operations that move values -/

namespace StateDB

variable {Ω : Type} (env : Env) (s : StateDB Ω)

theorem getOrNew_value (addr : Address) :
    ValueSteps env s (s.getOrNewStateObject env addr).2 ∧
      (s.getOrNewStateObject env addr).2.stateObjects addr =
        some (s.getOrNewStateObject env addr).1 := by
  rw [getOrNewStateObject_eq]
  cases hobj : s.object env addr with
  | some o => exact ⟨.single (.lookup hobj), stateObjects_setStateObject_self addr o⟩
  | none => exact ⟨.single (.create hobj), stateObjects_setStateObject_self addr _⟩

theorem getOrNew_steps (addr : Address) :
    Steps env s (s.getOrNewStateObject env addr).2 ∧
      (s.getOrNewStateObject env addr).2.stateObjects addr =
        some (s.getOrNewStateObject env addr).1 :=
  ⟨(s.getOrNew_value env addr).1.steps, (s.getOrNew_value env addr).2⟩

theorem readObject_value {β : Type} (addr : Address) (dflt : β)
    (f : StateObject → StateObject × β) (hf : ∀ o, (f o).1 = o) :
    ValueSteps env s (s.readObject env addr dflt f).2 := by
  unfold readObject
  rw [getStateObject_eq]
  cases hobj : s.object env addr with
  | none => exact .refl
  | some o =>
    dsimp only
    rw [hf o, setStateObject_setStateObject]
    exact .single (.lookup hobj)

theorem balanceWrite_value (addr : Address) (amount : ℤ) (f : StateObject → ℤ)
    (hf : ∀ o, (env.conversionFactor : ℤ) ∣ f o - o.account.balance) :
    ValueSteps env s (match s.getOrNewStateObject env addr with
      | (o, s) => if env.adjustExtraDecimals amount = 0 then s
        else s.setObjectBalance addr o (f o)) := by
  obtain ⟨hsteps, hlive⟩ := s.getOrNew_value env addr
  generalize s.getOrNewStateObject env addr = p at hsteps hlive
  obtain ⟨o, s₁⟩ := p
  dsimp only
  split
  · exact hsteps
  · exact hsteps.trans (.single (.balance hlive (f o) (hf o)))

theorem addBalance_value (addr : Address) (amount : ℤ) :
    ValueSteps env s (s.addBalance env addr amount) := by
  apply s.balanceWrite_value env addr amount
    (fun o => o.account.balance + env.adjustExtraDecimals amount)
  intro o
  rw [add_sub_cancel_left]
  exact env.dvd_adjustExtraDecimals amount

theorem subBalance_value (addr : Address) (amount : ℤ) :
    ValueSteps env s (s.subBalance env addr amount) := by
  apply s.balanceWrite_value env addr amount
    (fun o => o.account.balance - env.adjustExtraDecimals amount)
  intro o
  rw [sub_sub_cancel_left]
  exact (env.dvd_adjustExtraDecimals amount).neg_right

theorem canTransfer_value (call : PrecompileCall Ω) :
    ValueSteps env s (s.canTransfer env call).2 := by
  have hread : ValueSteps env s (s.getBalance env call.frame.caller).2 :=
    s.readObject_value env call.frame.caller _ _ fun _ => rfl
  unfold canTransfer
  cases call.kind
  all_goals dsimp only
  case delegateCall => exact .refl
  case staticCall => exact .refl
  all_goals
    split
    · exact .refl
    · exact hread

theorem sendValue_value (sender recipient : Address) (amount : ℤ) :
    ValueSteps env s (s.sendValue env sender recipient amount) := by
  unfold sendValue
  refine .trans ?_ ((subBalance_value env _ _ _).trans (addBalance_value env _ _ _))
  unfold exist readObject
  rw [getStateObject_eq]
  cases hobj : s.object env recipient with
  | some o =>
    dsimp only
    rw [setStateObject_setStateObject]
    exact .single (.lookup hobj)
  | none =>
    dsimp only
    unfold createAccount createObject
    rw [getStateObject_eq, hobj]
    exact .single (.create hobj)

theorem enterCall_value (call : PrecompileCall Ω) :
    ValueSteps env s (s.enterCall env call) := by
  unfold enterCall
  cases call.kind with
  | call => exact s.sendValue_value env _ _ _
  | staticCall => exact s.addBalance_value env _ _
  | callCode => exact .refl
  | delegateCall => exact .refl

theorem applyBalanceChanges_value (entries : BalanceChanges) :
    ValueSteps env s (entries.foldl (applyBalanceChange env) s) := by
  induction entries generalizing s with
  | nil => exact .refl
  | cons entry entries ih =>
    have hfirst : ValueSteps env s (s.applyBalanceChange env entry) := by
      unfold applyBalanceChange
      cases entry.op with
      | sub => exact s.subBalance_value env _ _
      | add => exact s.addBalance_value env _ _
    exact hfirst.trans (ih _)

theorem canTransfer_steps (call : PrecompileCall Ω) : Steps env s (s.canTransfer env call).2 :=
  (s.canTransfer_value env call).steps

theorem enterCall_steps (call : PrecompileCall Ω) : Steps env s (s.enterCall env call) :=
  (s.enterCall_value env call).steps

theorem applyBalanceChanges_steps (entries : BalanceChanges) :
    Steps env s (entries.foldl (applyBalanceChange env) s) :=
  (s.applyBalanceChanges_value env entries).steps

end StateDB

namespace StateDB

variable {Ω : Type} {env : Env} {s : StateDB Ω}

theorem readObject_plain {β : Type} (addr : Address) (dflt : β)
    (f : StateObject → StateObject × β)
    (hf : ∀ o, (f o).1 = o ∨ (f o).1 = (o.loadCode env s.ctx.store).1 ∨
      ∃ key, (f o).1 = (o.getCommittedState s.ctx.store addr key).1) :
    PlainSteps env s (s.readObject env addr dflt f).2 := by
  unfold readObject
  rw [getStateObject_eq]
  cases hobj : s.object env addr with
  | none => exact .refl
  | some o =>
    have hlive := stateObjects_setStateObject_self (s := s) addr o
    have hstep : PlainSteps env (s.setStateObject addr o)
        ((s.setStateObject addr o).setStateObject addr (f o).1) := by
      rcases hf o with hsame | hfill
      · rw [hsame, setStateObject_self _ hlive]
        exact .refl
      · exact .single (.fill hlive hfill)
    exact .head (.value (.lookup hobj)) hstep

theorem createAccount_steps (addr : Address) : Steps env s (s.createAccount env addr) := by
  unfold createAccount createObject
  rw [getStateObject_eq]
  cases hobj : s.object env addr with
  | none => exact (ValueStep.create hobj).steps
  | some prev =>
    dsimp only
    rw [setStateObject_setStateObject]
    exact (lookup_steps hobj).tail (.reset (stateObjects_setStateObject_self addr prev))

theorem setNonce_steps (addr : Address) (nonce : UInt64) :
    Steps env s (s.setNonce env addr nonce) := by
  obtain ⟨hsteps, hlive⟩ := s.getOrNew_steps env addr
  unfold setNonce
  generalize s.getOrNewStateObject env addr = p at hsteps hlive
  exact hsteps.tail (.write hlive (.nonce nonce))

theorem setCode_plain (addr : Address) (code : Option Bytes) :
    PlainSteps env s (s.setCode env addr code) := by
  obtain ⟨hsteps, hlive⟩ := s.getOrNew_value env addr
  unfold setCode
  generalize s.getOrNewStateObject env addr = p at hsteps hlive
  obtain ⟨o, s₁⟩ := p
  -- the code is read first, which fills the cache of the object
  have hfill : PlainStep env s₁ (s₁.setStateObject addr (o.loadCode env s₁.ctx.store).1) :=
    .fill hlive (.inl rfl)
  have hprev : (o.loadCode env s₁.ctx.store).2 =
      (o.loadCode env s₁.ctx.store).1.codeView env s₁.ctx.store := by
    rw [o.loadCode_snd]
    exact (congrArg ObjectView.code (o.view_loadCode env s₁.ctx.store addr)).symm
  have hcode : ObjectWrite env s₁.ctx.store addr (o.loadCode env s₁.ctx.store).1 _ _ := .code code
  have hwrite := PlainStep.write
    (stateObjects_setStateObject_self (s := s₁) addr (o.loadCode env s₁.ctx.store).1) hcode rfl
  rw [← hprev, append_setStateObject] at hwrite
  exact (hsteps.plain.tail hfill).tail hwrite

theorem getState_fill (st : Store Ω) (addr : Address) (o : StateObject) (key : Hash) :
    (o.getState st addr key).1 = o ∨
      (o.getState st addr key).1 = (o.getCommittedState st addr key).1 := by
  unfold StateObject.getState
  cases o.dirtyStorage.lookup key with
  | some value => exact .inl rfl
  | none => exact .inr rfl

theorem setState_plain (addr : Address) (key value : Hash) :
    PlainSteps env s (s.setState env addr key value) := by
  obtain ⟨hsteps, hlive⟩ := s.getOrNew_value env addr
  unfold setState
  generalize s.getOrNewStateObject env addr = p at hsteps hlive
  obtain ⟨o, s₁⟩ := p
  dsimp only at hsteps hlive ⊢
  have hfill : PlainSteps env s₁ (s₁.setStateObject addr (o.getState s₁.ctx.store addr key).1) := by
    rcases getState_fill s₁.ctx.store addr o key with hsame | hcommitted
    · rw [hsame, setStateObject_self s₁ hlive]
      exact .refl
    · exact .single (.fill hlive (.inr ⟨key, hcommitted⟩))
  have hprev : (o.getState s₁.ctx.store addr key).2 =
      (o.getState s₁.ctx.store addr key).1.stateView s₁.ctx.store addr key := by
    rw [o.getState_snd]
    have hview := congrArg ObjectView.state (o.view_getState env s₁.ctx.store addr key)
    exact (congrFun hview key).symm
  split
  · exact hsteps.plain.trans hfill
  rename_i hne
  have hstorage : ObjectWrite env s₁.ctx.store addr (o.getState s₁.ctx.store addr key).1 _ _ :=
    .storage key value (hprev ▸ hne)
  have hwrite := PlainStep.write
    (stateObjects_setStateObject_self (s := s₁) addr (o.getState s₁.ctx.store addr key).1)
    hstorage rfl
  rw [← hprev, append_setStateObject] at hwrite
  exact (hsteps.plain.trans hfill).tail hwrite

theorem suicide_steps (addr : Address) : Steps env s (s.suicide env addr).2 := by
  unfold suicide
  rw [getStateObject_eq]
  cases hobj : s.object env addr with
  | none => exact .refl
  | some o =>
    exact (lookup_steps hobj).tail (.write (stateObjects_setStateObject_self addr o) .suicide)

theorem addAddressToAccessList_plain (addr : Address) :
    PlainSteps env s (s.addAddressToAccessList addr) := by
  unfold addAddressToAccessList AccessList.addAddress
  cases haddr : s.accessList.addresses addr with
  | some idx => exact .refl
  | none => exact .single (.accessAddress haddr)

theorem addSlotToAccessList_plain {addr : Address} {slot : Hash} {s' : StateDB Ω}
    (h : s.addSlotToAccessList addr slot = some s') : PlainSteps env s s' := by
  obtain ⟨⟨al, addrMod, slotMod⟩, hadd, rfl⟩ := Option.map_eq_some_iff.mp h
  have hcases := hadd
  unfold AccessList.addSlot at hcases
  cases haddr : s.accessList.addresses addr with
  | none =>
    -- the address and the slot are added: two entries
    simp only [haddr, Option.some.injEq, Prod.mk.injEq] at hcases
    obtain ⟨rfl, rfl, rfl⟩ := hcases
    have hslot : (s.accessList.setAddress addr (some none)).addSlot addr slot =
        some (s.accessList.openSlots addr slot, false, true) := by
      simp [AccessList.addSlot, AccessList.setAddress, AccessList.openSlots]
    exact .head (.accessAddress haddr) (.single (.accessSlot hslot))
  | some idx =>
    cases idx with
    | none =>
      simp only [haddr, Option.some.injEq, Prod.mk.injEq] at hcases
      obtain ⟨-, rfl, rfl⟩ := hcases
      exact .single (.accessSlot hadd)
    | some idx =>
      simp only [haddr] at hcases
      cases hslots : s.accessList.slots[idx]? with
      | none => simp [hslots] at hcases
      | some slotmap =>
        by_cases hmem : slot ∈ slotmap
        · simp only [hslots, hmem, if_true, Option.some.injEq, Prod.mk.injEq] at hcases
          obtain ⟨rfl, rfl, rfl⟩ := hcases
          exact .refl
        · simp only [hslots, hmem, if_false, Option.some.injEq, Prod.mk.injEq] at hcases
          obtain ⟨-, rfl, rfl⟩ := hcases
          exact .single (.accessSlot hadd)

end StateDB

theorem Read.plainSteps (s : StateDB Ω) (r : Read) : PlainSteps env s (r.step env s) := by
  cases r with
  | code addr => exact readObject_plain addr _ _ fun _ => .inr (.inl rfl)
  | codeSize addr => exact readObject_plain addr _ _ fun _ => .inr (.inl rfl)
  | state addr key =>
    apply readObject_plain addr
    intro o
    rcases getState_fill s.ctx.store addr o key with hsame | hcommitted
    · exact .inl hsame
    · exact .inr (.inr ⟨key, hcommitted⟩)
  | committedState addr key =>
    exact readObject_plain addr _ _ fun _ => .inr (.inr ⟨key, rfl⟩)
  | _ => exact readObject_plain _ _ _ fun _ => .inl rfl

theorem Read.steps (s : StateDB Ω) (r : Read) : Steps env s (r.step env s) :=
  (Read.plainSteps s r).steps

/-- The writes that journal plain entries. -/
def Write.plain : Write → Bool
  | .createAccount _ => false
  | .setNonce _ _ => false
  | .suicide _ => false
  | .addLog _ _ _ => false
  | _ => true

variable {w : Write}

theorem Write.plainSteps (hplain : w.plain = true) (h : w.step env s = some s') :
    PlainSteps env s s' := by
  cases w with
  | addBalance addr amount =>
    cases h
    exact (s.addBalance_value env addr amount).plain
  | subBalance addr amount =>
    cases h
    exact (s.subBalance_value env addr amount).plain
  | setCode addr code =>
    cases h
    exact StateDB.setCode_plain addr code
  | setState addr key value =>
    cases h
    exact StateDB.setState_plain addr key value
  | addRefund gas =>
    cases h
    exact .single (.refund _)
  | subRefund gas =>
    simp only [Write.step, StateDB.subRefund] at h
    split at h
    · cases h
    · cases h
      exact .single (.refund _)
  | addAddressToAccessList addr =>
    cases h
    exact StateDB.addAddressToAccessList_plain addr
  | addSlotToAccessList addr slot => exact StateDB.addSlotToAccessList_plain h
  | _ => cases hplain

theorem Write.steps (h : w.step env s = some s') : Steps env s s' := by
  cases w with
  | createAccount addr =>
    cases h
    exact createAccount_steps addr
  | setNonce addr nonce =>
    cases h
    exact setNonce_steps addr nonce
  | suicide addr =>
    cases h
    exact suicide_steps addr
  | addLog address topics data =>
    cases h
    exact .single (.log _)
  | _ => exact (Write.plainSteps rfl h).steps

/-- What reverting an entry does to a state. -/
inductive Undone {Ω : Type} (env : Env) (s : StateDB Ω) : JournalEntry Ω → StateDB Ω → Prop
  | create (a : Address) : Undone env s (.createObjectChange a)
      { s with stateObjects := Function.update s.stateObjects a none }
  | reset (a : Address) (prev : StateObject) :
      Undone env s (.resetObjectChange a prev) (s.setStateObject a prev)
  | suicideAbsent {a : Address} (hobj : s.object env a = none) (prev : Bool) (prevbalance : ℤ) :
      Undone env s (.suicideChange a prev prevbalance) s
  | suicide {a : Address} {o : StateObject} (hobj : s.object env a = some o) (prev : Bool)
      (prevbalance : ℤ) : Undone env s (.suicideChange a prev prevbalance)
        (s.setStateObject a { o.setBalance prevbalance with suicided := prev })
  | balance {a : Address} {o : StateObject} (hobj : s.object env a = some o) (prev : ℤ) :
      Undone env s (.balanceChange a prev) (s.setStateObject a (o.setBalance prev))
  | nonce {a : Address} {o : StateObject} (hobj : s.object env a = some o) (prev : UInt64) :
      Undone env s (.nonceChange a prev) (s.setStateObject a (o.setNonce prev))
  | code {a : Address} {o : StateObject} (hobj : s.object env a = some o)
      (prevcode : Option Bytes) (prevhash : Hash) : Undone env s
        (.codeChange a prevcode prevhash) (s.setStateObject a (o.setCode prevhash prevcode))
  | storage {a : Address} {o : StateObject} (hobj : s.object env a = some o) (key prev : Hash) :
      Undone env s (.storageChange a key prev) (s.setStateObject a (o.setState key prev))
  | refund (prev : UInt64) : Undone env s (.refundChange prev) { s with refund := prev }
  | log : Undone env s .addLogChange { s with logs := s.logs.dropLast }
  | accessAddress (a : Address) : Undone env s (.accessListAddAccountChange a)
      { s with accessList := s.accessList.deleteAddress a }
  | accessSlot (a : Address) (slot : Hash) (al : AccessList) :
      Undone env s (.accessListAddSlotChange a slot) { s with accessList := al }
  | call (cms : Store Ω) (events : List Event) : Undone env s (.precompileCallChange cms events)
      { s with cacheCtx := some ⟨cms, s.cacheContext.events, some events⟩ }

theorem StateDB.revertObject_ok {a : Address} {f : StateObject → StateObject}
    (h : s.revertObject env a f = some s') :
    ∃ o, s.object env a = some o ∧ s' = s.setStateObject a (f o) := by
  unfold revertObject at h
  rw [getStateObject_eq] at h
  cases hobj : s.object env a with
  | none =>
    rw [hobj] at h
    cases h
  | some o =>
    rw [hobj] at h
    cases h
    exact ⟨o, rfl, setStateObject_setStateObject a o (f o)⟩

/-- **Reverting, entry by entry.** -/
theorem JournalEntry.undone {e : JournalEntry Ω} (h : e.revert env s = some s') :
    Undone env s e s' := by
  cases e with
  | suicideChange a prev prevbalance =>
    simp only [JournalEntry.revert, getStateObject_eq] at h
    cases hobj : s.object env a with
    | none =>
      rw [hobj] at h
      cases h
      exact .suicideAbsent hobj prev prevbalance
    | some o =>
      rw [hobj] at h
      cases h
      rw [setStateObject_setStateObject]
      exact .suicide hobj prev prevbalance
  | balanceChange a prev =>
    obtain ⟨o, hobj, rfl⟩ := revertObject_ok h
    exact .balance hobj prev
  | nonceChange a prev =>
    obtain ⟨o, hobj, rfl⟩ := revertObject_ok h
    exact .nonce hobj prev
  | codeChange a prevcode prevhash =>
    obtain ⟨o, hobj, rfl⟩ := revertObject_ok h
    exact .code hobj prevcode prevhash
  | storageChange a key prev =>
    obtain ⟨o, hobj, rfl⟩ := revertObject_ok h
    exact .storage hobj key prev
  | addLogChange =>
    simp only [JournalEntry.revert] at h
    split at h
    · cases h
    · cases h
      exact .log
  | accessListAddSlotChange a slot =>
    obtain ⟨al, -, rfl⟩ := Option.map_eq_some_iff.mp h
    exact .accessSlot a slot al
  | createObjectChange a =>
    cases h
    exact .create a
  | resetObjectChange a prev =>
    cases h
    exact .reset a prev
  | refundChange prev =>
    cases h
    exact .refund prev
  | accessListAddAccountChange a =>
    cases h
    exact .accessAddress a
  | precompileCallChange cms events =>
    cases h
    exact .call cms events

namespace StateDB

variable {Ω : Type} (env : Env) (s : StateDB Ω)

theorem addLogs_steps (logs : List EmittedLog) :
    Steps env s (logs.foldl (fun s log => s.addLog log.1 log.2.1 log.2.2) s) := by
  induction logs generalizing s with
  | nil => exact .refl
  | cons log logs ih => exact .head (.log _) (ih _)

/-- The state with another cache context. -/
def withCache (cache : Option (CacheContext Ω)) : StateDB Ω := { s with cacheCtx := cache }

/-- The state after a call is journaled and counted. -/
def journalCall (cms : Store Ω) (events : List Event) : StateDB Ω :=
  { s.append (.precompileCallChange cms events) with
    precompileCallsCounter := s.precompileCallsCounter + 1 }

theorem flush_eq :
    ∃ st, (s.flush env).2 = s.withCache (some
      { s.cacheContext with
        store := st
        events := s.cacheContext.events ++ s.commitWithCtxEvents env s.cacheStore }) := by
  unfold flush commitWithCacheCtx
  cases (s.getCacheContext.commitWithCtx env).run s.getCacheContext.cacheStore with
  | ok u st => exact ⟨st, rfl⟩
  | error e st => exact ⟨st, rfl⟩

/-- **The body of `Run`**: refused, stopped after the flush, or a handler run. -/
theorem runBody_cases (p : Precompile Ω) (c : Frame) :
    (∃ e, s.runBody env p c = (.error e, s)) ∨
    (∃ e, s.runBody env p c = (.error e, (s.flush env).2)) ∨
    ∃ handler result, (s.flush env).1 = none ∧ p.prepare c = .ok handler ∧
      (∀ entries, result = .ok entries →
        (handler c (s.flush env).2.cacheStore).result = .ok entries) ∧
      s.runBody env p c = (result, (s.flush env).2.applyHandlerOutput
        (handler c (s.flush env).2.cacheStore)) := by
  unfold runBody
  cases p.guard c with
  | some e => exact .inl ⟨e, rfl⟩
  | none =>
    right
    generalize s.flush env = r
    obtain ⟨err, s₁⟩ := r
    cases err with
    | some e => exact .inl ⟨e, rfl⟩
    | none =>
      unfold runMethod
      cases p.prepare c with
      | error e => exact .inl ⟨e, rfl⟩
      | ok handler =>
        right
        dsimp only
        cases hresult : (handler c s₁.cacheStore).result with
        | error e => exact ⟨handler, .error e, rfl, rfl, fun _ h => (by cases h), rfl⟩
        | ok entries =>
          dsimp only
          split
          · exact ⟨handler, .error errOutOfGas, rfl, rfl, fun _ h => (by cases h), rfl⟩
          · refine ⟨handler, .ok entries, rfl, rfl, fun entries' h => ?_, rfl⟩
            cases h
            exact hresult

theorem runBody_steps (p : Precompile Ω) (c : Frame) :
    ∃ cache, Steps env (s.withCache cache) (s.runBody env p c).2 := by
  obtain ⟨st, hflush⟩ := flush_eq env s
  obtain ⟨e, hbody⟩ | ⟨e, hbody⟩ | ⟨handler, result, -, -, -, hbody⟩ := s.runBody_cases env p c
  · rw [hbody]
    exact ⟨s.cacheCtx, .refl⟩
  · rw [hbody, hflush]
    exact ⟨_, .refl⟩
  · rw [hbody, hflush]
    exact ⟨some _, addLogs_steps env (s.withCache (some _)) _⟩

theorem addPrecompileFn_eq (addr : Address) (cms : Store Ω) (events : List Event) :
    s.addPrecompileFn env addr cms events =
      (if maxPrecompileCalls < s.precompileCallsCounter + 1 then
        some (.errorf "max calls to precompiles (%d) reached" [.num maxPrecompileCalls.toNat])
      else none, (s.getOrNewStateObject env addr).2.journalCall cms events) := by
  have hcounter := (getOrNew_steps env s addr).1.sameControl.counter
  rw [← hcounter]
  unfold addPrecompileFn
  generalize s.getOrNewStateObject env addr = r
  obtain ⟨o, s₁⟩ := r
  dsimp only [append]
  split
  · rfl
  · rfl

/-- `AddPrecompileFn` makes the account, journals and counts. -/
theorem addPrecompileFn_steps (addr : Address) (cms : Store Ω) (events : List Event) :
    ∃ s₁, Steps env s s₁ ∧ (s.addPrecompileFn env addr cms events).2 = s₁.journalCall cms events ∧
      ((s.addPrecompileFn env addr cms events).1 = none ↔
        s.precompileCallsCounter + 1 ≤ maxPrecompileCalls) := by
  rw [addPrecompileFn_eq]
  refine ⟨_, (getOrNew_steps env s addr).1, rfl, ?_⟩
  split
  · rename_i hover
    simpa using hover
  · rename_i hwithin
    simpa using hwithin

/-- **A call of a precompile**: without the value, or as `Run` ends. -/
theorem callPrecompile_cases {env : Env} {s s' : StateDB Ω} {call : PrecompileCall Ω}
    {err : Option Err} (h : s.callPrecompile env call = some (err, s')) :
    (s.canTransfer env call).1 = false ∧ err ≠ none ∧ s' = (s.canTransfer env call).2 ∨
    (s.canTransfer env call).1 = true ∧ ∃ s₁,
      ((s.canTransfer env call).2.snapshot.2.enterCall env call).runPrecompile env
        call.precompile call.frame = (err, s₁) ∧
      (err = none ∧ s' = s₁ ∨ err ≠ none ∧
        s₁.revertToSnapshot env (s.canTransfer env call).2.nextRevisionID = some s') := by
  unfold callPrecompile at h
  generalize s.canTransfer env call = r at h ⊢
  obtain ⟨enough, s₁⟩ := r
  cases enough with
  | false =>
    cases h
    exact .inl ⟨rfl, by simp, rfl⟩
  | true =>
    right
    dsimp only at h ⊢
    generalize (s₁.snapshot.2.enterCall env call).runPrecompile env call.precompile
      call.frame = q at h ⊢
    obtain ⟨e, s₂⟩ := q
    cases e with
    | none =>
      cases h
      exact ⟨rfl, _, rfl, .inl ⟨rfl, rfl⟩⟩
    | some e =>
      obtain ⟨s₃, hrevert, heq⟩ := Option.map_eq_some_iff.mp h
      cases heq
      exact ⟨rfl, s₂, rfl, .inr ⟨by simp, hrevert⟩⟩

end StateDB

end TacEvm
