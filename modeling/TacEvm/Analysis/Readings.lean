import TacEvm.Analysis.Observation

/-!
# What can be read

The getters of the `StateDB`, as one record of functions, and the proof that they read
nothing but the observation.  The second half computes the balances after the two balance
writes and after a transfer.
-/

namespace TacEvm

open ObjectView

variable {Ω : Type} (env : Env)

/-- Everything that can be read of a `StateDB`. -/
structure Readings where
  exist : Address → Bool
  empty : Address → Bool
  balance : Address → ℤ
  nonce : Address → UInt64
  code : Address → Option Bytes
  codeHash : Address → Hash
  codeSize : Address → ℕ
  hasSuicided : Address → Bool
  state : Address → Hash → Hash
  committedState : Address → Hash → Hash
  refund : UInt64
  logs : List Log
  addressInAccessList : Address → Bool
  slotInAccessList : Address → Hash → Bool × Bool

def StateDB.readings (s : StateDB Ω) : Readings where
  exist := fun addr => (s.exist env addr).1
  empty := fun addr => (s.empty env addr).1
  balance := fun addr => (s.getBalance env addr).1
  nonce := fun addr => (s.getNonce env addr).1
  code := fun addr => (s.getCode env addr).1
  codeHash := fun addr => (s.getCodeHash env addr).1
  codeSize := fun addr => (s.getCodeSize env addr).1
  hasSuicided := fun addr => (s.hasSuicided env addr).1
  state := fun addr key => (s.getState env addr key).1
  committedState := fun addr key => (s.getCommittedState env addr key).1
  refund := s.getRefund
  logs := s.logs
  addressInAccessList := s.addressInAccessList
  slotInAccessList := s.slotInAccessList

theorem StateDB.readObject_fst {β : Type} (s : StateDB Ω) (addr : Address) (dflt : β)
    (f : StateObject → StateObject × β) (g : ObjectView → β)
    (hfg : ∀ o : StateObject, (f o).2 = g (o.view env s.ctx.store addr)) :
    (s.readObject env addr dflt f).1 = ((s.observe env).objects addr).elim dflt g := by
  unfold readObject
  rw [getStateObject_eq, observe_objects]
  cases s.object env addr with
  | none => rfl
  | some o => exact hfg o

/-- The readings an observation determines. -/
def Observation.readings (w : Observation) : Readings where
  exist := fun addr => (w.objects addr).elim false fun _ => true
  empty := fun addr => (w.objects addr).elim true fun v =>
    v.nonce = 0 && v.balance = 0 && v.codeHash = env.emptyCodeHash
  balance := fun addr => (w.objects addr).elim 0 balance
  nonce := fun addr => (w.objects addr).elim 0 nonce
  code := fun addr => (w.objects addr).elim none code
  codeHash := fun addr => (w.objects addr).elim 0 codeHash
  codeSize := fun addr => (w.objects addr).elim 0 fun v => (v.code.getD []).length
  hasSuicided := fun addr => (w.objects addr).elim false suicided
  state := fun addr key => (w.objects addr).elim 0 fun v => v.state key
  committedState := fun addr key => (w.objects addr).elim 0 fun v => v.committed key
  refund := w.refund
  logs := w.logs
  addressInAccessList := w.accessList.containsAddress
  slotInAccessList := w.accessList.contains

theorem StateDB.readings_eq (s : StateDB Ω) : s.readings env = (s.observe env).readings env := by
  unfold readings Observation.readings
  congr 1
  · funext addr
    exact s.readObject_fst env addr _ _ _ fun _ => rfl
  · funext addr
    exact s.readObject_fst env addr _ _ _ fun _ => rfl
  · funext addr
    exact s.readObject_fst env addr _ _ _ fun _ => rfl
  · funext addr
    exact s.readObject_fst env addr _ _ _ fun _ => rfl
  · funext addr
    exact s.readObject_fst env addr _ _ _ fun o => o.loadCode_snd env _
  · funext addr
    exact s.readObject_fst env addr _ _ _ fun _ => rfl
  · funext addr
    refine s.readObject_fst env addr _ _ _ fun o => ?_
    rw [o.loadCode_snd env]
    rfl
  · funext addr
    exact s.readObject_fst env addr _ _ _ fun _ => rfl
  · funext addr key
    exact s.readObject_fst env addr _ _ (fun v => v.state key) fun o => o.getState_snd _ _ _
  · funext addr key
    exact s.readObject_fst env addr _ _ (fun v => v.committed key) fun o =>
      o.getCommittedState_snd _ _ _

/-! Single readings, by what is observed of the account. -/

section Single

variable {env}

theorem StateDB.getState_eq (s : StateDB Ω) (a : Address) (k : Hash) :
    (s.getState env a k).1 = ((s.observe env).objects a).elim 0 fun v => v.state k :=
  congrFun (congrFun (congrArg Readings.state (s.readings_eq env)) a) k

theorem StateDB.getNonce_eq (s : StateDB Ω) (a : Address) :
    (s.getNonce env a).1 = ((s.observe env).objects a).elim 0 nonce :=
  congrFun (congrArg Readings.nonce (s.readings_eq env)) a

theorem StateDB.getCodeHash_eq (s : StateDB Ω) (a : Address) :
    (s.getCodeHash env a).1 = ((s.observe env).objects a).elim 0 codeHash :=
  congrFun (congrArg Readings.codeHash (s.readings_eq env)) a

theorem StateDB.hasSuicided_view (s : StateDB Ω) (a : Address) :
    (s.hasSuicided env a).1 = ((s.observe env).objects a).elim false suicided :=
  congrFun (congrArg Readings.hasSuicided (s.readings_eq env)) a

end Single

namespace StateDB

theorem getBalance_eq (s : StateDB Ω) (a : Address) :
    (s.getBalance env a).1 = (s.object env a).elim 0 fun o => o.account.balance := by
  unfold getBalance readObject
  rw [getStateObject_eq]
  cases s.object env a <;> rfl

variable {env} in
theorem getBalance_of_live {s : StateDB Ω} {a : Address} {o : StateObject}
    (ho : s.stateObjects a = some o) : (s.getBalance env a).1 = o.account.balance := by
  rw [getBalance_eq, object_of_live ho]
  rfl

variable {env} in
theorem hasSuicided_of_live {s : StateDB Ω} {a : Address} {o : StateObject}
    (ho : s.stateObjects a = some o) : (s.hasSuicided env a).1 = o.suicided := by
  unfold hasSuicided readObject
  rw [getStateObject_eq, object_of_live ho]

theorem getOrNewStateObject_balance (s : StateDB Ω) (a : Address) :
    (s.getOrNewStateObject env a).1.account.balance = (s.getBalance env a).1 ∧
      ∀ c, ((s.getOrNewStateObject env a).2.getBalance env c).1 = (s.getBalance env c).1 := by
  rw [getOrNewStateObject_eq, getBalance_eq]
  cases hobj : s.object env a with
  | none =>
    refine ⟨rfl, fun c => ?_⟩
    rw [getBalance_eq, getBalance_eq, object_setStateObject, object_append]
    by_cases hca : c = a
    · subst hca
      simp [hobj, newObject, newEmptyAccount]
    · rw [Function.update_of_ne hca]
  | some o =>
    refine ⟨rfl, fun c => ?_⟩
    rw [getBalance_eq, getBalance_eq, object_setStateObject]
    by_cases hca : c = a
    · subst hca
      simp [hobj]
    · rw [Function.update_of_ne hca]

theorem setObjectBalance_getBalance (s : StateDB Ω) (a : Address) (o : StateObject) (n : ℤ)
    (c : Address) :
    ((s.setObjectBalance a o n).getBalance env c).1 =
      if c = a then n else (s.getBalance env c).1 := by
  rw [getBalance_eq, getBalance_eq, setObjectBalance, object_setStateObject, object_append]
  by_cases hca : c = a
  · subst hca
    simp [StateObject.setBalance]
  · rw [Function.update_of_ne hca, if_neg hca]

theorem addBalance_getBalance (s : StateDB Ω) (a : Address) (x : ℤ) (c : Address) :
    ((s.addBalance env a x).getBalance env c).1 =
      (s.getBalance env c).1 + if c = a then env.adjustExtraDecimals x else 0 := by
  obtain ⟨hself, hall⟩ := s.getOrNewStateObject_balance env a
  unfold addBalance
  dsimp only
  split
  · rename_i hzero
    simp [hall, hzero]
  rw [setObjectBalance_getBalance, hself, hall]
  by_cases hca : c = a
  · subst hca
    simp
  · simp [hca]

theorem subBalance_getBalance (s : StateDB Ω) (a : Address) (x : ℤ) (c : Address) :
    ((s.subBalance env a x).getBalance env c).1 =
      (s.getBalance env c).1 - if c = a then env.adjustExtraDecimals x else 0 := by
  obtain ⟨hself, hall⟩ := s.getOrNewStateObject_balance env a
  unfold subBalance
  dsimp only
  split
  · rename_i hzero
    simp [hall, hzero]
  rw [setObjectBalance_getBalance, hself, hall]
  by_cases hca : c = a
  · subst hca
    simp
  · simp [hca]

theorem transfer_getBalance (s : StateDB Ω) (a b : Address) (x : ℤ) (c : Address) :
    ((s.transfer env a b x).getBalance env c).1 =
      (s.getBalance env c).1 - (if c = a then env.adjustExtraDecimals x else 0) +
        if c = b then env.adjustExtraDecimals x else 0 := by
  rw [transfer, addBalance_getBalance, subBalance_getBalance]

theorem new_getBalance (ctx : Context Ω) (tx : TxConfig) (a : Address) :
    ((new ctx tx).getBalance env a).1 =
      if ctx.store.sequence a = none then 0
      else (ctx.store.balance a env.evmDenom : ℤ) * env.conversionFactor := by
  rw [getBalance_eq, object, Store.getAccount]
  cases hseq : ctx.store.sequence a with
  | none => simp [new, hseq]
  | some n =>
    simp [new, hseq, newObject, Store.getBalance, Env.convertAmountTo18Decimals]

end StateDB

end TacEvm
