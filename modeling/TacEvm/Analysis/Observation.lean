import TacEvm.Model.Run

/-!
# What can be observed of a `StateDB`

Two states with the same `Observation` answer every read alike. `undoObservation` says what
reverting one entry does to an observation, and `observe_revert` that it says so correctly.
-/

namespace TacEvm

/-- What the reads see of one account. -/
@[ext]
structure ObjectView where
  nonce : UInt64
  balance : ℤ
  codeHash : Hash
  code : Option Bytes
  suicided : Bool
  state : Hash → Hash
  committed : Hash → Hash

/-- What the reads see of a `StateDB`. -/
@[ext]
structure Observation where
  objects : Address → Option ObjectView
  refund : UInt64
  logs : List Log
  accessList : AccessList

section

variable {Ω : Type} (env : Env)

/-- The view of an object that reads from the store `st`. -/
def StateObject.view (st : Store Ω) (addr : Address) (o : StateObject) : ObjectView where
  nonce := o.account.nonce
  balance := o.account.balance
  codeHash := o.account.codeHash
  code := o.codeView env st
  suicided := o.suicided
  state := o.stateView st addr
  committed := o.committedView st addr

/-- The live object at `addr`, or the one a read loads. -/
def StateDB.object (s : StateDB Ω) (addr : Address) : Option StateObject :=
  (s.stateObjects addr).or ((s.ctx.store.getAccount env addr).map newObject)

/-- The view of an account that is not live. -/
def loadedView (st : Store Ω) (addr : Address) : Option ObjectView :=
  (st.getAccount env addr).map fun account => (newObject account).view env st addr

def StateDB.observe (s : StateDB Ω) : Observation where
  objects := fun addr => (s.object env addr).map (StateObject.view env s.ctx.store addr)
  refund := s.refund
  logs := s.logs
  accessList := s.accessList

end

namespace StateDB

variable {Ω : Type} (env : Env) (s : StateDB Ω)

/-! ## Looking up an object -/

variable {addr : Address} {o : StateObject}

theorem setStateObject_self (h : s.stateObjects addr = some o) : s.setStateObject addr o = s := by
  have hupd : Function.update s.stateObjects addr (some o) = s.stateObjects := by
    rw [← h]
    exact Function.update_eq_self addr s.stateObjects
  simp only [setStateObject, hupd]

theorem getStateObject_eq (addr : Address) :
    s.getStateObject env addr = match s.object env addr with
      | none => (none, s)
      | some o => (some o, s.setStateObject addr o) := by
  unfold getStateObject object
  cases hlive : s.stateObjects addr with
  | some o =>
    simp only [Option.some_or]
    rw [setStateObject_self s hlive]
  | none =>
    cases s.ctx.store.getAccount env addr <;> rfl

theorem getOrNewStateObject_eq (addr : Address) :
    s.getOrNewStateObject env addr = match s.object env addr with
      | some o => (o, s.setStateObject addr o)
      | none => (newObject (newEmptyAccount env),
          (s.append (.createObjectChange addr)).setStateObject addr
            (newObject (newEmptyAccount env))) := by
  unfold getOrNewStateObject createObject
  cases hobj : s.object env addr with
  | some o => simp only [getStateObject_eq, hobj]
  | none => simp only [getStateObject_eq, hobj]

variable {env s} in
theorem observe_of_live (hlive : s.stateObjects addr = some o) :
    (s.observe env).objects addr = some (o.view env s.ctx.store addr) := by
  simp [observe, object, hlive]

variable {env s} in
theorem object_of_live (hlive : s.stateObjects addr = some o) : s.object env addr = some o := by
  simp [object, hlive]

/-! ## Observing an updated state -/

@[simp]
theorem object_setStateObject (addr : Address) (o : StateObject) :
    (s.setStateObject addr o).object env = Function.update (s.object env) addr (some o) := by
  funext b
  by_cases hb : b = addr
  · subst hb
    simp [object, setStateObject]
  · simp [object, setStateObject, hb]

@[simp]
theorem object_append (entry : JournalEntry Ω) : (s.append entry).object env = s.object env := rfl

@[simp]
theorem observe_append (entry : JournalEntry Ω) :
    (s.append entry).observe env = s.observe env := rfl

@[simp]
theorem ctx_setStateObject (addr : Address) (o : StateObject) :
    (s.setStateObject addr o).ctx = s.ctx := rfl

@[simp]
theorem journal_setStateObject (addr : Address) (o : StateObject) :
    (s.setStateObject addr o).journal = s.journal := rfl

@[simp]
theorem ctx_append (entry : JournalEntry Ω) : (s.append entry).ctx = s.ctx := rfl

@[simp]
theorem entries_append (entry : JournalEntry Ω) :
    (s.append entry).journal.entries = s.journal.entries ++ [entry] := rfl

theorem observe_setStateObject (addr : Address) (o : StateObject) :
    (s.setStateObject addr o).observe env =
      { s.observe env with
        objects := Function.update (s.observe env).objects addr
          (some (o.view env s.ctx.store addr)) } := by
  apply Observation.ext
  · funext b
    by_cases hb : b = addr
    · subst hb
      simp [observe]
    · simp [observe, hb]
  all_goals rfl

theorem observe_setStateObject_of_view {o' : StateObject} (hobj : s.object env addr = some o)
    (hview : o'.view env s.ctx.store addr = o.view env s.ctx.store addr) :
    (s.setStateObject addr o').observe env = s.observe env := by
  have hself : Function.update (s.observe env).objects addr (some (o.view env s.ctx.store addr)) =
      (s.observe env).objects := by
    rw [Function.update_eq_self_iff]
    simp [observe, hobj]
  rw [observe_setStateObject, hview, hself]

end StateDB

/-! ## Filled caches are not observed -/

namespace StateObject

variable {Ω : Type} (env : Env) (st : Store Ω) (addr : Address) (o : StateObject)

theorem view_loadCode : (o.loadCode env st).1.view env st addr = o.view env st addr := by
  unfold loadCode
  cases hcode : o.code with
  | some code => rfl
  | none =>
    dsimp only
    split
    · rfl
    rename_i hhash
    apply ObjectView.ext
    case code =>
      simp only [view, codeView, hcode, if_neg hhash]
      cases st.getCode o.account.codeHash <;> rfl
    all_goals rfl

theorem view_getCommittedState (key : Hash) :
    (o.getCommittedState st addr key).1.view env st addr = o.view env st addr := by
  unfold getCommittedState
  cases horigin : o.originStorage key with
  | some value => rfl
  | none =>
    have hcommitted : ∀ k, committedView st addr
        { o with
          originStorage := Function.update o.originStorage key (some (st.getState addr key)) } k =
        o.committedView st addr k := by
      intro k
      by_cases hk : k = key
      · subst hk
        simp [committedView, horigin]
      · simp [committedView, hk]
    apply ObjectView.ext
    case state =>
      funext k
      simp only [view, stateView, hcommitted]
    case committed =>
      funext k
      exact hcommitted k
    all_goals rfl

theorem view_getState (key : Hash) :
    (o.getState st addr key).1.view env st addr = o.view env st addr := by
  unfold getState
  cases o.dirtyStorage.lookup key with
  | some value => rfl
  | none => exact o.view_getCommittedState env st addr key

end StateObject

namespace ObjectView

variable {Ω : Type} (env : Env) (st : Store Ω) (v : ObjectView)

def setBalance (amount : ℤ) : ObjectView := { v with balance := amount }

def setNonce (nonce : UInt64) : ObjectView := { v with nonce := nonce }

def setCode (codeHash : Hash) (code : Option Bytes) : ObjectView :=
  { v with
    codeHash := codeHash
    code := match code with
      | some code => some code
      | none => if codeHash = env.emptyCodeHash then none else st.getCode codeHash }

def setState (key value : Hash) : ObjectView :=
  { v with state := Function.update v.state key value }

end ObjectView

theorem StateObject.view_setState {Ω : Type} (env : Env) (st : Store Ω) (addr : Address)
    (o : StateObject) (key value : Hash) :
    (o.setState key value).view env st addr = (o.view env st addr).setState key value := by
  apply ObjectView.ext
  case state =>
    funext k
    by_cases hk : k = key
    · subst hk
      simp [view, stateView, setState, ObjectView.setState]
    · simp [view, stateView, committedView, setState, ObjectView.setState, hk,
        Finmap.lookup_insert_of_ne]
  all_goals rfl

namespace Observation

variable (w : Observation)

def setObject (addr : Address) (v : Option ObjectView) : Observation :=
  { w with objects := Function.update w.objects addr v }

/-- Change the view of an account that must be there. -/
def modifyObject (addr : Address) (f : ObjectView → ObjectView) : Option Observation :=
  match w.objects addr with
  | none => none
  | some v => some (w.setObject addr (some (f v)))

end Observation

/-- What reverting an entry does to an observation. -/
def undoObservation {Ω : Type} (env : Env) (st : Store Ω) :
    JournalEntry Ω → Observation → Option Observation
  | .createObjectChange account, w => some (w.setObject account (loadedView env st account))
  | .resetObjectChange account prev, w =>
    some (w.setObject account (some (prev.view env st account)))
  | .suicideChange account prev prevbalance, w =>
    match w.objects account with
    | none => some w
    | some v => some (w.setObject account (some { v.setBalance prevbalance with suicided := prev }))
  | .balanceChange account prev, w => w.modifyObject account (·.setBalance prev)
  | .nonceChange account prev, w => w.modifyObject account (·.setNonce prev)
  | .codeChange account prevcode prevhash, w =>
    w.modifyObject account (·.setCode env st prevhash prevcode)
  | .storageChange account key prevalue, w => w.modifyObject account (·.setState key prevalue)
  | .refundChange prev, w => some { w with refund := prev }
  | .addLogChange, w => if w.logs = [] then none else some { w with logs := w.logs.dropLast }
  | .accessListAddAccountChange address, w =>
    some { w with accessList := w.accessList.deleteAddress address }
  | .accessListAddSlotChange address slot, w =>
    (w.accessList.deleteSlot address slot).map fun al => { w with accessList := al }
  | .precompileCallChange _ _, w => some w

/-- The store in the cache context after an entry is reverted. -/
def JournalEntry.restore {Ω : Type} : JournalEntry Ω → Store Ω → Store Ω
  | .precompileCallChange multiStore _, _ => multiStore
  | _, st => st

/-- Whether an entry records a precompile call. -/
def JournalEntry.isCall {Ω : Type} : JournalEntry Ω → Bool
  | .precompileCallChange _ _ => true
  | _ => false

theorem JournalEntry.restore_of_not_isCall {Ω : Type} {e : JournalEntry Ω}
    (h : e.isCall = false) (st : Store Ω) : e.restore st = st := by
  cases e <;> first | rfl | cases h

namespace StateDB

variable {Ω : Type} (env : Env)

theorem observe_objects (s : StateDB Ω) (addr : Address) :
    (s.observe env).objects addr =
      (s.object env addr).map (StateObject.view env s.ctx.store addr) :=
  rfl

theorem observe_revertObject (s : StateDB Ω) (account : Address) (f : StateObject → StateObject)
    (g : ObjectView → ObjectView)
    (hfg : ∀ o : StateObject, (f o).view env s.ctx.store account =
      g (o.view env s.ctx.store account)) :
    (s.revertObject env account f).map (observe env) = (s.observe env).modifyObject account g := by
  unfold revertObject Observation.modifyObject
  rw [getStateObject_eq, observe_objects]
  cases hobj : s.object env account with
  | none => rfl
  | some o =>
    simp only [Option.map_some, observe_setStateObject, ctx_setStateObject, hfg,
      Function.update_idem, Observation.setObject]

/-- **Reverting is observed as undoing.** -/
theorem observe_revert (s : StateDB Ω) (entry : JournalEntry Ω) :
    (entry.revert env s).map (observe env) =
      undoObservation env s.ctx.store entry (s.observe env) := by
  cases entry with
  | createObjectChange account =>
    simp only [JournalEntry.revert, undoObservation, Option.map_some, Option.some.injEq]
    apply Observation.ext
    case objects =>
      funext b
      by_cases hb : b = account
      · subst hb
        simp [observe, object, Observation.setObject, loadedView, Function.comp_def]
      · simp [observe, object, Observation.setObject, hb]
    all_goals rfl
  | resetObjectChange account prev =>
    simp only [JournalEntry.revert, undoObservation, Option.map_some, observe_setStateObject]
    rfl
  | suicideChange account prev prevbalance =>
    simp only [JournalEntry.revert, undoObservation, getStateObject_eq, observe_objects]
    cases hobj : s.object env account with
    | none => rfl
    | some o =>
      simp only [Option.map_some, observe_setStateObject, Function.update_idem]
      rfl
  | balanceChange account prev => exact observe_revertObject env s account _ _ fun _ => rfl
  | nonceChange account prev => exact observe_revertObject env s account _ _ fun _ => rfl
  | storageChange account key prevalue =>
    exact observe_revertObject env s account _ _ fun o => o.view_setState env _ _ _ _
  | codeChange account prevcode prevhash =>
    exact observe_revertObject env s account _ _ fun _ => rfl
  | addLogChange =>
    simp only [JournalEntry.revert, undoObservation]
    by_cases hlogs : s.logs = []
    · simp [hlogs, observe]
    · simp only [hlogs, if_false, observe]
      rfl
  | accessListAddSlotChange address slot =>
    simp only [JournalEntry.revert, undoObservation, Option.map_map]
    rfl
  | _ => rfl

end StateDB

end TacEvm
