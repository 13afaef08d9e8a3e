import TacEvm.Library.OrderedKeys
import TacEvm.Model.Keeper

/-!
# State objects

The in-memory account of one address. Reads fill its caches, so they return the object too; the
address and the store the object reads from are arguments here.

SOURCE: x/vm/statedb/state_object.go
-/

namespace TacEvm

/-- `Storage`, the cache of a contract's slots. -/
abbrev Storage := Finmap (fun _ : Hash => Hash)

def Storage.sortedKeys (s : Storage) : List Hash :=
  OrderedKeys.sortedKeys (fun a b : Hash => a ≤ b) s.keys

structure StateObject where
  account : Account
  code : Option Bytes
  originStorage : Hash → Option Hash
  dirtyStorage : Storage
  dirtyCode : Bool
  suicided : Bool

def newObject (account : Account) : StateObject where
  account := account
  code := none
  originStorage := fun _ => none
  dirtyStorage := ∅
  dirtyCode := false
  suicided := false

namespace StateObject

variable {Ω : Type} (env : Env) (st : Store Ω) (addr : Address) (o : StateObject)

def empty : Bool :=
  o.account.nonce = 0 && o.account.balance = 0 && o.account.codeHash = env.emptyCodeHash

/-! ## Reads that fill a cache -/

/-- Nil code is looked up, unless the hash is that of no code. -/
def loadCode : StateObject × Option Bytes :=
  match o.code with
  | some code => (o, some code)
  | none =>
    if o.account.codeHash = env.emptyCodeHash then (o, none)
    else ({ o with code := st.getCode o.account.codeHash }, st.getCode o.account.codeHash)

variable (key : Hash)

def getCommittedState : StateObject × Hash :=
  match o.originStorage key with
  | some value => (o, value)
  | none =>
    let value := st.getState addr key
    ({ o with originStorage := Function.update o.originStorage key (some value) }, value)

def getState : StateObject × Hash :=
  match o.dirtyStorage.lookup key with
  | some value => (o, value)
  | none => o.getCommittedState st addr key

def setBalance (amount : ℤ) : StateObject :=
  { o with account := { o.account with balance := amount } }

def setNonce (nonce : UInt64) : StateObject :=
  { o with account := { o.account with nonce := nonce } }

/-- The code is dirty from now on, also when a revert sets it. -/
def setCode (codeHash : Hash) (code : Option Bytes) : StateObject :=
  { o with code := code, account := { o.account with codeHash := codeHash }, dirtyCode := true }

def setState (key value : Hash) : StateObject :=
  { o with dirtyStorage := o.dirtyStorage.insert key value }

/-- The balance is cleared as `StateDB.Suicide` does. -/
def markSuicided : StateObject :=
  { o.setBalance 0 with suicided := true }

/-! ## What the reads return -/

/-- The code `loadCode` returns. -/
def codeView : Option Bytes :=
  match o.code with
  | some code => some code
  | none => if o.account.codeHash = env.emptyCodeHash then none else st.getCode o.account.codeHash

/-- The value `getCommittedState` returns. -/
def committedView : Hash := (o.originStorage key).getD (st.getState addr key)

/-- The value `getState` returns. -/
def stateView : Hash := (o.dirtyStorage.lookup key).getD (o.committedView st addr key)

theorem loadCode_snd : (o.loadCode env st).2 = o.codeView env st := by
  unfold loadCode codeView
  cases o.code with
  | some code => rfl
  | none => dsimp only; split <;> rfl

theorem getCommittedState_snd :
    (o.getCommittedState st addr key).2 = o.committedView st addr key := by
  unfold getCommittedState committedView
  cases o.originStorage key <;> rfl

theorem getState_snd : (o.getState st addr key).2 = o.stateView st addr key := by
  unfold getState stateView
  cases o.dirtyStorage.lookup key with
  | some value => rfl
  | none => exact o.getCommittedState_snd st addr key

end StateObject

end TacEvm
