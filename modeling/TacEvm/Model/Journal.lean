import TacEvm.Library.Rollback
import TacEvm.Model.AccessList
import TacEvm.Model.StateObject

/-!
# The journal and the `StateDB`

`StateDB` is the state of one transaction over a context `ctx` that it does not write until
`Commit`. What the function `writeCache` of the source would write back is what `CacheContext`
holds. The entries are in the order they were made; a nil dereference or an index out of range is a
Go panic, here `none`.

SOURCE: x/vm/statedb (journal.go, statedb.go:28-126, 259-282, 484-505)
-/

namespace TacEvm

structure Log where
  address : Address
  topics : List Hash
  data : Bytes
  txHash : Hash
  blockHash : Hash
  txIndex : ℕ
  index : ℕ
  deriving DecidableEq, Repr

structure TxConfig where
  blockHash : Hash
  txHash : Hash
  txIndex : ℕ
  logIndex : ℕ
  deriving DecidableEq, Repr

/-- The state object of a reset carries its address in the source. -/
inductive JournalEntry (Ω : Type)
  | createObjectChange (account : Address)
  | resetObjectChange (account : Address) (prev : StateObject)
  | suicideChange (account : Address) (prev : Bool) (prevbalance : ℤ)
  | balanceChange (account : Address) (prev : ℤ)
  | nonceChange (account : Address) (prev : UInt64)
  | storageChange (account : Address) (key prevalue : Hash)
  | codeChange (account : Address) (prevcode : Option Bytes) (prevhash : Hash)
  | refundChange (prev : UInt64)
  | addLogChange
  | accessListAddAccountChange (address : Address)
  | accessListAddSlotChange (address : Address) (slot : Hash)
  | precompileCallChange (multiStore : Store Ω) (events : List Event)

def JournalEntry.dirtied {Ω : Type} : JournalEntry Ω → Option Address
  | .createObjectChange account => some account
  | .resetObjectChange _ _ => none
  | .suicideChange account _ _ => some account
  | .balanceChange account _ => some account
  | .nonceChange account _ => some account
  | .storageChange account _ _ => some account
  | .codeChange account _ _ => some account
  | .refundChange _ => none
  | .addLogChange => none
  | .accessListAddAccountChange _ => none
  | .accessListAddSlotChange _ _ => none
  | .precompileCallChange _ _ => none

/-- The entries, and the number of changes of dirty accounts. -/
structure Journal (Ω : Type) where
  entries : List (JournalEntry Ω)
  dirties : Finmap (fun _ : Address => ℤ)

namespace Journal

variable {Ω : Type} (j : Journal Ω)

def sortedDirties : List Address :=
  OrderedKeys.sortedKeys (fun a b : Address => a ≤ b) j.dirties.keys

def addDirty : Option Address → Finmap (fun _ : Address => ℤ)
  | none => j.dirties
  | some addr => j.dirties.insert addr ((j.dirties.lookup addr).getD 0 + 1)

/-- The dirty tracking one reverted entry induced is dropped.
journal.go:84-88 -/
def dropDirty : Option Address → Finmap (fun _ : Address => ℤ)
  | none => j.dirties
  | some addr =>
    let count := (j.dirties.lookup addr).getD 0 - 1
    if count = 0 then j.dirties.erase addr else j.dirties.insert addr count

def append (entry : JournalEntry Ω) : Journal Ω where
  entries := j.entries ++ [entry]
  dirties := j.addDirty entry.dirtied

end Journal

structure Revision where
  id : ℕ
  journalIndex : ℕ
  deriving DecidableEq, Repr

/-- The cache context and what `writeCache` emits. -/
structure CacheContext (Ω : Type) where
  store : Store Ω
  events : List Event
  restored : Option (List Event)

structure StateDB (Ω : Type) where
  ctx : Context Ω
  cacheCtx : Option (CacheContext Ω)
  journal : Journal Ω
  validRevisions : List Revision
  nextRevisionID : ℕ
  stateObjects : Address → Option StateObject
  txConfig : TxConfig
  refund : UInt64
  logs : List Log
  accessList : AccessList
  precompileCallsCounter : UInt8

def StateDB.new {Ω : Type} (ctx : Context Ω) (txConfig : TxConfig) : StateDB Ω where
  ctx := ctx
  cacheCtx := none
  journal := { entries := [], dirties := ∅ }
  validRevisions := []
  nextRevisionID := 0
  stateObjects := fun _ => none
  txConfig := txConfig
  refund := 0
  logs := []
  accessList := newAccessList
  precompileCallsCounter := 0

namespace StateDB

variable {Ω : Type} (env : Env) (s : StateDB Ω)

def setStateObject (addr : Address) (o : StateObject) : StateDB Ω :=
  { s with stateObjects := Function.update s.stateObjects addr (some o) }

/-- `journal.append`, on the journal of the state. -/
def append (entry : JournalEntry Ω) : StateDB Ω :=
  { s with journal := s.journal.append entry }

/-- A live object, or one that is loaded and becomes live. -/
def getStateObject (addr : Address) : Option StateObject × StateDB Ω :=
  match s.stateObjects addr with
  | some o => (some o, s)
  | none =>
    match s.ctx.store.getAccount env addr with
    | none => (none, s)
    | some account => (some (newObject account), s.setStateObject addr (newObject account))

/-- The cache context, a fresh one if there is none. statedb.go:93-101, 120-126 -/
def cacheContext : CacheContext Ω :=
  s.cacheCtx.getD { store := s.ctx.store, events := [], restored := none }

def getCacheContext : StateDB Ω := { s with cacheCtx := some s.cacheContext }

/-- The contents of the cache context, at first those of the context. -/
def cacheStore : Store Ω := s.cacheContext.store

end StateDB

/-- What `Revert` does to an account; a missing one is dereferenced. -/
def StateDB.revertObject {Ω : Type} (env : Env) (s : StateDB Ω) (account : Address)
    (f : StateObject → StateObject) : Option (StateDB Ω) :=
  match s.getStateObject env account with
  | (none, _) => none
  | (some o, s) => some (s.setStateObject account (f o))

/-- journal.go:165-280 -/
def JournalEntry.revert {Ω : Type} (env : Env) (s : StateDB Ω) :
    JournalEntry Ω → Option (StateDB Ω)
  | .createObjectChange account =>
    some { s with stateObjects := Function.update s.stateObjects account none }
  | .resetObjectChange account prev => some (s.setStateObject account prev)
  | .suicideChange account prev prevbalance =>
    match s.getStateObject env account with
    | (none, s) => some s
    | (some o, s) =>
      some (s.setStateObject account { o.setBalance prevbalance with suicided := prev })
  | .balanceChange account prev => s.revertObject env account (·.setBalance prev)
  | .nonceChange account prev => s.revertObject env account (·.setNonce prev)
  | .codeChange account prevcode prevhash =>
    s.revertObject env account (·.setCode prevhash prevcode)
  | .storageChange account key prevalue =>
    s.revertObject env account (·.setState key prevalue)
  | .refundChange prev => some { s with refund := prev }
  | .addLogChange => if s.logs = [] then none else some { s with logs := s.logs.dropLast }
  | .accessListAddAccountChange address =>
    some { s with accessList := s.accessList.deleteAddress address }
  | .accessListAddSlotChange address slot =>
    (s.accessList.deleteSlot address slot).map fun al => { s with accessList := al }
  | .precompileCallChange multiStore events =>
    -- only the multi store goes back; the event manager of the cache context stays
    some { s with
      cacheCtx := some
        { store := multiStore, events := s.cacheContext.events, restored := some events } }

namespace StateDB

variable {Ω : Type} (env : Env) (s : StateDB Ω)

/-- One round of `journal.Revert`. -/
def revertEntry (entry : JournalEntry Ω) (s : StateDB Ω) : Option (StateDB Ω) :=
  (entry.revert env s).map fun s =>
    { s with journal := { s.journal with dirties := s.journal.dropDirty entry.dirtied } }

/-- `journal.Revert`: the newest entry is undone first.
journal.go:78-91 -/
def revertJournal (snapshot : ℕ) : Option (StateDB Ω) :=
  (Rollback.rollback (revertEntry env) (s.journal.entries.drop snapshot) s).map fun s =>
    { s with journal := { s.journal with entries := s.journal.entries.take snapshot } }

def snapshot : ℕ × StateDB Ω :=
  (s.nextRevisionID,
    { s with
      nextRevisionID := s.nextRevisionID + 1
      validRevisions := s.validRevisions ++ [⟨s.nextRevisionID, s.journal.entries.length⟩] })

/-- `RevertToSnapshot`. The identifiers grow, so that `sort.Search` finds the first one from `revid`
on. -/
def revertToSnapshot (revid : ℕ) : Option (StateDB Ω) :=
  let idx := s.validRevisions.findIdx fun r => revid ≤ r.id
  match s.validRevisions[idx]? with
  | none => none
  | some r =>
    if r.id = revid then
      (s.revertJournal env r.journalIndex).map fun s =>
        { s with validRevisions := s.validRevisions.take idx }
    else none

end StateDB

end TacEvm
