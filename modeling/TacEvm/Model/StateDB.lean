import TacEvm.Model.Journal

/-!
# Reads, writes and commits of the `StateDB`

Every write journals the value it replaces; reads fill caches, so they return the state too.
`commitWithCtx` writes the dirty objects in the order of their addresses; `Commit` first lets
`writeCache` bring in what the precompile calls did.

SOURCE: x/vm/statedb/statedb.go:129-557
-/

namespace TacEvm

open FallibleState

/-- x/vm/types/call.go:15 -/
def maxPrecompileCalls : UInt8 := 7

namespace StateDB

variable {Ω : Type} (env : Env) (s : StateDB Ω)

/-- The reads of one account: `dflt` without an account. -/
def readObject {β : Type} (addr : Address) (dflt : β) (f : StateObject → StateObject × β) :
    β × StateDB Ω :=
  match s.getStateObject env addr with
  | (none, s) => (dflt, s)
  | (some o, s) => ((f o).2, s.setStateObject addr (f o).1)

variable (addr : Address)

def exist : Bool × StateDB Ω :=
  s.readObject env addr false fun o => (o, true)

def empty : Bool × StateDB Ω :=
  s.readObject env addr true fun o => (o, o.empty env)

def getBalance : ℤ × StateDB Ω :=
  s.readObject env addr 0 fun o => (o, o.account.balance)

def getNonce : UInt64 × StateDB Ω :=
  s.readObject env addr 0 fun o => (o, o.account.nonce)

def getCode : Option Bytes × StateDB Ω :=
  s.readObject env addr none fun o => o.loadCode env s.ctx.store

def getCodeSize : ℕ × StateDB Ω :=
  s.readObject env addr 0 fun o =>
    ((o.loadCode env s.ctx.store).1, ((o.loadCode env s.ctx.store).2.getD []).length)

def getCodeHash : Hash × StateDB Ω :=
  s.readObject env addr 0 fun o => (o, o.account.codeHash)

def getState (key : Hash) : Hash × StateDB Ω :=
  s.readObject env addr 0 fun o => o.getState s.ctx.store addr key

def getCommittedState (key : Hash) : Hash × StateDB Ω :=
  s.readObject env addr 0 fun o => o.getCommittedState s.ctx.store addr key

def hasSuicided : Bool × StateDB Ω :=
  s.readObject env addr false fun o => (o, o.suicided)

def getRefund : UInt64 := s.refund

def addressInAccessList : Bool := s.accessList.containsAddress addr

def slotInAccessList (slot : Hash) : Bool × Bool :=
  s.accessList.contains addr slot

/-- The new object, the one it replaces, and the state. -/
def createObject : StateObject × Option StateObject × StateDB Ω :=
  let newobj := newObject (newEmptyAccount env)
  match s.getStateObject env addr with
  | (none, s) =>
    (newobj, none, (s.append (.createObjectChange addr)).setStateObject addr newobj)
  | (some prev, s) =>
    (newobj, some prev, (s.append (.resetObjectChange addr prev)).setStateObject addr newobj)

def getOrNewStateObject : StateObject × StateDB Ω :=
  match s.getStateObject env addr with
  | (some o, s) => (o, s)
  | (none, s) =>
    match s.createObject env addr with
    | (newobj, _, s) => (newobj, s)

/-- The balance of a replaced account is carried over. -/
def createAccount : StateDB Ω :=
  match s.createObject env addr with
  | (_, none, s) => s
  | (newobj, some prev, s) => s.setStateObject addr (newobj.setBalance prev.account.balance)

variable (o : StateObject)

/-- `stateObject.SetBalance`, which journals. -/
def setObjectBalance (amount : ℤ) : StateDB Ω :=
  (s.append (.balanceChange addr o.account.balance)).setStateObject addr (o.setBalance amount)

/-- An amount of zero writes nothing, but makes the account. -/
def addBalance (amount : ℤ) : StateDB Ω :=
  match s.getOrNewStateObject env addr with
  | (o, s) =>
    if env.adjustExtraDecimals amount = 0 then s
    else s.setObjectBalance addr o (o.account.balance + env.adjustExtraDecimals amount)

def subBalance (amount : ℤ) : StateDB Ω :=
  match s.getOrNewStateObject env addr with
  | (o, s) =>
    if env.adjustExtraDecimals amount = 0 then s
    else s.setObjectBalance addr o (o.account.balance - env.adjustExtraDecimals amount)

def setNonce (nonce : UInt64) : StateDB Ω :=
  match s.getOrNewStateObject env addr with
  | (o, s) =>
    (s.append (.nonceChange addr o.account.nonce)).setStateObject addr (o.setNonce nonce)

/-- `SetCode`; `none` is the nil slice. -/
def setCode (code : Option Bytes) : StateDB Ω :=
  match s.getOrNewStateObject env addr with
  | (o, s) =>
    match o.loadCode env s.ctx.store with
    | (o, prevcode) =>
      (s.append (.codeChange addr prevcode o.account.codeHash)).setStateObject addr
        (o.setCode (env.keccak256 (code.getD [])) code)

/-- Writing the value that is there is not a change. -/
def setState (key value : Hash) : StateDB Ω :=
  match s.getOrNewStateObject env addr with
  | (o, s) =>
    match o.getState s.ctx.store addr key with
    | (o, prev) =>
      if prev = value then s.setStateObject addr o
      else (s.append (.storageChange addr key prev)).setStateObject addr (o.setState key value)

def suicide : Bool × StateDB Ω :=
  match s.getStateObject env addr with
  | (none, s) => (false, s)
  | (some o, s) =>
    (true, (s.append (.suicideChange addr o.suicided o.account.balance)).setStateObject addr
      o.markSuicided)

/-- The log is stamped with the transaction and its index. -/
def addLog (address : Address) (topics : List Hash) (data : Bytes) : StateDB Ω :=
  let log : Log :=
    { address := address, topics := topics, data := data
      txHash := s.txConfig.txHash, blockHash := s.txConfig.blockHash
      txIndex := s.txConfig.txIndex, index := s.txConfig.logIndex + s.logs.length }
  { s.append .addLogChange with logs := s.logs ++ [log] }

def addRefund (gas : UInt64) : StateDB Ω :=
  { s.append (.refundChange s.refund) with refund := s.refund + gas }

/-- A panic if the counter would go below zero. -/
def subRefund (gas : UInt64) : Option (StateDB Ω) :=
  if s.refund < gas then none
  else some { s.append (.refundChange s.refund) with refund := s.refund - gas }

def addAddressToAccessList : StateDB Ω :=
  match s.accessList.addAddress addr with
  | (al, changed) =>
    let s := { s with accessList := al }
    if changed then s.append (.accessListAddAccountChange addr) else s

def addSlotToAccessList (slot : Hash) : Option (StateDB Ω) :=
  (s.accessList.addSlot addr slot).map fun (al, addrMod, slotMod) =>
    let s := { s with accessList := al }
    let s := if addrMod then s.append (.accessListAddAccountChange addr) else s
    if slotMod then s.append (.accessListAddSlotChange addr slot) else s

/-- Entry and 8-bit counter come before the bound is checked, so a refused call has done both. -/
def addPrecompileFn (cms : Store Ω) (events : List Event) :
    Option Err × StateDB Ω :=
  match s.getOrNewStateObject env addr with
  | (_, s) =>
    let s := s.append (.precompileCallChange cms events)
    let s := { s with precompileCallsCounter := s.precompileCallsCounter + 1 }
    if maxPrecompileCalls < s.precompileCallsCounter then
      (some (.errorf "max calls to precompiles (%d) reached"
        [.num maxPrecompileCalls.toNat]), s)
    else (none, s)

/-- One dirty slot. The source deletes a slot whose value has no bytes. -/
def commitSlot (key : Hash) : KeeperM Ω Unit :=
  let valueBytes := hashBytes ((o.dirtyStorage.lookup key).getD 0)
  modify fun st =>
    if valueBytes.length = 0 then
      { st with
        storage := Function.update st.storage addr (Function.update (st.storage addr) key none) }
    else st.setState addr key valueBytes

/-- The code of an object, if it was written. -/
def commitCode : KeeperM Ω Unit :=
  match o.code, o.dirtyCode with
  | some code, true =>
    modify fun st =>
      st.setCode o.account.codeHash (if code.length = 0 then none else some code)
  | _, _ => pure ()

/-- One dirty object.
statedb.go:529-554 -/
def commitObject : KeeperM Ω Unit :=
  if o.suicided then
    mapError (.wrapf "failed to delete account %s" [.addr addr]) (Keeper.deleteAccount env addr)
  else do
    commitCode o
    mapError (.wrapf "failed to set account" []) (Keeper.setAccount env addr o.account)
    o.dirtyStorage.sortedKeys.forM (commitSlot addr o)

/-- Only the balance of an object is written through the bank. -/
def commitObjectEvents : Store Ω → List Event :=
  if o.suicided then Keeper.deleteAccountEvents env addr
  else Keeper.setBalanceEvents env addr o.account.balance

def commitWithCtx : KeeperM Ω Unit :=
  s.journal.sortedDirties.forM fun addr =>
    match s.stateObjects addr with
    | none => throw .nilDereference
    | some o => commitObject env addr o

/-- The events of objects that are written one after the other. -/
def commitEvents (objects : Address → Option StateObject) :
    List Address → Store Ω → List Event
  | [], _ => []
  | addr :: addrs, st =>
    match objects addr with
    | none => []
    | some o =>
      commitObjectEvents env addr o st ++
        match (commitObject env addr o).run st with
        | .ok _ st => commitEvents objects addrs st
        | .error _ _ => []

/-- What `commitWithCtx` emits through the bank. -/
def commitWithCtxEvents : Store Ω → List Event :=
  commitEvents env s.stateObjects s.journal.sortedDirties

def commitWithCacheCtx : Option Err × StateDB Ω :=
  let events := s.cacheContext.events ++ s.commitWithCtxEvents env s.cacheStore
  match (s.commitWithCtx env).run s.cacheStore with
  | .ok _ st =>
    (none, { s with cacheCtx := some { s.cacheContext with store := st, events := events } })
  | .error e st =>
    (some e, { s with cacheCtx := some { s.cacheContext with store := st, events := events } })

/-- The context once `writeCache` has run. -/
def writeCache : Context Ω :=
  match s.cacheCtx with
  | none => s.ctx
  | some c => { store := c.store, events := s.ctx.events ++ c.restored.getD c.events }

/-- The context it leaves, and its error. -/
def commit : Option Err × Context Ω :=
  let events := s.writeCache.events ++ s.commitWithCtxEvents env s.writeCache.store
  match (s.commitWithCtx env).run s.writeCache.store with
  | .ok _ st => (none, { store := st, events := events })
  | .error e st => (some e, { store := st, events := events })

end StateDB

end TacEvm
