import TacEvm.Model.StateDB

/-!
# Running a stateful precompile

`Run` copies the cache context, flushes the dirty state into it, lets the handler of the method
write there, charges the gas, and at last journals the balance changes together with the copy. A
handler is any function, so what is proved here holds of all precompiles. A panic other than out of
gas aborts the transaction and is not modelled.

SOURCE: precompiles (common/precompile.go:74-256, staking/staking.go:87-153, erc20/erc20.go:131-163,
werc20/werc20.go:109-146)
-/

namespace TacEvm

/-- The origin and what `vm.Contract` holds. `initialGas` was consumed before. -/
structure Frame where
  origin : Address
  caller : Address
  value : ℤ
  input : Bytes
  gas : ℕ
  initialGas : ℕ
  readOnly : Bool
  deriving DecidableEq

def errExecutionReverted : Err := .new "execution reverted"

def errWriteProtection : Err := .new "write protection"

def errOutOfGas : Err := .new "out of gas"

/-- `abi.FunctionType`, as far as `RunSetup` tells them apart. -/
inductive MethodType
  | function
  | fallback
  | receive
  deriving DecidableEq, Repr

structure Method where
  name : String
  type : MethodType
  deriving DecidableEq, Repr

/-- The direction of a balance change. -/
inductive Operation
  | sub
  | add
  deriving DecidableEq, Repr

/-- `balanceChangeEntry`; the amount is in 18 decimals. -/
structure BalanceChangeEntry where
  account : Address
  amount : ℤ
  op : Operation
  deriving DecidableEq, Repr

/-- What a method sets with `SetBalanceChangeEntries`. -/
abbrev BalanceChanges := List BalanceChangeEntry

/-- A log: address, topics and data. -/
abbrev EmittedLog := Address × List Hash × Bytes

/-- What a handler leaves behind, also when it fails. -/
structure HandlerOutput (Ω : Type) where
  store : Store Ω
  events : List Event
  /-- The logs added to the `StateDB`. -/
  logs : List EmittedLog
  /-- The gas consumed on the meter of the call, `initialGas` apart. -/
  cost : ℕ
  /-- The entries set by `SetBalanceChangeEntries`, or the error. -/
  result : Except Err BalanceChanges

/-- The body of a precompile method, its arguments decoded. -/
abbrev Handler (Ω : Type) := Frame → Store Ω → HandlerOutput Ω

/-- A stateful precompile. -/
structure Precompile (Ω : Type) where
  address : Address
  /-- A check made before anything else, if the precompile has one. -/
  guard : Frame → Option Err
  /-- `abi.MethodById`. -/
  methodById : Bytes → Except Err Method
  receive : Option Method
  fallback : Option Method
  isTransaction : Method → Bool
  /-- `method.Inputs.Unpack` and the branch of the method switch. -/
  unpack : Method → Bytes → Except Err (Handler Ω)

namespace Precompile

variable {Ω : Type} (env : Env) (p : Precompile Ω) (c : Frame)

def emptyCallData : Except Err Method :=
  match (if 0 < c.value then p.receive else none), p.fallback with
  | some m, _ => .ok m
  | none, some m => .ok m
  | none, none => .error errExecutionReverted

def methodIDCallData : Except Err Method :=
  match p.fallback with
  | some m => .ok m
  | none => .error errExecutionReverted

def standardCallData : Except Err Method :=
  match p.methodById (c.input.take 4), p.fallback with
  | .ok m, _ => .ok m
  | .error _, some m => .ok m
  | .error e, none => .error e

/-- The three calldata cases of `RunSetup`. -/
def selectMethod : Except Err Method :=
  if c.input.length = 0 then p.emptyCallData c
  else if c.input.length < 4 then p.methodIDCallData
  else p.standardCallData c

/-- What `RunSetup` checks after the flush.
precompile.go:110-152 -/
def prepare : Except Err (Handler Ω) := do
  let method ← p.selectMethod c
  if c.readOnly && p.isTransaction method then throw errWriteProtection
  let handler ← p.unpack method (if method.type = .function then c.input.drop 4 else [])
  if c.gas < c.initialGas then throw errOutOfGas
  return handler

end Precompile

namespace StateDB

variable {Ω : Type} (env : Env) (s : StateDB Ω)

/-- One balance change of `AddJournalEntries`. -/
def applyBalanceChange (entry : BalanceChangeEntry) : StateDB Ω :=
  match entry.op with
  | .sub => s.subBalance env entry.account entry.amount
  | .add => s.addBalance env entry.account entry.amount

def addJournalEntries (addr : Address) (entries : BalanceChanges) (cms : Store Ω)
    (events : List Event) : Option Err × StateDB Ω :=
  (entries.foldl (applyBalanceChange env) s).addPrecompileFn env addr cms events

/-- Store and events go into the cache context, logs into the `StateDB`. -/
def applyHandlerOutput (out : HandlerOutput Ω) : StateDB Ω :=
  out.logs.foldl (fun s log => s.addLog log.1 log.2.1 log.2.2)
    { s with
      cacheCtx := some
        { s.cacheContext with store := out.store, events := s.cacheContext.events ++ out.events } }

/-- What `RunSetup` leaves in the cache context. precompile.go:86-100 -/
def flush : Option Err × StateDB Ω := s.getCacheContext.commitWithCacheCtx env

/-- `Run` from the method lookup to the gas charge. -/
def runMethod (p : Precompile Ω) (c : Frame) :
    Except Err BalanceChanges × StateDB Ω :=
  match p.prepare c with
  | .error e => (.error e, s)
  | .ok handler =>
    let out := handler c s.cacheStore
    let s := s.applyHandlerOutput out
    match out.result with
    | .error e => (.error e, s)
    | .ok entries => if c.gas < out.cost then (.error errOutOfGas, s) else (.ok entries, s)

/-- `Run` up to `AddJournalEntries`. -/
def runBody (p : Precompile Ω) (c : Frame) :
    Except Err BalanceChanges × StateDB Ω :=
  match p.guard c with
  | some e => (.error e, s)
  | none =>
    match s.flush env with
    | (some e, s) => (.error e, s)
    | (none, s) => s.runMethod p c

/-- `Run`: its error and state. The copy that is journaled is the cache context of before the
flush. -/
def runPrecompile (p : Precompile Ω) (c : Frame) : Option Err × StateDB Ω :=
  match s.runBody env p c with
  | (.error e, s') => (some e, s')
  | (.ok entries, s') =>
    s'.addJournalEntries env p.address entries s.cacheContext.store s.cacheContext.events

end StateDB

end TacEvm
