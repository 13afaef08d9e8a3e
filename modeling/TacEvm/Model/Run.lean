import TacEvm.Model.Precompile

/-!
# Runs

A transaction is a sequence of actions of the EVM on one `StateDB`. A run names a snapshot by its
place in the stack of those that are still valid, so that the same run makes sense in two states.

SOURCE: x/vm/statedb/statedb.go; a call is what the EVM does around `Run`
-/

namespace TacEvm

/-- The reads of the `StateDB`. -/
inductive Read
  | exist (addr : Address)
  | empty (addr : Address)
  | balance (addr : Address)
  | nonce (addr : Address)
  | code (addr : Address)
  | codeSize (addr : Address)
  | codeHash (addr : Address)
  | state (addr : Address) (key : Hash)
  | committedState (addr : Address) (key : Hash)
  | hasSuicided (addr : Address)

/-- The writes of the `StateDB`. -/
inductive Write
  | createAccount (addr : Address)
  | addBalance (addr : Address) (amount : ℤ)
  | subBalance (addr : Address) (amount : ℤ)
  | setNonce (addr : Address) (nonce : UInt64)
  | setCode (addr : Address) (code : Option Bytes)
  | setState (addr : Address) (key value : Hash)
  | suicide (addr : Address)
  | addLog (address : Address) (topics : List Hash) (data : Bytes)
  | addRefund (gas : UInt64)
  | subRefund (gas : UInt64)
  | addAddressToAccessList (addr : Address)
  | addSlotToAccessList (addr : Address) (slot : Hash)

section

variable {Ω : Type} (env : Env)

/-- The state after a read. -/
def Read.step (s : StateDB Ω) : Read → StateDB Ω
  | .exist addr => (s.exist env addr).2
  | .empty addr => (s.empty env addr).2
  | .balance addr => (s.getBalance env addr).2
  | .nonce addr => (s.getNonce env addr).2
  | .code addr => (s.getCode env addr).2
  | .codeSize addr => (s.getCodeSize env addr).2
  | .codeHash addr => (s.getCodeHash env addr).2
  | .state addr key => (s.getState env addr key).2
  | .committedState addr key => (s.getCommittedState env addr key).2
  | .hasSuicided addr => (s.hasSuicided env addr).2

/-- The state after a write; `none` is a panic. -/
def Write.step (s : StateDB Ω) : Write → Option (StateDB Ω)
  | .createAccount addr => some (s.createAccount env addr)
  | .addBalance addr amount => some (s.addBalance env addr amount)
  | .subBalance addr amount => some (s.subBalance env addr amount)
  | .setNonce addr nonce => some (s.setNonce env addr nonce)
  | .setCode addr code => some (s.setCode env addr code)
  | .setState addr key value => some (s.setState env addr key value)
  | .suicide addr => some (s.suicide env addr).2
  | .addLog address topics data => some (s.addLog address topics data)
  | .addRefund gas => some (s.addRefund gas)
  | .subRefund gas => s.subRefund gas
  | .addAddressToAccessList addr => some (s.addAddressToAccessList addr)
  | .addSlotToAccessList addr slot => s.addSlotToAccessList addr slot

end

/-- What the EVM does to a `StateDB` outside of precompiles. -/
inductive Op
  | read (r : Read)
  | write (w : Write)
  | snapshot
  /-- `RevertToSnapshot` to the valid revision at this place of the stack. -/
  | revertToSnapshot (place : ℕ)

/-- The state after an operation; `none` is a panic. -/
def Op.step {Ω : Type} (env : Env) (s : StateDB Ω) : Op → Option (StateDB Ω)
  | .read r => some (r.step env s)
  | .write w => w.step env s
  | .snapshot => some s.snapshot.2
  | .revertToSnapshot place =>
    (s.validRevisions[place]?).bind fun r => s.revertToSnapshot env r.id

/-- The call opcodes. -/
inductive CallKind
  | call
  | callCode
  | delegateCall
  | staticCall
  deriving DecidableEq, Repr

/-- A call of a precompile. -/
structure PrecompileCall (Ω : Type) where
  kind : CallKind
  precompile : Precompile Ω
  frame : Frame

namespace StateDB

variable {Ω : Type} (env : Env) (s : StateDB Ω)

def transfer (sender recipient : Address) (amount : ℤ) : StateDB Ω :=
  (s.subBalance env sender amount).addBalance env recipient amount

/-- A call that moves a value; the recipient is made. -/
def sendValue (sender recipient : Address) (amount : ℤ) : StateDB Ω :=
  let s := match s.exist env recipient with
    | (true, s) => s
    | (false, s) => s.createAccount env recipient
  s.transfer env sender recipient amount

/-- A call that sends a value to an account without code; `none` if it is not there. -/
def payValue (sender recipient : Address) (amount : ℤ) : Option (StateDB Ω) :=
  match s.getBalance env sender with
  | (balance, s) =>
    if amount ≤ balance then some (s.snapshot.2.sendValue env sender recipient amount) else none

/-- `CALL` makes the account and moves the value, `STATICCALL` touches it. -/
def enterCall (call : PrecompileCall Ω) : StateDB Ω :=
  let addr := call.precompile.address
  match call.kind with
  | .call =>
    let s := match s.exist env addr with
      | (true, s) => s
      | (false, s) => s.createAccount env addr
    s.transfer env call.frame.caller addr call.frame.value
  | .staticCall => s.addBalance env addr 0
  | .callCode => s
  | .delegateCall => s

/-- The EVM checks it before it takes the snapshot. -/
def canTransfer (call : PrecompileCall Ω) : Bool × StateDB Ω :=
  match call.kind with
  | .call | .callCode =>
    if call.frame.value = 0 then (true, s)
    else match s.getBalance env call.frame.caller with
      | (balance, s) => (decide (call.frame.value ≤ balance), s)
  | .delegateCall | .staticCall => (true, s)

/-- The EVM's call of a precompile; on an error of `Run` the frame is reverted. -/
def callPrecompile (call : PrecompileCall Ω) : Option (Option Err × StateDB Ω) :=
  match s.canTransfer env call with
  | (false, s) => some (some (.new "insufficient balance for transfer"), s)
  | (true, s) =>
    let (id, s) := s.snapshot
    match (s.enterCall env call).runPrecompile env call.precompile call.frame with
    | (none, s) => some (none, s)
    | (some e, s) => (s.revertToSnapshot env id).map fun s => (some e, s)

end StateDB

/-- One step of a transaction. -/
inductive Action (Ω : Type)
  | op (o : Op)
  | call (c : PrecompileCall Ω)

/-- The state after an action; errors of calls are ignored. -/
def Action.step {Ω : Type} (env : Env) (s : StateDB Ω) : Action Ω → Option (StateDB Ω)
  | .op o => o.step env s
  | .call c => (s.callPrecompile env c).map (·.2)

/-- The state after a run; `none` if one of its actions panics. -/
def StateDB.run {Ω : Type} (env : Env) : StateDB Ω → List (Action Ω) → Option (StateDB Ω)
  | s, [] => some s
  | s, a :: as => (a.step env s).bind fun s => StateDB.run env s as

/-- The state after a precompile-free run. -/
def StateDB.runOps {Ω : Type} (env : Env) (s : StateDB Ω) (ops : List Op) :
    Option (StateDB Ω) :=
  s.run env (ops.map Action.op)

end TacEvm
