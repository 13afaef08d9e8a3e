import TacEvm.Model.Ante
import TacEvm.Model.Run

/-!
# Applying a transaction

`ApplyTransaction` runs a message on a new `StateDB`, commits it to a branch, merges the branch
unless the EVM failed, and refunds the gas that is left. The interpreter is left open: `Evm` gives
what it does to the `StateDB`, which is a run.

SOURCE: x/vm/keeper (state_transition.go, gas.go, config.go)
-/

namespace TacEvm

open FallibleState

/-- What one run of the interpreter does and returns. -/
structure Outcome (Ω : Type) where
  actions : List (Action Ω)
  leftoverGas : UInt64
  vmErr : Option String
  ret : Bytes

/-- What `Create` and `Call` do with a message and an amount of gas. -/
structure Evm (Ω : Type) where
  create : Message → UInt64 → StateDB Ω → Outcome Ω
  call : Message → UInt64 → StateDB Ω → Outcome Ω

/-- Logs are written as texts and read back; they are kept here as they are. -/
structure MsgEthereumTxResponse where
  gasUsed : UInt64
  vmError : String
  ret : Bytes
  logs : List Log
  hash : Hash

def MsgEthereumTxResponse.failed (res : MsgEthereumTxResponse) : Bool := res.vmError ≠ ""

/-- Three bits, which the first six bytes of the hash choose. -/
def bloomValues (env : Env) (data : Bytes) : ℕ :=
  let hash := (env.keccak256 data).toNat
  2 ^ (hash / 2 ^ 240 % 2048) ||| 2 ^ (hash / 2 ^ 224 % 2048) ||| 2 ^ (hash / 2 ^ 208 % 2048)

/-- The bloom of one log. -/
def Log.bloom (env : Env) (log : Log) : ℕ :=
  log.topics.foldl (fun bin topic => bin ||| bloomValues env (hashBytes topic))
    (bloomValues env (beBytes 20 log.address.toNat))

/-- `LogsBloom`, as the number its bytes spell. -/
def logsBloom (env : Env) (logs : List Log) : ℕ :=
  logs.foldl (fun bin log =>
    log.topics.foldl (fun bin topic => bin ||| bloomValues env (hashBytes topic))
      (bin ||| bloomValues env (beBytes 20 log.address.toNat))) 0

section

variable (chain : Chain) {Ω : Type} (evm : Evm Ω)

def errIntrinsicGas : Err := .new "intrinsic gas too low"
def errGasOverflow : Err := .new "gas computation overflow/underflow"
def errInvalidRefund : Err := .new "invalid gas refund amount"

/-- `int64` of a `uint64`. -/
def toInt64 (n : UInt64) : ℤ := (n.toNat : ℤ).bmod (2 ^ 64)

/-- gas.go:68-75 -/
def gasToRefund (availableRefund gasConsumed refundQuotient : UInt64) : UInt64 :=
  let refund := gasConsumed / refundQuotient
  if availableRefund < refund then availableRefund else refund

/-- The quotient of `GasToRefund`, which EIP-3529 changes. -/
def refundQuotient : UInt64 := if chain.rules.isLondon then 5 else 2

/-- gas.go:32-55 -/
def refundGas (msg : Message) (leftoverGas : UInt64) : KeeperM Ω Unit :=
  let remaining := leftoverGas.toNat * msg.gasPrice
  if remaining < 0 then
    throw (errInvalidRefund.wrapf "refunded amount value cannot be negative %d"
      [.num (remaining.bmod (2 ^ 64))])
  else if 0 < remaining then
    let refundedCoins : Coins := [{ denom := chain.env.evmDenom, amount := remaining }]
    mapError (fun e =>
        (errInsufficientFunds.quote "fee collector account failed to refund fees: " e).wrapf
          "failed to refund %d leftover gas (%s)" [.num leftoverGas.toNat, .str refundedCoins.text])
      (sendConverted chain.env
        (Bank.sendCoinsFromModuleToAccount chain.env chain.feeCollector msg.sender) refundedCoins)
  else pure ()

/-- `PrepareAccessList`, without precompiles.
x/vm/statedb/statedb.go:431-446 -/
def prepareAccessList (sender : Address) (dst : Option Address) (list : EthAccessList) :
    List (Action Ω) :=
  let writes : List Write :=
    .addAddressToAccessList sender :: dst.toList.map .addAddressToAccessList ++
      list.flatMap fun el =>
        .addAddressToAccessList el.1 :: el.2.map (.addSlotToAccessList el.1)
  writes.map fun w => .op (.write w)

/-- A panic of the EVM. -/
def orPanic {α : Type} {σ : Type} (x : Option α) : EStateM Err σ α :=
  match x with
  | some a => pure a
  | none => throw (.panic "runtime error")

/-- What is run between setup and refund. The nonce of a creation is managed here.
state_transition.go:308-326 -/
def execute (msg : Message) (leftoverGas : UInt64) (s : StateDB Ω) :
    Option (StateDB Ω × Outcome Ω) := do
  let s ←
    if chain.rules.isBerlin then
      s.run chain.env (prepareAccessList msg.sender msg.recipient msg.accessList)
    else some s
  if msg.recipient = none then
    let s := s.setNonce chain.env msg.sender msg.nonce
    let outcome := evm.create msg leftoverGas s
    let s ← s.run chain.env outcome.actions
    return (s.setNonce chain.env msg.sender (msg.nonce + 1), outcome)
  else
    let outcome := evm.call msg leftoverGas s
    let s ← s.run chain.env outcome.actions
    return (s, outcome)

/-- `StateDB.Commit`, on the context of a message. -/
def commitStateDB (s : StateDB Ω) : EStateM Err (Context Ω) Unit := fun _ =>
  match s.commit chain.env with
  | (none, ctx) => .ok () ctx
  | (some e, ctx) => .error e ctx

/-- The gas charged: at least the share of `MinGasMultiplier`.
state_transition.go:363-375 -/
def chargedGas (gas leftoverGas temporaryGasUsed : UInt64) : Except Err UInt64 :=
  let gasLimit := LegacyDec.newDec (toInt64 gas)
  let minimumGasUsed := gasLimit.mul chain.feeMarketParams.minGasMultiplier
  if ¬ (0 ≤ minimumGasUsed.truncateInt ∧ minimumGasUsed.truncateInt < 2 ^ 64) then
    .error (errGasOverflow.wrapf "minimumGasUsed(%s) is not a uint64"
      [.num minimumGasUsed.truncateInt])
  else if gas < leftoverGas then
    .error (errGasOverflow.wrapf "message gas limit < leftover gas (%d < %d)"
      [.num gas.toNat, .num leftoverGas.toNat])
  else
    .ok (UInt64.ofNat
      (LegacyDec.max minimumGasUsed (.newDec (toInt64 temporaryGasUsed))).truncateInt.toNat)

/-- state_transition.go:264-386 -/
def applyMessageWithConfig (msg : Message) (commit : Bool) (txConfig : TxConfig) :
    EStateM Err (Context Ω) MsgEthereumTxResponse := do
  let ctx ← get
  let intrinsicGas ← mapError (.wrapf "intrinsic gas failed" [])
    (fromExcept (chain.intrinsicGas msg.data msg.accessList (decide (msg.recipient = none))))
  require (intrinsicGas ≤ msg.gas) (errIntrinsicGas.wrapf "apply message" [])
  let (s, outcome) ← orPanic
    (execute chain evm msg (msg.gas - intrinsicGas) (StateDB.new ctx txConfig))
  require (outcome.leftoverGas ≤ msg.gas) (errGasOverflow.wrapf "apply message" [])
  let temporaryGasUsed := msg.gas - outcome.leftoverGas
  let refund := gasToRefund s.getRefund temporaryGasUsed (refundQuotient chain)
  let leftoverGas := outcome.leftoverGas + refund
  let temporaryGasUsed := temporaryGasUsed - refund
  if commit then mapError (.wrapf "failed to commit stateDB" []) (commitStateDB chain s)
  let gasUsed ← fromExcept (chargedGas chain msg.gas leftoverGas temporaryGasUsed)
  return {
    gasUsed := gasUsed
    vmError := outcome.vmErr.getD ""
    ret := outcome.ret
    logs := s.logs
    hash := txConfig.txHash }

/-- `TxConfig`.
config.go:37-44 -/
def loadTxConfig (s : ChainState Ω) (txHash : Hash) : TxConfig where
  blockHash := chain.headerHash
  txHash := txHash
  txIndex := s.transient.txIndex
  logIndex := s.transient.logSize

/-- A run on a branch, with events of its own. -/
def ChainM.onBranch {α : Type} (x : EStateM Err (Context Ω) α) : ChainM Ω (α × Context Ω) :=
  fun s =>
    match x.run { store := s.ctx.store, events := [] } with
    | .ok a tmpCtx => .ok (a, tmpCtx) s
    | .error e _ =>
      -- the gas of the whole transaction is consumed
      .error e { s with gasMeter := { s.gasMeter with consumed := s.gasMeter.limit } }

/-- The transient counters after a transaction with these logs.
state_transition.go:178-182, 195-201 -/
def Transient.countTransaction (t : Transient) (env : Env) (logs : List Log) : Transient :=
  { t with
    bloom := if logs = [] then t.bloom else t.bloom ||| logsBloom env logs
    logSize := if logs = [] then t.logSize else t.logSize + logs.length
    txIndex := t.txIndex + 1 }

/-- state_transition.go:146-211 -/
def applyTransaction (txData : TxData) : ChainM Ω MsgEthereumTxResponse := do
  let _ ← fromExcept (chain.coinbase.mapError fun e =>
    (e.wrapf "failed to obtain coinbase address" []).wrapf "failed to load evm config" [])
  let s ← get
  let sender ← mapError (.wrapf "failed to return ethereum transaction as core message" [])
    (fromExcept (chain.sender txData))
  let msg := txData.asMessage sender chain.getBaseFee
  let (res, tmpCtx) ← mapError (.wrapf "failed to apply ethereum core message" [])
    (ChainM.onBranch (applyMessageWithConfig chain evm msg true
      (loadTxConfig chain s (chain.txHash txData))))
  -- a branch on which the EVM failed is dropped
  if ¬ res.failed then
    modify fun s => { s with
      ctx := { store := tmpCtx.store, events := s.ctx.events ++ tmpCtx.events } }
  mapError (.wrapf "failed to refund gas leftover gas to sender %s" [.addr sender])
    (ChainM.onStore (refundGas chain msg (msg.gas - res.gasUsed)))
  ChainM.modifyTransient fun t => t.countTransaction chain.env res.logs
  let totalGasUsed ← mapError (.wrapf "failed to add transient gas used" [])
    (addTransientGasUsed res.gasUsed)
  resetGasMeterAndConsumeGas totalGasUsed
  return res

end

end TacEvm
