import TacEvm.Library.Loop
import TacEvm.Model.StateTransition

/-!
# Estimating gas

`EstimateGasInternal` looks for the least gas a call succeeds with. `BinSearch` is a loop on numbers
of 64 bits and need not end: it is followed for a number of rounds. The gas meter of the context is
not modelled.

SOURCE: x/vm/keeper/grpc_query.go:258-438, x/vm/types (utils.go:110-128, tx_args.go)
-/

namespace TacEvm

open FallibleState

def Err.is : Err → Err → Bool
  | .wrapped cause format args, target => .wrapped cause format args = target || cause.is target
  | e, target => e = target

inductive CallType
  | internal
  | rpc

/-- The decoded arguments: the numbers are not negative. -/
structure TransactionArgs where
  sender : Option Address
  recipient : Option Address
  gas : Option UInt64
  gasPrice : Option ℕ
  maxFeePerGas : Option ℕ
  maxPriorityFeePerGas : Option ℕ
  value : Option ℕ
  nonce : Option UInt64
  data : Option Bytes
  input : Option Bytes
  accessList : Option EthAccessList

/-- `types.EthCallRequest`, with its arguments decoded. -/
structure EthCallRequest where
  args : Except Err TransactionArgs
  gasCap : UInt64

structure EstimateGasResponse where
  gas : UInt64
  ret : Bytes
  vmError : String

/-- `status.Error` with the text of an error. -/
def statusError (code : String) : Err → Err
  | .panic text => .panic text
  | e => .errorf ("rpc error: code = " ++ code ++ " desc = " ++ e.format) e.args

namespace TransactionArgs

variable (args : TransactionArgs)

def getFrom : Address := args.sender.getD 0

/-- `input` is preferred. -/
def getData : Bytes := (args.input.or args.data).getD []

/-- The gas of `ToMessage`. -/
def messageGas (globalGasCap : UInt64) : UInt64 :=
  let gas := args.gas.getD (if globalGasCap = 0 then 9223372036854775807 else globalGasCap)
  if globalGasCap ≠ 0 ∧ globalGasCap < gas then globalGasCap else gas

/-- The price, the fee cap and the tip cap of `ToMessage`. -/
def messagePrices (baseFee : Option ℤ) : ℤ × ℤ × ℤ :=
  match baseFee, args.gasPrice with
  | none, gasPrice =>
    let gasPrice : ℤ := gasPrice.getD 0
    (gasPrice, gasPrice, gasPrice)
  | some _, some gasPrice => (gasPrice, gasPrice, gasPrice)
  | some baseFee, none =>
    let gasFeeCap : ℤ := args.maxFeePerGas.getD 0
    let gasTipCap : ℤ := args.maxPriorityFeePerGas.getD 0
    -- the legacy price is filled in unless all are zero
    if gasFeeCap ≠ 0 ∨ gasTipCap ≠ 0 then
      (min (gasTipCap + baseFee) gasFeeCap, gasFeeCap, gasTipCap)
    else (0, gasFeeCap, gasTipCap)

/-- tx_args.go:155-229 -/
def toMessage (globalGasCap : UInt64) (baseFee : Option ℤ) : Except Err Message :=
  if args.gasPrice.isSome ∧ (args.maxFeePerGas.isSome ∨ args.maxPriorityFeePerGas.isSome) then
    .error (.new "both gasPrice and (maxFeePerGas or maxPriorityFeePerGas) specified")
  else
    let prices := args.messagePrices baseFee
    .ok {
      sender := args.getFrom
      recipient := args.recipient
      nonce := args.nonce.getD 0
      value := args.value.getD 0
      gas := args.messageGas globalGasCap
      gasPrice := prices.1
      gasFeeCap := prices.2.1
      gasTipCap := prices.2.2
      data := args.getData
      accessList := args.accessList.getD [] }

end TransactionArgs

def txGas : UInt64 := 21000

/-- The bounds of the search. -/
structure Bounds where
  lo : UInt64
  hi : UInt64
  deriving DecidableEq

namespace Bounds

/-- The amount that is tried next: the sum is one of 64 bits. -/
def mid (b : Bounds) : UInt64 := (b.hi + b.lo) / 2

/-- The condition of the loop. -/
def Open (b : Bounds) : Prop := b.lo + 1 < b.hi

instance (b : Bounds) : Decidable b.Open := inferInstanceAs (Decidable (b.lo + 1 < b.hi))

end Bounds

/-- A call at an amount of gas: whether it failed, and its response. -/
abbrev Executable := UInt64 → Except Err (Bool × Option MsgEthereumTxResponse)

/-- One round of `BinSearch`. -/
def searchStep (executable : Executable) (b : Bounds) : Bounds ⊕ Except Err UInt64 :=
  if b.Open then
    match executable b.mid with
    | .error e => .inr (.error e)
    | .ok (failed, _) => .inl (if failed then ⟨b.mid, b.hi⟩ else ⟨b.lo, b.mid⟩)
  else .inr (.ok b.hi)

/-- `BinSearch`, for a number of rounds.
utils.go:110-128 -/
def binSearch (executable : Executable) (fuel : ℕ) (lo hi : UInt64) :
    Option (Except Err UInt64) :=
  Loop.run (searchStep executable) fuel ⟨lo, hi⟩

section

variable (chain : Chain) {Ω : Type} (evm : Evm Ω)

def errInsufficientFundsForTransfer : Err := .new "insufficient funds for transfer"
def errInsufficientFundsForGas : Err := .new "insufficient funds for gas * price + value"

/-- The gas that a request asks for, or that of a block.
grpc_query.go:293-304 -/
def requestedGas (req : EthCallRequest) (args : TransactionArgs) : UInt64 :=
  let blockGas :=
    match chain.maxGas with
    | none => req.gasCap
    | some maxGas => if 0 < maxGas then UInt64.ofNat maxGas.toNat else req.gasCap
  match args.gas with
  | none => blockGas
  | some gas => if txGas ≤ gas then gas else blockGas

/-- The highest amount of gas that is allowed.
grpc_query.go:306-311 -/
def highestGas (req : EthCallRequest) (args : TransactionArgs) : UInt64 :=
  if req.gasCap ≠ 0 ∧ req.gasCap < requestedGas chain req args then req.gasCap
  else requestedGas chain req args

/-- What is left of a balance for gas. -/
def availableFunds (balance : ℤ) : Option ℕ → Except Err ℤ
  | none => .ok balance
  | some value =>
    if balance ≤ value then .error errInsufficientFundsForTransfer else .ok (balance - value)

/-- The highest amount of gas that the sender can pay for.
grpc_query.go:329-355 -/
def capByFunds (st : Store Ω) (args : TransactionArgs) (gasFeeCap : ℤ) (hi : UInt64) :
    Except Err UInt64 :=
  if gasFeeCap = 0 then .ok hi
  else
    match args.sender with
    | none => .error .nilDereference
    | some sender => do
      let available ← availableFunds (st.getBalance chain.env sender) args.value
      let allowance := available.tdiv gasFeeCap
      -- an allowance of more than 64 bits is not looked at
      if 0 ≤ allowance ∧ allowance < hi.toNat then
        if allowance < txGas.toNat then .error errInsufficientFundsForGas
        else .ok (UInt64.ofNat allowance.toNat)
      else .ok hi

/-- What the search starts with. -/
structure Estimation where
  bounds : Bounds
  /-- The highest amount before funds are looked at. -/
  gasCap : UInt64
  msg : Message
  nonce : UInt64

/-- What `EstimateGasInternal` does before the search.
grpc_query.go:270-355 -/
def prepareEstimation (st : Store Ω) (req : EthCallRequest) : Except Err Estimation :=
  if req.gasCap < txGas then
    .error (statusError "InvalidArgument"
      (.errorf "gas cap cannot be lower than %d" [.num txGas.toNat]))
  else do
    let args ← req.args.mapError (statusError "InvalidArgument")
    let gasCap := highestGas chain req args
    let _ ← chain.coinbase.mapError fun _ =>
      statusError "Internal" (.new "failed to load evm config")
    let nonce := st.getNonce args.getFrom
    let args := { args with nonce := some nonce }
    let msg ← (args.toMessage req.gasCap chain.getBaseFee).mapError (statusError "Internal")
    let hi ← capByFunds chain st args msg.gasFeeCap gasCap
    .ok { bounds := ⟨txGas - 1, hi⟩, gasCap := gasCap, msg := msg, nonce := nonce }

/-- The context of a call; from outside a branch with the next nonce.
grpc_query.go:377-398 -/
def simulationContext (fromType : CallType) (sender : Address) (nonce : UInt64)
    (ctx : Context Ω) : Except Err (Context Ω) :=
  match fromType with
  | .internal => .ok ctx
  | .rpc =>
    let (acct, st) :=
      match ctx.store.getAccount chain.env sender with
      | some acct => (acct, ctx.store)
      | none =>
        (newEmptyAccount chain.env, ctx.store.setSequence sender (some 0))
    match (Keeper.setAccount chain.env sender { acct with nonce := nonce + 1 }).run st with
    | .ok _ st => .ok { store := st, events := [] }
    | .error e _ => .error e

/-- `NewEmptyTxConfig`. -/
def emptyTxConfig : TxConfig where
  blockHash := chain.headerHash
  txHash := 0
  txIndex := 0
  logIndex := 0

/-- The call of an estimation; nothing is committed. grpc_query.go:360-408 -/
def executable (fromType : CallType) (ctx : Context Ω) (e : Estimation) : Executable :=
  fun gas =>
    match simulationContext chain fromType e.msg.sender e.nonce ctx with
    | .error err => .error err
    | .ok tmpCtx =>
      match (applyMessageWithConfig chain evm { e.msg with gas := gas } false
          (emptyTxConfig chain)).run tmpCtx with
      | .error err _ =>
        -- with more gas it may go through
        if err.is errIntrinsicGas then .ok (true, none) else .error err
      | .ok rsp _ => .ok (rsp.failed, some rsp)

/-- The highest amount of all is executed once more. grpc_query.go:416-437 -/
def finishEstimation (executable : Executable) (gasCap hi : UInt64) :
    Except Err EstimateGasResponse :=
  if hi = gasCap then
    match executable hi with
    | .error err => .error err
    | .ok (false, _) => .ok { gas := hi, ret := [], vmError := "" }
    | .ok (true, none) =>
      .error (.errorf "gas required exceeds allowance (%d)" [.num gasCap.toNat])
    | .ok (true, some result) =>
      if result.vmError ≠ "out of gas" then
        if result.vmError = "execution reverted" then
          .ok { gas := 0, ret := result.ret, vmError := result.vmError }
        else .error (.errorf "%s" [.str result.vmError])
      else .error (.errorf "gas required exceeds allowance (%d)" [.num gasCap.toNat])
  else .ok { gas := hi, ret := [], vmError := "" }

/-- `EstimateGasInternal`, with a number of rounds for the search.
grpc_query.go:269-438 -/
def estimateGasInternal (fuel : ℕ) (fromType : CallType) (ctx : Context Ω)
    (req : EthCallRequest) : Option (Except Err EstimateGasResponse) :=
  match prepareEstimation chain ctx.store req with
  | .error err => some (.error err)
  | .ok e =>
    let run := executable chain evm fromType ctx e
    (binSearch run fuel e.bounds.lo e.bounds.hi).map fun result =>
      result.bind (finishEstimation run e.gasCap)

end

end TacEvm
