import TacEvm.Model.Basic

/-!
# Fee history

`FeeHistory` makes one row of data for each block of a range. What the clients of the node return is
open (`FeeBackend`); their errors are texts, and floats are of any type `φ`.

SOURCE: rpc/backend (chain_info.go:151-246, utils.go:90-210, blocks.go)
-/

namespace TacEvm.FeeHistory

/-- The tip cap and the fee cap of the Ethereum messages of each transaction. -/
structure Block where
  height : ℤ
  txs : List (Option (List (ℤ × ℤ)))

/-- What `RPCBlockFromTendermintBlock` gives of a block. -/
structure EthBlock where
  gasLimit : UInt64
  gasUsed : ℕ

/-- The clients of the backend; `α` are the results of a block. -/
structure FeeBackend (α φ : Type) where
  feeHistoryCap : ℕ
  height : Except String UInt64
  block : ℤ → Except String (Option Block)
  blockResults : ℤ → Except String α
  txsGasUsed : α → List UInt64
  rpcBlock : Block → α → Except String EthBlock
  baseFee : α → Except String (Option ℤ)
  isLondon : ℤ → Bool
  gasUsedRatio : EthBlock → φ
  thresholdGasUsed : EthBlock → φ → UInt64

variable {α φ : Type} (b : FeeBackend α φ)

/-- An error of a client. -/
def client {β : Type} (x : Except String β) : Except Err β := x.mapError Err.new

/-- `BlockNumber`. -/
def blockNumber : Except Err ℤ := do
  let height ← client b.height
  if 2 ^ 63 - 1 < height.toNat then
    .error (.errorf "block height %d is greater than max uint64" [.num height.toNat])
  else return height.toNat

/-- `TendermintBlockByNumber`. -/
def tendermintBlockByNumber (blockNum : ℤ) : Except Err (Option Block) := do
  let height ← if blockNum ≤ 0 then blockNumber b else pure blockNum
  client (b.block height)

/-- `CurrentHeader`, with its number and its base fee.
blocks.go:281-311 -/
def currentHeader : Except Err (ℤ × Option ℤ) := do
  match ← tendermintBlockByNumber b (-1) with
  | none => .error (.errorf "block not found for height %d" [.num (-1)])
  | some block =>
    match b.blockResults block.height with
    | .error _ => .error (.errorf "block result not found for height %d" [.num block.height])
    | .ok blockRes => return (block.height, (b.baseFee blockRes).toOption.join)

/-- `misc.CalcBaseFee` of go-ethereum, for a header without gas. -/
def calcBaseFee (header : ℤ × Option ℤ) : Except Err ℤ :=
  if b.isLondon header.1 = false then .ok 1000000000
  else
    match header.2 with
    | none => .error .nilDereference
    | some baseFee => .ok baseFee

/-- The base fee of the block after one. -/
def nextBaseFee (height : ℤ) : Except Err ℤ :=
  if b.isLondon (height + 1) then currentHeader b >>= calcBaseFee b else .ok 0

/-- `FeeHistoryResult`. -/
structure Result (φ : Type) where
  oldestBlock : ℤ
  baseFee : List (Option ℤ)
  gasUsedRatio : List φ
  reward : List (List ℤ)
  deriving DecidableEq

end TacEvm.FeeHistory
