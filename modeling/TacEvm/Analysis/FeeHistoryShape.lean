import TacEvm.Library.FallibleState
import TacEvm.Model.FeeHistory
import Mathlib.Data.UInt

/-!
# The shape of a fee history

A history that is returned always has the right shape. What can go wrong comes before: the number of
blocks or the end of the range does not fit, or what the node answers for a block is `Faulty`.
-/

namespace TacEvm.FeeHistory

open FallibleState

variable {α φ : Type} {b : FeeBackend α φ} {ps : List φ}

/-- The base fee of the next block is there, or none is needed. -/
def NextFeeKnown (b : FeeBackend α φ) (height : ℤ) : Prop :=
  b.isLondon (height + 1) = true → ∃ latest res,
    tendermintBlockByNumber b (-1) = .ok (some latest) ∧ b.blockResults latest.height = .ok res ∧
      (b.isLondon latest.height = true → ∃ fee, b.baseFee res = .ok (some fee))

/-- The node has a block with results and what is read of them. -/
def Delivered (b : FeeBackend α φ) (blockID : ℤ) : Prop :=
  ∃ block res eth fee, tendermintBlockByNumber b blockID = .ok (some block) ∧
    b.blockResults block.height = .ok res ∧ b.rpcBlock block res = .ok eth ∧
    b.baseFee res = .ok fee ∧ NextFeeKnown b block.height ∧ eth.gasLimit ≠ 0 ∧
    block.txs.length ≤ (b.txsGasUsed res).length

end TacEvm.FeeHistory
