import TacEvm.Model.Erc20
import TacEvm.Model.Erc20Conversion

/-!
# The logs of the ERC20 precompiles

A method that succeeds adds its logs before it returns. The owner in the `Approval` of the three
approval methods is the address of the precompile.

SOURCE: precompiles/erc20 (events.go:22-93, approve.go:81-221, tx.go:94-144),
precompiles/common/abi.go:20-28
-/

namespace TacEvm.Erc20

variable {Ω : Type} (env : Env) (pair : TokenPair)

/-- `MakeTopic` of an address. -/
def makeTopic (a : Address) : Hash := a.setWidth 256

/-- An event with two indexed addresses and a number. -/
def eventLog (signature : String) (a b : Address) (value : ℤ) : EmittedLog :=
  (pair.erc20Address, [env.keccak256 (ascii signature.toList), makeTopic a, makeTopic b],
    TokenAbi.packUint256 value)

/-- The log of `EmitTransferEvent`. -/
def transferEvent (src dst : Address) (value : ℤ) : EmittedLog :=
  eventLog env pair "Transfer(address,address,uint256)" src dst value

/-- The log of `EmitApprovalEvent`. -/
def approvalEvent (owner spender : Address) (value : ℤ) : EmittedLog :=
  eventLog env pair "Approval(address,address,uint256)" owner spender value

/-- The allowance that a method reads before it changes it. -/
def prevAllowance (grantee granter : Address) (st : Store Ω) : ℤ :=
  match getAuthzExpirationAndAllowance env grantee granter pair.denom st with
  | .ok (_, allowance) => allowance
  | .error _ => 0

/-- The logs of a method that succeeds. approve.go:81-221, tx.go:121-144 -/
def emittedLogs (call : Call) (c : Frame) (st : Store Ω) : List EmittedLog :=
  match call with
  | .transfer dst amount => [transferEvent env pair c.caller dst amount]
  | .transferFrom src dst amount =>
    let newAllowance := if c.caller = src then Authorization.maxUint256
      else prevAllowance env pair c.caller src st - amount
    [transferEvent env pair src dst amount, approvalEvent env pair src c.caller newAllowance]
  | .approve spender amount => [approvalEvent env pair pair.erc20Address spender amount]
  | .increaseAllowance spender addedValue =>
    [approvalEvent env pair pair.erc20Address spender
      (prevAllowance env pair spender c.caller st + addedValue)]
  | .decreaseAllowance spender subtractedValue =>
    let allowance := prevAllowance env pair spender c.caller st
    [approvalEvent env pair pair.erc20Address spender
      (if subtractedValue < allowance then allowance - subtractedValue else 0)]
  | .query _ => []
  | .unknown _ => []

end TacEvm.Erc20
