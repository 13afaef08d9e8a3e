import TacEvm.Model.Cosmos

/-!
# The distribution precompile

The precompile at `0x801`. What reaches the withdraw address in the EVM coin is registered as a
balance change when a contract calls; `fundCommunityPool` registers what it takes of the base denom.

SOURCE: precompiles/distribution (distribution.go, tx.go, types.go)
-/

namespace TacEvm.Distribution

/-- The methods with their arguments. -/
inductive Call
  | claimRewards (delegatorAddress : Address) (maxRetrieve : UInt32)
  | setWithdrawAddress (delegatorAddress : Address) (withdrawerAddress : String)
  | withdrawDelegatorRewards (delegatorAddress : Address) (validatorAddress : String)
  | withdrawValidatorCommission (validatorAddress : String)
  | fundCommunityPool (depositor : Address) (amount : ℤ)
  /-- A method that is no transaction. -/
  | query (name : String)

/-- The name of the method. -/
def Call.name : Call → String
  | claimRewards .. => "claimRewards"
  | setWithdrawAddress .. => "setWithdrawAddress"
  | withdrawDelegatorRewards .. => "withdrawDelegatorRewards"
  | withdrawValidatorCommission .. => "withdrawValidatorCommission"
  | fundCommunityPool .. => "fundCommunityPool"
  | query name => name

variable {Ω : Type} (env : Env) (cosmos : Cosmos Ω)

/-- The delegator is the caller or the origin. -/
def checkOrigin (err : String) (addr : Address) (c : Frame) : KeeperM Ω Unit :=
  KeeperM.ensure ((c.caller = addr ∧ c.origin ≠ addr) ∨ c.origin = addr)
    (.errorf err [.addr c.origin, .addr addr])

/-- The check of the delegator when the arguments are parsed. -/
def checkDelegator (delegator : Address) : KeeperM Ω Unit :=
  KeeperM.ensure (delegator ≠ 0) (.errorf "invalid delegator address: %s" [.addr delegator])

def errDelegatorDifferentOrigin : String :=
  "tx origin address %s does not match the delegator address %s"

def errSpenderDifferentOrigin : String :=
  "tx origin address %s does not match the spender address %s"

/-- An entry is registered only for a positive amount. -/
def entryFor (account : Address) (amount : ℤ) (op : Operation) : BalanceChanges :=
  let convertedAmount := env.convertAmountTo18Decimals amount
  if 0 < convertedAmount then [{ account := account, amount := convertedAmount, op := op }] else []

/-- The balance change of the withdraw address of `addr`. tx.go:86-98 -/
def withdrawnEntries (addr : Address) (coins : Coins) (c : Frame) :
    KeeperM Ω BalanceChanges :=
  if c.caller = c.origin then pure []
  else do
    let withdrawer ← KeeperM.read (cosmos.getDelegatorWithdrawAddr addr)
    return entryFor env withdrawer (coins.amountOf env.evmDenom) .add

/-- The loop of `ClaimRewards` over the validators. -/
def withdrawAll (delegator : Address) : List String → KeeperM Ω Coins
  | [] => pure []
  | validator :: validators => do
    let coins ← cosmos.withdrawDelegationRewards delegator validator
    let rest ← withdrawAll delegator validators
    return coins ++ rest

/-- tx.go:34-105 -/
def claimRewards (delegator : Address) (maxRetrieve : UInt32) (c : Frame) :
    KeeperM Ω BalanceChanges := do
  checkDelegator delegator
  let maxVals ← KeeperM.read cosmos.maxValidators
  KeeperM.ensure (maxRetrieve.toNat ≤ maxVals)
    (.errorf "maxRetrieve (%d) parameter exceeds the maximum number of validators (%d)"
      [.num maxRetrieve.toNat, .num maxVals])
  checkOrigin errDelegatorDifferentOrigin delegator c
  let validators ← KeeperM.read (cosmos.getDelegatorValidators delegator maxRetrieve.toNat)
  let totalCoins ← withdrawAll cosmos delegator validators
  withdrawnEntries env cosmos delegator totalCoins c

/-- `SetWithdrawAddress`, of a hex or bech32 address. tx.go:108-138 -/
def setWithdrawAddress (delegator : Address) (withdrawer : String) (c : Frame) :
    KeeperM Ω BalanceChanges := do
  checkDelegator delegator
  checkOrigin errDelegatorDifferentOrigin delegator c
  cosmos.setWithdrawAddress delegator withdrawer
  return []

/-- tx.go:141-189 -/
def withdrawDelegatorRewards (delegator : Address) (validator : String) (c : Frame) :
    KeeperM Ω BalanceChanges := do
  checkDelegator delegator
  checkOrigin errDelegatorDifferentOrigin delegator c
  let coins ← cosmos.withdrawDelegationRewards delegator validator
  withdrawnEntries env cosmos delegator coins c

/-- tx.go:192-241 -/
def withdrawValidatorCommission (validator : String) (c : Frame) :
    KeeperM Ω BalanceChanges := do
  let validatorHexAddr ← KeeperM.check (cosmos.hexAddressFromBech32 validator)
  checkOrigin errDelegatorDifferentOrigin validatorHexAddr c
  let coins ← cosmos.withdrawValidatorCommission validator
  withdrawnEntries env cosmos validatorHexAddr coins c

/-- `FundCommunityPool`, in the base denom.
tx.go:244-293 -/
def fundCommunityPool (depositor : Address) (amount : ℤ) (c : Frame) :
    KeeperM Ω BalanceChanges := do
  let baseDenom ← KeeperM.check cosmos.getBaseDenom
  KeeperM.ensure (depositor ≠ 0) (.errorf "invalid hex address address: %s" [.addr depositor])
  checkOrigin errSpenderDifferentOrigin depositor c
  let coins : Coins := [{ denom := baseDenom, amount := amount }]
  cosmos.fundCommunityPool depositor coins
  if c.caller = c.origin then return []
  else return entryFor env depositor (coins.amountOf baseDenom) .sub

/-- distribution.go:156-167 -/
def isTransaction (m : Method) : Bool :=
  m.name ∈ ["claimRewards", "setWithdrawAddress", "withdrawDelegatorRewards",
    "withdrawValidatorCommission", "fundCommunityPool"]

variable (abi : Abi Ω Call.name)

/-- The method switch of `Run`.
distribution.go:100-130 -/
def handleMethod (call : Call) (c : Frame) : KeeperM Ω BalanceChanges :=
  match call with
  | .claimRewards delegator maxRetrieve => claimRewards env cosmos delegator maxRetrieve c
  | .setWithdrawAddress delegator withdrawer => setWithdrawAddress cosmos delegator withdrawer c
  | .withdrawDelegatorRewards delegator validator =>
    withdrawDelegatorRewards env cosmos delegator validator c
  | .withdrawValidatorCommission validator => withdrawValidatorCommission env cosmos validator c
  | .fundCommunityPool depositor amount => fundCommunityPool env cosmos depositor amount c
  | .query name => do
    KeeperM.read (abi.query name c)
    return []

/-- The distribution precompile. -/
def precompile : Precompile Ω where
  address := 0x801
  guard := fun _ => none
  methodById := abi.methodById
  receive := none
  fallback := none
  isTransaction := isTransaction
  unpack := fun m bz =>
    (abi.unpack m bz).map fun call =>
      Handler.of (abi.emitted call) (handleMethod env cosmos abi call)

end TacEvm.Distribution
