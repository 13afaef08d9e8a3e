import TacEvm.Model.Authz

/-!
# The staking precompile

The precompile at `0x800`. The approval methods take the origin as granter, whoever calls; the
methods that send a staking message ask for a grant of the origin to the caller. Only `delegate`
registers a balance change.

SOURCE: precompiles/staking (staking.go, tx.go, approve.go, events.go, types.go, errors.go)
-/

namespace TacEvm.Staking

/-- The methods with their arguments. -/
inductive Call
  | approve (grantee : Address) (amount : ℤ) (typeURLs : List String)
  | revoke (grantee : Address) (typeURLs : List String)
  | increaseAllowance (grantee : Address) (amount : ℤ) (typeURLs : List String)
  | decreaseAllowance (grantee : Address) (amount : ℤ) (typeURLs : List String)
  | createValidator (description : Description) (commission : CommissionRates)
      (minSelfDelegation : ℤ) (validatorAddress : Address) (pubkey : String) (value : ℤ)
  | editValidator (description : Description) (validatorAddress : Address)
      (commissionRate minSelfDelegation : ℤ)
  | delegate (delegatorAddress : Address) (validatorAddress : String) (amount : ℤ)
  | undelegate (delegatorAddress : Address) (validatorAddress : String) (amount : ℤ)
  | redelegate (delegatorAddress : Address) (validatorSrcAddress validatorDstAddress : String)
      (amount : ℤ)
  | cancelUnbondingDelegation (delegatorAddress : Address) (validatorAddress : String)
      (amount creationHeight : ℤ)
  /-- A method that is no transaction. -/
  | query (name : String)

/-- The name of the method. -/
def Call.name : Call → String
  | approve .. => "approve"
  | revoke .. => "revoke"
  | increaseAllowance .. => "increaseAllowance"
  | decreaseAllowance .. => "decreaseAllowance"
  | createValidator .. => "createValidator"
  | editValidator .. => "editValidator"
  | delegate .. => "delegate"
  | undelegate .. => "undelegate"
  | redelegate .. => "redelegate"
  | cancelUnbondingDelegation .. => "cancelUnbondingDelegation"
  | query name => name

variable {Ω : Type} (env : Env) (cosmos : Cosmos Ω)

def errInvalidMsgType (typeURL : String) : Err :=
  .errorf "invalid %s transaction type: %s" [.str "staking", .str typeURL]

/-- approve.go:366-379 -/
def convertMsgToAuthz (typeURL : String) : Option AuthorizationType :=
  [AuthorizationType.delegate, .undelegate, .redelegate, .cancelUnbondingDelegation].find?
    fun t => t.msgTypeURL = typeURL

variable (grantee granter : Address)

variable (coin : Option Coin)

/-- Every validator that is not jailed is allowed.
approve.go:238-279 -/
def createStakingAuthz (authzType : AuthorizationType) : KeeperM Ω Unit := do
  let validators ← KeeperM.read cosmos.unjailedValidators
  KeeperM.ensure (validators ≠ []) (.new "both allowed & deny list cannot be empty")
  -- `ValidateBasic` of the new authorization
  KeeperM.ensure (coin.all (0 ≤ ·.amount)) (.new "negative coin amount")
  Authz.saveGrant env grantee granter
    (.stake
      { maxTokens := coin
        allowList := validators
        denyList := []
        authorizationType := authzType })
    (some (env.blockTime + defaultExpirationDuration))

/-- approve.go:206-235 -/
def grantOrDeleteStakingAuthz (authzType : AuthorizationType) : KeeperM Ω Unit :=
  match coin with
  | none => createStakingAuthz env cosmos grantee granter none authzType
  | some coin =>
    if 0 < coin.amount then createStakingAuthz env cosmos grantee granter (some coin) authzType
    else Authz.deleteGrant grantee granter authzType.msgTypeURL

/-- approve.go:34-73 -/
def approve (grantee : Address) (amount : ℤ) (typeURLs : List String) (c : Frame) :
    KeeperM Ω BalanceChanges := do
  let bondDenom ← KeeperM.read cosmos.bondDenom
  let coin ← KeeperM.check (Authorization.checkApprovalArgs grantee amount typeURLs bondDenom)
  typeURLs.forM fun typeURL =>
    match convertMsgToAuthz typeURL with
    | some authzType => grantOrDeleteStakingAuthz env cosmos grantee c.origin coin authzType
    | none => throw (errInvalidMsgType typeURL)
  return []

/-- approve.go:78-119 -/
def revoke (grantee : Address) (typeURLs : List String) (c : Frame) :
    KeeperM Ω BalanceChanges := do
  KeeperM.check (Authorization.checkRevokeArgs grantee typeURLs)
  typeURLs.forM fun typeURL =>
    match convertMsgToAuthz typeURL with
    | some _ => Authz.deleteGrant grantee c.origin typeURL
    | none => throw (errInvalidMsgType typeURL)
  return []

/-- The stake authorization under a message type. -/
def existingStakeAuthz (typeURL : String) :
    KeeperM Ω (StakeAuthorization × Option ℤ) := do
  let (a, expiration) ← KeeperM.read (Authorization.checkAuthzExists env grantee granter typeURL)
  match a with
  | .stake stakeAuthz => return (stakeAuthz, expiration)
  | _ => throw (errUnknownAuthorizationType.wrapf
      "expected: *types.StakeAuthorization, received: %T" [])

/-- An amount that stands for no limit is a nil coin. approve.go:282-306 -/
def decreaseAllowanceOf
    (stakeAuthz : StakeAuthorization) (expiration : Option ℤ) : KeeperM Ω Unit :=
  match stakeAuthz.maxTokens, coin with
  | none, _ => pure ()
  | some _, none => throw Err.nilDereference
  | some limit, some coin =>
    if limit.amount < coin.amount then
      throw (.errorf ("amount by which the allowance should be decreased is greater than " ++
        "the authorization limit: %s > %s") [.num coin.amount, .num limit.amount])
    else
      Authz.saveGrant env grantee granter
        (.stake { stakeAuthz with
          maxTokens := some { limit with amount := limit.amount - coin.amount } })
        expiration

/-- `increaseAllowance`.
approve.go:309-337 -/
def increaseAllowanceOf (msgURL : String) :
    KeeperM Ω Unit := do
  let (stakeAuthz, expiration) ← existingStakeAuthz env grantee granter msgURL
  match stakeAuthz.maxTokens, coin with
  | none, _ => pure ()
  | some _, none => throw Err.nilDereference
  | some limit, some coin =>
    -- `Int.Add` of the SDK holds 256 bits
    if 2 ^ 256 ≤ |limit.amount + coin.amount| then throw (.panic "Int overflow")
    else
      Authz.saveGrant env grantee granter
        (.stake { stakeAuthz with
          maxTokens := some { limit with amount := limit.amount + coin.amount } })
        expiration

/-- approve.go:122-166 -/
def decreaseAllowance (grantee : Address) (amount : ℤ) (typeURLs : List String) (c : Frame) :
    KeeperM Ω BalanceChanges := do
  let bondDenom ← KeeperM.read cosmos.bondDenom
  let coin ← KeeperM.check (Authorization.checkApprovalArgs grantee amount typeURLs bondDenom)
  typeURLs.forM fun typeURL =>
    match convertMsgToAuthz typeURL with
    | some _ => do
      let (stakeAuthz, expiration) ← existingStakeAuthz env grantee c.origin typeURL
      decreaseAllowanceOf env grantee c.origin coin stakeAuthz expiration
    | none => throw (errInvalidMsgType typeURL)
  return []

/-- It does not know `MsgCancelUnbondingDelegation`. approve.go:169-202 -/
def increaseAllowance (grantee : Address) (amount : ℤ) (typeURLs : List String) (c : Frame) :
    KeeperM Ω BalanceChanges := do
  let bondDenom ← KeeperM.read cosmos.bondDenom
  let coin ← KeeperM.check (Authorization.checkApprovalArgs grantee amount typeURLs bondDenom)
  typeURLs.forM fun typeURL =>
    match convertMsgToAuthz typeURL with
    | some .delegate | some .undelegate | some .redelegate =>
      increaseAllowanceOf env grantee c.origin coin typeURL
    | _ => throw (errInvalidMsgType typeURL)
  return []

/-- `EmitAllowanceChangeEvent`. No stake authorization is a nil pointer there.
events.go:78-113 -/
def allowanceChangeValues (typeURLs : List String) (st : Store Ω) :
    Except Err (List ℤ) :=
  typeURLs.mapM fun typeURL =>
    match st.getAuthorization env grantee granter typeURL with
    | some (.stake stakeAuthz, _) =>
      .ok (stakeAuthz.maxTokens.elim Authorization.maxUint256 Coin.amount)
    | _ => .error Err.nilDereference

def errCannotCallFromContract : Err :=
  .new "this method can only be called directly to the precompile, not from a smart contract"

def errDifferentOriginFromDelegator (c : Frame) (delegator : Address) : Err :=
  .errorf "origin address %s is not the same as delegator address %s"
    [.addr c.origin, .addr delegator]

def errInvalidValidator (validator : Address) : Err :=
  .errorf "invalid validator address: %s" [.addr validator]

/-- It takes the commission rate three times. types.go:97-169 -/
def newMsgCreateValidator (description : Description) (commission : CommissionRates)
    (minSelfDelegation : ℤ) (validatorAddress : Address) (pubkey : String) (value : ℤ)
    (denom : Denom) : Except Err MsgCreateValidator := do
  if validatorAddress = 0 then throw (errInvalidValidator validatorAddress)
  let pubkeyBytes ← cosmos.decodeBase64 pubkey
  if pubkeyBytes.length ≠ 32 then
    throw (.errorf "consensus pubkey len is invalid, got: %d, expected: %d"
      [.num pubkeyBytes.length, .num 32])
  return {
    description := description
    commission :=
      { rate := commission.rate, maxRate := commission.rate, maxChangeRate := commission.rate }
    minSelfDelegation := minSelfDelegation
    validatorAddress := validatorAddress
    pubkey := pubkeyBytes
    value := { denom := denom, amount := value } }

/-- tx.go:52-106 -/
def createValidator (description : Description) (commission : CommissionRates)
    (minSelfDelegation : ℤ) (validatorAddress : Address) (pubkey : String) (value : ℤ)
    (c : Frame) : KeeperM Ω BalanceChanges := do
  let bondDenom ← KeeperM.read cosmos.bondDenom
  let msg ← KeeperM.check (newMsgCreateValidator cosmos description commission minSelfDelegation
    validatorAddress pubkey value bondDenom)
  KeeperM.ensure (c.caller = c.origin) errCannotCallFromContract
  KeeperM.ensure (c.origin = validatorAddress) (errDifferentOriginFromDelegator c validatorAddress)
  cosmos.createValidator msg
  return []

/-- `NewMsgEditValidator`; `-1` leaves a field as it is.
types.go:173-226 -/
def newMsgEditValidator (description : Description) (validatorAddress : Address)
    (commissionRate minSelfDelegation : ℤ) : Except Err MsgEditValidator := do
  if validatorAddress = 0 then throw (errInvalidValidator validatorAddress)
  return {
    description := description
    validatorAddress := validatorAddress
    commissionRate := if commissionRate = -1 then none else some commissionRate
    minSelfDelegation := if minSelfDelegation = -1 then none else some minSelfDelegation }

/-- tx.go:109-154 -/
def editValidator (description : Description) (validatorAddress : Address)
    (commissionRate minSelfDelegation : ℤ) (c : Frame) :
    KeeperM Ω BalanceChanges := do
  let msg ← KeeperM.check
    (newMsgEditValidator description validatorAddress commissionRate minSelfDelegation)
  KeeperM.ensure (c.caller = c.origin) errCannotCallFromContract
  KeeperM.ensure (c.origin = validatorAddress)
    (.errorf "origin address %s is not the same as validator operator address %s"
      [.addr c.origin, .addr validatorAddress])
  cosmos.editValidator msg
  return []

/-- approve.go:340-363 -/
def updateStakingAuthorization (stakeAuthz : StakeAuthorization)
    (expiration : Option ℤ) (msg : StakingMsg) : KeeperM Ω Unit := do
  let response ← KeeperM.check (stakeAuthz.accept msg)
  match response.delete, response.updated with
  | true, _ => Authz.deleteGrant grantee granter msg.msgTypeURL
  | false, some updated => Authz.saveGrant env grantee granter updated expiration
  | false, none => throw Err.nilDereference

/-- The account whose grant a caller needs: always the origin. tx.go:202-206 -/
def grantingDelegator (delegator : Address) (c : Frame) : Except Err Address :=
  if delegator = 0 then .error (.errorf "invalid delegator address: %s" [.addr delegator])
  else if c.caller = delegator then .ok c.origin
  else if c.origin ≠ delegator then .error (errDifferentOriginFromDelegator c delegator)
  else .ok delegator

/-- What the methods that send a staking message share. tx.go:185-228 -/
def executeMsg (msg : StakingMsg) (c : Frame) : KeeperM Ω Unit := do
  let delegatorHexAddr ← KeeperM.check (grantingDelegator msg.delegatorAddress c)
  if c.caller = c.origin then cosmos.stakingMsg msg
  else do
    let (stakeAuthz, expiration) ← KeeperM.read
      (Authorization.checkAuthzAndAllowanceForGranter env c.caller delegatorHexAddr msg.amount
        msg.msgTypeURL)
    cosmos.stakingMsg msg
    updateStakingAuthorization env c.caller delegatorHexAddr stakeAuthz expiration msg

variable (delegatorAddress : Address)

/-- `Delegate`, the one method that registers a balance change.
tx.go:157-249 -/
def delegate (validatorAddress : String) (amount : ℤ) (c : Frame) :
    KeeperM Ω BalanceChanges := do
  let bondDenom ← KeeperM.read cosmos.bondDenom
  executeMsg env cosmos
    (.delegate delegatorAddress validatorAddress { denom := bondDenom, amount := amount }) c
  if c.caller ≠ c.origin ∧ bondDenom = env.evmDenom then
    return [{
      account := delegatorAddress
      amount := env.convertAmountTo18Decimals amount
      op := .sub }]
  else return []

/-- tx.go:253-333 -/
def undelegate (validatorAddress : String) (amount : ℤ) (c : Frame) :
    KeeperM Ω BalanceChanges := do
  let bondDenom ← KeeperM.read cosmos.bondDenom
  executeMsg env cosmos
    (.undelegate delegatorAddress validatorAddress { denom := bondDenom, amount := amount }) c
  return []

/-- tx.go:338-417 -/
def redelegate (validatorSrcAddress validatorDstAddress : String)
    (amount : ℤ) (c : Frame) : KeeperM Ω BalanceChanges := do
  let bondDenom ← KeeperM.read cosmos.bondDenom
  executeMsg env cosmos (.beginRedelegate delegatorAddress validatorSrcAddress
    validatorDstAddress { denom := bondDenom, amount := amount }) c
  return []

/-- `Int64` keeps the low bits of the height. tx.go:422-500 -/
def cancelUnbondingDelegation (validatorAddress : String)
    (amount creationHeight : ℤ) (c : Frame) : KeeperM Ω BalanceChanges := do
  let bondDenom ← KeeperM.read cosmos.bondDenom
  executeMsg env cosmos (.cancelUnbondingDelegation delegatorAddress validatorAddress
    { denom := bondDenom, amount := amount } (creationHeight.bmod (2 ^ 64))) c
  return []

/-- staking.go:170-186 -/
def isTransaction (m : Method) : Bool :=
  m.name ∈ ["createValidator", "editValidator", "delegate", "undelegate", "redelegate",
    "cancelUnbondingDelegation", "approve", "revoke", "increaseAllowance", "decreaseAllowance"]

variable (abi : Abi Ω Call.name)

/-- The method switch of `Run`.
staking.go:97-136 -/
def handleMethod (call : Call) (c : Frame) : KeeperM Ω BalanceChanges :=
  match call with
  | .approve grantee amount typeURLs => approve env cosmos grantee amount typeURLs c
  | .revoke grantee typeURLs => revoke grantee typeURLs c
  | .increaseAllowance grantee amount typeURLs =>
    increaseAllowance env cosmos grantee amount typeURLs c
  | .decreaseAllowance grantee amount typeURLs =>
    decreaseAllowance env cosmos grantee amount typeURLs c
  | .createValidator description commission minSelfDelegation validator pubkey value =>
    createValidator cosmos description commission minSelfDelegation validator pubkey value c
  | .editValidator description validator commissionRate minSelfDelegation =>
    editValidator cosmos description validator commissionRate minSelfDelegation c
  | .delegate delegator validator amount => delegate env cosmos delegator validator amount c
  | .undelegate delegator validator amount => undelegate env cosmos delegator validator amount c
  | .redelegate delegator src dst amount => redelegate env cosmos delegator src dst amount c
  | .cancelUnbondingDelegation delegator validator amount height =>
    cancelUnbondingDelegation env cosmos delegator validator amount height c
  | .query name => do
    KeeperM.read (abi.query name c)
    return []

/-- The staking precompile. -/
def precompile : Precompile Ω where
  address := 0x800
  guard := fun _ => none
  methodById := abi.methodById
  receive := none
  fallback := none
  isTransaction := isTransaction
  unpack := fun m bz =>
    (abi.unpack m bz).map fun call =>
      Handler.of (abi.emitted call) (handleMethod env cosmos abi call)

end TacEvm.Staking
