import TacEvm.Model.Cosmos

/-!
# Grants

The authz keeper of the SDK, and the functions the precompiles share to check and to change grants.
A grant that has expired counts as missing.

SOURCE: precompiles/authorization (types.go, errors.go)
-/

namespace TacEvm

/-- The type URLs of the staking messages. -/
def AuthorizationType.msgTypeURL : AuthorizationType → String
  | .delegate => "/cosmos.staking.v1beta1.MsgDelegate"
  | .undelegate => "/cosmos.staking.v1beta1.MsgUndelegate"
  | .redelegate => "/cosmos.staking.v1beta1.MsgBeginRedelegate"
  | .cancelUnbondingDelegation => "/cosmos.staking.v1beta1.MsgCancelUnbondingDelegation"

def transferMsgURL : String := "/ibc.applications.transfer.v1.MsgTransfer"

def sendMsgURL : String := "/cosmos.bank.v1beta1.MsgSend"

def Authorization.msgTypeURL : Authorization → String
  | .stake a => a.authorizationType.msgTypeURL
  | .transfer _ => transferMsgURL
  | .send _ _ => sendMsgURL
  | .generic msg => msg

def StakingMsg.msgTypeURL (msg : StakingMsg) : String := msg.authorizationType.msgTypeURL

/-- `cmn.DefaultExpirationDuration`, one year in seconds. -/
def defaultExpirationDuration : ℤ := 365 * 24 * 3600

def errUnknownAuthorizationType : Err := .new "unknown authorization type"

namespace Store

variable {Ω : Type}

def setGrant (st : Store Ω) (granter grantee : Address) (msgType : String) (g : Option Grant) :
    Store Ω :=
  { st with
    grants := Function.update st.grants granter
      (Function.update (st.grants granter) grantee
        (Function.update (st.grants granter grantee) msgType g)) }

/-- `GetAuthorization` of the authz keeper. -/
def getAuthorization (env : Env) (st : Store Ω) (grantee granter : Address) (msgType : String) :
    Option (Authorization × Option ℤ) :=
  (st.grants granter grantee msgType).bind fun g =>
    match g.expiration with
    | none => some (g.authorization, none)
    | some t => if t < env.blockTime then none else some (g.authorization, some t)

end Store

namespace Authz

variable {Ω : Type} (env : Env)

def saveGrant (grantee granter : Address) (a : Authorization) (expiration : Option ℤ) :
    KeeperM Ω Unit :=
  if expiration.any (· ≤ env.blockTime) then
    throw (.errorf "expiration must be after the current block time (%v), got %v"
      (.num env.blockTime :: (expiration.map Arg.num).toList))
  else modify fun st => st.setGrant granter grantee a.msgTypeURL (some ⟨a, expiration⟩)

def deleteGrant (grantee granter : Address) (msgType : String) : KeeperM Ω Unit := do
  let st ← get
  if st.grants granter grantee msgType = none then
    throw (.errorf "failed to delete grant with key %s: authorization not found"
      [.addr grantee, .addr granter, .str msgType])
  else set (st.setGrant granter grantee msgType none)

end Authz

def StakeAuthorization.accept (a : StakeAuthorization) (msg : StakingMsg) :
    Except Err AcceptResponse :=
  let validator := msg.authorizedValidator
  if validator ∈ a.denyList then
    .error (.errorf "cannot delegate/undelegate to %s validator: unauthorized" [.str validator])
  else if a.allowList ≠ [] ∧ validator ∉ a.allowList then
    .error (.errorf "cannot delegate/undelegate to %s validator: unauthorized" [.str validator])
  else match a.maxTokens with
    | none => .ok { accept := true, delete := false, updated := some (.stake a) }
    | some limit =>
      if limit.denom ≠ msg.amount.denom then
        .error (.errorf "invalid coin denominations; %s, %s"
          [.str limit.denom, .str msg.amount.denom])
      else if limit.amount < msg.amount.amount then
        .error (.errorf "negative coin amount: %s" [.num (limit.amount - msg.amount.amount)])
      else if limit.amount = msg.amount.amount then
        .ok { accept := true, delete := true, updated := none }
      else
        .ok
          { accept := true
            delete := false
            updated := some (.stake
              { a with
                maxTokens := some { limit with amount := limit.amount - msg.amount.amount } }) }

/-! ## Checks the precompiles share -/

namespace Authorization

variable {Ω : Type} (env : Env)

def errAuthzDoesNotExistOrExpired (msgURL : Arg) (grantee : Address) : Err :=
  .errorf "authorization to %s for address %s does not exist or is expired" [msgURL, .addr grantee]

def maxUint256 : ℤ := 2 ^ 256 - 1

/-- types.go:189-203 -/
def validateMsgTypes (typeURLs : List String) : Except Err Unit :=
  if typeURLs = [] then
    .error (.new "no methods defined; expected at least one message type url")
  else if "" ∈ typeURLs then
    .error (.errorf
      "empty string found in methods array; expected no empty strings to be passed; got: %v"
      (typeURLs.map Arg.str))
  else .ok ()

/-- The limit of an approval: the largest amount stands for none. types.go:64-70 -/
def approvalCoin (amount : ℤ) (denom : Denom) : Option Coin :=
  if amount = maxUint256 then none else some { denom := denom, amount := amount }

/-- types.go:46-86 -/
def checkApprovalArgs (grantee : Address) (amount : ℤ) (typeURLs : List String) (denom : Denom) :
    Except Err (Option Coin) := do
  if grantee = 0 then throw (.errorf "invalid granter address: %v" [.addr grantee])
  if amount < 0 then throw (.errorf "amount cannot be negative: %v" [.num amount])
  validateMsgTypes typeURLs
  return approvalCoin amount denom

/-- types.go:89-110 -/
def checkRevokeArgs (grantee : Address) (typeURLs : List String) : Except Err Unit := do
  if grantee = 0 then throw (.errorf "invalid granter address: %v" [.addr grantee])
  validateMsgTypes typeURLs

/-- types.go:145-156 -/
def checkAuthzExists (grantee granter : Address) (msgURL : String) (st : Store Ω) :
    Except Err (Authorization × Option ℤ) :=
  match st.getAuthorization env grantee granter msgURL with
  | none => .error (errAuthzDoesNotExistOrExpired (.str msgURL) grantee)
  | some a => .ok a

/-- types.go:163-185 -/
def checkAuthzAndAllowanceForGranter (grantee granter : Address) (amount : Coin)
    (msgURL : String) (st : Store Ω) : Except Err (StakeAuthorization × Option ℤ) :=
  match st.getAuthorization env grantee granter msgURL with
  | none => .error (errAuthzDoesNotExistOrExpired (.str msgURL) grantee)
  | some (.stake a, expiration) =>
    match a.maxTokens with
    | none => .ok (a, expiration)
    | some limit =>
      if limit.amount < amount.amount then
        .error (.errorf "amount %s greater than allowed limit %s"
          [.num amount.amount, .num limit.amount])
      else .ok (a, expiration)
  | some _ => .error errUnknownAuthorizationType

end Authorization

end TacEvm
