import TacEvm.Model.Ante

/-!
# The ante handler of the application

A transaction is routed by its first extension option, to `MonoDecorator` or to the chain of
decorators of the SDK, which begins with two that keep Ethereum messages out. Messages are trees:
`MsgExec` carries others.

SOURCE: evmd/ante (ante.go, cosmos_handler.go), ante/cosmos (reject_msgs.go, authz.go)
-/

namespace TacEvm

open FallibleState

/-- `sdk.Msg`, with the messages of `x/authz` opened. -/
inductive SdkMsg
  | ethereumTx (msg : MsgEthereumTx)
  /-- `authz.MsgExec`; `GetMessages` fails if one of its messages was not unpacked. -/
  | exec (notUnpacked : Option Err) (msgs : List SdkMsg)
  /-- `authz.MsgGrant`, by the type URL that its authorization is for. -/
  | grant (authorization : Except Err String)
  | other (typeURL typeName : String)

namespace SdkMsg

/-- `sdk.MsgTypeURL`. -/
def typeURL : SdkMsg → String
  | ethereumTx _ => "/cosmos.evm.vm.v1.MsgEthereumTx"
  | exec _ _ => "/cosmos.authz.v1beta1.MsgExec"
  | grant _ => "/cosmos.authz.v1beta1.MsgGrant"
  | other typeURL _ => typeURL

/-- The message as `MonoDecorator` sees it. -/
def toMsg : SdkMsg → Msg
  | ethereumTx msg => .ethereumTx msg
  | exec _ _ => .other "*authz.MsgExec"
  | grant _ => .other "*authz.MsgGrant"
  | other _ typeName => .other typeName

end SdkMsg

/-- `sdk.Tx`, with the type URLs of its extension options. -/
structure AppTx where
  memo : String
  timeoutHeight : UInt64
  extensionOptions : List String
  nonCriticalExtensionOptions : ℕ
  signerInfos : ℕ
  signatures : ℕ
  fee : Fee
  msgs : List SdkMsg

/-- The transaction as `MonoDecorator` sees it. -/
def AppTx.toCosmosTx (tx : AppTx) : CosmosTx where
  memo := tx.memo
  timeoutHeight := tx.timeoutHeight
  extensionOptions := tx.extensionOptions.length
  nonCriticalExtensionOptions := tx.nonCriticalExtensionOptions
  signerInfos := tx.signerInfos
  signatures := tx.signatures
  fee := tx.fee
  msgs := tx.msgs.map SdkMsg.toMsg

/-! ## The limiter of `x/authz` -/

def errUnauthorized : Err := .new "unauthorized"
def errUnknownExtensionOptions : Err := .new "unknown extension options"

namespace AuthzLimiter

def maxNestedMsgs : ℕ := 7

/-- The check at the start of `checkDisabledMsgs`. -/
def checkNestedLvl (nestedLvl : ℕ) : Except Err Unit :=
  if maxNestedMsgs ≤ nestedLvl then
    .error (.errorf "found more nested msgs than permitted; got: %d, expected: <%d"
      [.num nestedLvl, .num maxNestedMsgs])
  else .ok ()

/-- `isDisabledMsg`, and the error that both its callers return. -/
def refuseDisabled (disabledMsgTypes : List String) (url : String) : Except Err Unit :=
  if url ∈ disabledMsgTypes then .error (.errorf "found disabled msg type: %s" [.str url])
  else .ok ()

mutual

/-- `checkDisabledMsgs`: the level stays raised after a `MsgExec`. -/
def checkMsg (disabledMsgTypes : List String) (isAuthzInnerMsg : Bool) (nestedLvl : ℕ) :
    SdkMsg → Except Err ℕ
  | .exec notUnpacked innerMsgs =>
    match notUnpacked with
    | some err => .error err
    | none => do
      checkNestedLvl (nestedLvl + 1)
      checkMsgs disabledMsgTypes true (nestedLvl + 1) innerMsgs
      return nestedLvl + 1
  | .grant authorization => do
    let url ← authorization
    refuseDisabled disabledMsgTypes url
    return nestedLvl
  | .ethereumTx msg => do
    (if isAuthzInnerMsg then refuseDisabled disabledMsgTypes (SdkMsg.ethereumTx msg).typeURL
    else .ok ())
    return nestedLvl
  | .other typeURL _ => do
    (if isAuthzInnerMsg then refuseDisabled disabledMsgTypes typeURL else .ok ())
    return nestedLvl

/-- The loop of `checkDisabledMsgs`. -/
def checkMsgs (disabledMsgTypes : List String) (isAuthzInnerMsg : Bool) (nestedLvl : ℕ) :
    List SdkMsg → Except Err Unit
  | [] => .ok ()
  | msg :: msgs => do
    let nestedLvl ← checkMsg disabledMsgTypes isAuthzInnerMsg nestedLvl msg
    checkMsgs disabledMsgTypes isAuthzInnerMsg nestedLvl msgs

end

/-- authz.go:44-77 -/
def checkDisabledMsgs (disabledMsgTypes : List String) (msgs : List SdkMsg)
    (isAuthzInnerMsg : Bool) (nestedLvl : ℕ) : Except Err Unit := do
  checkNestedLvl nestedLvl
  checkMsgs disabledMsgTypes isAuthzInnerMsg nestedLvl msgs

/-- The check of `AuthzLimiterDecorator.AnteHandle`.
authz.go:30-35 -/
def anteCheck (disabledMsgTypes : List String) (tx : AppTx) : Except Err Unit :=
  match checkDisabledMsgs disabledMsgTypes tx.msgs false 1 with
  | .error e => .error (errUnauthorized.quote "" e)
  | .ok () => .ok ()

end AuthzLimiter

/-- The check of `RejectMessagesDecorator.AnteHandle`.
reject_msgs.go:23-33 -/
def rejectMessages (tx : AppTx) : Except Err Unit :=
  if tx.msgs.any fun | .ethereumTx _ => true | _ => false then
    .error (errInvalidType.wrapf
      "MsgEthereumTx needs to be contained within a tx with 'ExtensionOptionsEthereumTx' option" [])
  else .ok ()

/-- The types that `x/authz` must not carry.
cosmos_handler.go:18-21 -/
def disabledAuthzMsgs : List String :=
  ["/cosmos.evm.vm.v1.MsgEthereumTx", "/cosmos.vesting.v1beta1.MsgCreateVestingAccount"]

def extensionOptionsEthereumTx : String := "/cosmos.evm.vm.v1.ExtensionOptionsEthereumTx"
def extensionOptionDynamicFeeTx : String := "/cosmos.evm.types.v1.ExtensionOptionDynamicFeeTx"

section

variable {Ω : Type} (chain : Chain) (decorators : Mode → AppTx → ChainM Ω ℤ)

/-- The decorators after the first two are `decorators`; they give the priority.
cosmos_handler.go:15-39 -/
def newCosmosAnteHandler (mode : Mode) (tx : AppTx) : ChainM Ω ℤ := do
  fromExcept (rejectMessages tx)
  fromExcept (AuthzLimiter.anteCheck disabledAuthzMsgs tx)
  decorators mode tx

/-- evmd/ante/evm_handler.go:10-19 -/
def newMonoEVMAnteHandler (mode : Mode) (tx : AppTx) : ChainM Ω ℤ :=
  anteHandle chain mode tx.toCosmosTx

/-- ante.go:15-53 -/
def newAnteHandler (mode : Mode) (tx : AppTx) : ChainM Ω ℤ :=
  match tx.extensionOptions with
  | [] => newCosmosAnteHandler decorators mode tx
  | typeURL :: _ =>
    if typeURL = extensionOptionsEthereumTx then newMonoEVMAnteHandler chain mode tx
    else if typeURL = extensionOptionDynamicFeeTx then newCosmosAnteHandler decorators mode tx
    else throw (errUnknownExtensionOptions.wrapf
      "rejecting tx with unsupported extension option: %s" [.str typeURL])

end

end TacEvm
