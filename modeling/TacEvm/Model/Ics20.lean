import TacEvm.Model.Authz

/-!
# The ICS20 precompile

The precompile at `0x802`, and the transfer keeper below it, which converts the ERC20 tokens that
are missing. The approval methods take the origin as granter; the balance changes of `transfer` are
in the units of the message.

SOURCE: precompiles/ics20 (ics20.go, tx.go, approve_common.go, types.go),
x/ibc/transfer/keeper/msg_server.go
-/

namespace TacEvm.Ics20

/-- The methods with their arguments. -/
inductive Call
  | approve (grantee : Address) (allocations : List Allocation)
  | revoke (grantee : Address)
  | increaseAllowance (grantee : Address) (sourcePort sourceChannel : String) (denom : Denom)
      (amount : ℤ)
  | decreaseAllowance (grantee : Address) (sourcePort sourceChannel : String) (denom : Denom)
      (amount : ℤ)
  | transfer (msg : MsgTransfer)
  /-- A query. -/
  | query (name : String)
  /-- A method `Run` does not know. -/
  | unknown (name : String)

/-- The name of the method. -/
def Call.name : Call → String
  | approve .. => "approve"
  | revoke .. => "revoke"
  | increaseAllowance .. => "increaseAllowance"
  | decreaseAllowance .. => "decreaseAllowance"
  | transfer .. => "transfer"
  | query name => name
  | unknown name => name

variable {Ω : Type} (env : Env) (cosmos : Cosmos Ω)

/-- `channeltypes.ErrChannelNotFound`, with the port and the channel. -/
def errChannelNotFound (sourcePort sourceChannel : String) : Err :=
  (Err.new "channel not found").wrapf "port ID (%s) channel ID (%s)"
    [.str sourcePort, .str sourceChannel]

/-- `HasChannel`, as a check. -/
def checkChannel (sourcePort sourceChannel : String) (st : Store Ω) : Except Err Unit :=
  if cosmos.hasChannel sourcePort sourceChannel st then .ok ()
  else .error (errChannelNotFound sourcePort sourceChannel)

/-- approve_common.go:31-65 -/
def approve (grantee : Address) (allocations : List Allocation) (c : Frame) :
    KeeperM Ω BalanceChanges := do
  KeeperM.check (cosmos.validateAllocations allocations)
  allocations.forM fun a => KeeperM.read (checkChannel cosmos a.sourcePort a.sourceChannel)
  Authz.saveGrant env grantee c.origin (.transfer allocations)
    (some (env.blockTime + defaultExpirationDuration))
  return []

/-- `checkRevokeArgs` and the first check of `checkAllowanceArgs`. -/
def checkGrantee (grantee : Address) : Except Err Unit :=
  if grantee = 0 then .error (.errorf "invalid grantee address: %v" [.addr grantee]) else .ok ()

/-- The allocations granted, which the changes of a grant read. -/
def existingAllocations (grantee granter : Address) (st : Store Ω) :
    Except Err (List Allocation × Option ℤ) :=
  match st.getAuthorization env grantee granter transferMsgURL with
  | none => .error (Authorization.errAuthzDoesNotExistOrExpired (.addr grantee) granter)
  | some (.transfer allocations, expiration) => .ok (allocations, expiration)
  | some _ => .error errUnknownAuthorizationType

/-- approve_common.go:68-100 -/
def revoke (grantee : Address) (c : Frame) : KeeperM Ω BalanceChanges := do
  KeeperM.check (checkGrantee grantee)
  let _ ← KeeperM.read (existingAllocations env grantee c.origin)
  Authz.deleteGrant grantee c.origin transferMsgURL
  return []

/-- The spend limit and place of the first allocation. types.go:336-354 -/
def checkAllocationExists (allocations : List Allocation) (sourcePort sourceChannel : String)
    (denom : Denom) : Except Err (Coin × ℕ) :=
  let idx := allocations.findIdx fun a =>
    a.sourcePort = sourcePort ∧ a.sourceChannel = sourceChannel
  match (allocations[idx]?).bind fun a => a.spendLimit.find? fun coin => coin.denom = denom with
  | some coin => .ok (coin, idx)
  | none => .error (.errorf
      ("no matching allocation found for source port: %s, source channel: %s, " ++
        "and denom: %s") [.str sourcePort, .str sourceChannel, .str denom])

/-- The spend limit of the allocation at a place, changed. -/
def setSpendLimit (allocations : List Allocation) (idx : ℕ) (f : Coins → Coins) :
    List Allocation :=
  allocations.modify idx fun a => { a with spendLimit := f a.spendLimit }

/-- approve_common.go:103-154 -/
def increaseAllowance (grantee : Address) (sourcePort sourceChannel : String) (denom : Denom)
    (amount : ℤ) (c : Frame) : KeeperM Ω BalanceChanges := do
  KeeperM.check (checkGrantee grantee)
  let (allocations, expiration) ← KeeperM.read (existingAllocations env grantee c.origin)
  let (spendLimit, idx) ← KeeperM.check
    (checkAllocationExists allocations sourcePort sourceChannel denom)
  -- `SafeAdd`
  KeeperM.ensure (spendLimit.amount + amount < 2 ^ 256)
    (.new "integer overflow when increasing allowance")
  let increased := setSpendLimit allocations idx fun coins =>
    coins.map fun coin =>
      if coin.denom = denom then { coin with amount := coin.amount + amount } else coin
  Authz.saveGrant env grantee c.origin (.transfer increased) expiration
  return []

/-- `DecreaseAllowance`, which drops a coin that has nothing left.
approve_common.go:157-221 -/
def decreaseAllowance (grantee : Address) (sourcePort sourceChannel : String) (denom : Denom)
    (amount : ℤ) (c : Frame) : KeeperM Ω BalanceChanges := do
  KeeperM.check (checkGrantee grantee)
  let (allocations, expiration) ← KeeperM.read (existingAllocations env grantee c.origin)
  let (spendLimit, idx) ← KeeperM.check
    (checkAllocationExists allocations sourcePort sourceChannel denom)
  KeeperM.ensure (amount ≤ spendLimit.amount) (.new "negative amount when decreasing allowance")
  let decreased := setSpendLimit allocations idx fun coins =>
    coins.filterMap fun coin =>
      if coin.denom ≠ denom then some coin
      else if coin.amount ≤ amount then none
      else some { coin with amount := coin.amount - amount }
  Authz.saveGrant env grantee c.origin (.transfer decreased) expiration
  return []

/-- `strings.TrimPrefix` of the module name of `x/erc20`. -/
def trimErc20 (denom : Denom) : String :=
  if "erc20/".toList <+: denom.toList then String.ofList (denom.toList.drop 6) else denom

/-- The message with the denom of its pair. -/
def resolveDenom (msg : MsgTransfer) (st : Store Ω) : MsgTransfer × Option TokenPair :=
  match cosmos.getTokenPair (trimErc20 msg.token.denom) st with
  | none => (msg, none)
  | some pair =>
    if pair.enabled && cosmos.isERC20Enabled st then
      ({ msg with token := { msg.token with denom := pair.denom } }, some pair)
    else (msg, none)

/-- What the sender of a native token is missing is converted. -/
def convertMissing (msg : MsgTransfer) (pair : Option TokenPair) : KeeperM Ω Unit := do
  let st ← get
  match pair with
  | none => pure ()
  | some pair =>
    let balance : ℤ := st.balance msg.sender pair.denom
    if pair.isNativeERC20 ∧ balance < msg.token.amount then
      cosmos.convertERC20 (msg.token.amount - balance) msg.sender pair.erc20Address msg.sender
    else pure ()

/-- What `Keeper.Transfer` sends, with its denom. msg_server.go:27-117 -/
def transferKeeper (msg : MsgTransfer) : KeeperM Ω MsgTransfer := do
  let st ← get
  let (sent, pair) := resolveDenom cosmos msg st
  convertMissing cosmos sent pair
  cosmos.ibcTransfer sent
  return sent

/-- approve_common.go:224-245 -/
def acceptGrant (contractCaller granter : Address) (msg : MsgTransfer) (a : Authorization) :
    Except Err AcceptResponse := do
  match a with
  | .transfer allocations =>
    let resp ← cosmos.acceptTransfer allocations msg
    if !resp.accept then
      throw (.errorf "authorization to %s for address %s is not accepted"
        [.addr contractCaller, .addr granter])
    return resp
  | _ => throw errUnknownAuthorizationType

/-- types.go:393-415 -/
def checkAndAcceptAuthorizationIfNeeded (msg : MsgTransfer) (c : Frame) (st : Store Ω) :
    Except Err (Option (AcceptResponse × Option ℤ)) :=
  if c.caller = c.origin then .ok none
  else match st.getAuthorization env c.caller c.origin transferMsgURL with
    | none => .error (Authorization.errAuthzDoesNotExistOrExpired (.addr c.caller) c.origin)
    | some (a, expiration) =>
      (acceptGrant cosmos c.caller c.origin msg a).map fun resp => some (resp, expiration)

/-- types.go:416-421, approve_common.go:248-266 -/
def updateGrantIfNeeded (accepted : Option (AcceptResponse × Option ℤ)) (c : Frame) :
    KeeperM Ω Unit :=
  match accepted with
  | none => pure ()
  | some (resp, expiration) =>
    if resp.delete then Authz.deleteGrant c.caller c.origin transferMsgURL
    else match resp.updated with
      | some updated => Authz.saveGrant env c.caller c.origin updated expiration
      | none => pure ()

/-- tx.go:27-101 -/
def transfer (msg : MsgTransfer) (c : Frame) : KeeperM Ω BalanceChanges := do
  KeeperM.check (cosmos.validateTransfer msg)
  KeeperM.read (checkChannel cosmos msg.sourcePort msg.sourceChannel)
  KeeperM.ensure (c.caller = msg.sender ∨ c.origin = msg.sender)
    (.errorf "origin address %s is not the same as sender address %s"
      [.addr c.origin, .addr msg.sender])
  let accepted ← KeeperM.read (checkAndAcceptAuthorizationIfNeeded env cosmos msg c)
  let sent ← transferKeeper cosmos msg
  updateGrantIfNeeded env accepted c
  if c.caller ≠ c.origin ∧ sent.token.denom = env.evmDenom then
    return [
      { account := msg.sender, amount := sent.token.amount, op := .sub },
      { account := cosmos.getEscrowAddress msg.sourcePort msg.sourceChannel
        amount := sent.token.amount
        op := .add }]
  else return []

/-- ics20.go:159-170 -/
def isTransaction (m : Method) : Bool :=
  m.name ∈ ["transfer", "approve", "revoke", "increaseAllowance", "decreaseAllowance"]

variable (abi : Abi Ω Call.name)

/-- The method switch of `Run`.
ics20.go:105-130 -/
def handleMethod (call : Call) (c : Frame) : KeeperM Ω BalanceChanges :=
  match call with
  | .approve grantee allocations => approve env cosmos grantee allocations c
  | .revoke grantee => revoke env grantee c
  | .increaseAllowance grantee port channel denom amount =>
    increaseAllowance env grantee port channel denom amount c
  | .decreaseAllowance grantee port channel denom amount =>
    decreaseAllowance env grantee port channel denom amount c
  | .transfer msg => transfer env cosmos msg c
  | .query name => do
    KeeperM.read (abi.query name c)
    return []
  | .unknown name => throw (.errorf "unknown method: %s" [.str name])

/-- The ICS20 precompile. -/
def precompile : Precompile Ω where
  address := 0x802
  guard := fun _ => none
  methodById := abi.methodById
  receive := none
  fallback := none
  isTransaction := isTransaction
  unpack := fun m bz =>
    (abi.unpack m bz).map fun call =>
      Handler.of (abi.emitted call) (handleMethod env cosmos abi call)

end TacEvm.Ics20
