import TacEvm.Model.Chain
import TacEvm.Model.Erc20Keeper

/-!
# The parameters of `x/vm`

The parameters of the module, and the policy that decides from the access control lists who may
create contracts and who may call, by looking for the text of an address in the list.

SOURCE: x/vm/types (params.go, permissions.go), x/vm/keeper/params.go, types/validation.go
-/

namespace TacEvm.Vm

open Erc20Keeper (isSorted sortStrings)

/-- An enumeration on the wire, which may have any value. -/
structure AccessControlType where
  accessType : ℤ
  accessControlList : List Bytes
  deriving DecidableEq

structure AccessControl where
  create : AccessControlType
  call : AccessControlType
  deriving DecidableEq

structure Params where
  extraEIPs : List ℤ
  allowUnprotectedTxs : Bool
  activeStaticPrecompiles : List Bytes
  evmChannels : List Bytes
  accessControl : AccessControl
  deriving DecidableEq

/-- What the validation asks go-ethereum and IBC. -/
structure Config where
  validEip : ℤ → Bool
  activateableEips : List Arg
  channelIdentifierValidator : Bytes → Except Err Unit

/-- The access type of a value. -/
def accessTypeOf (n : ℤ) : Option AccessType :=
  if n = 0 then some .permissionless
  else if n = 1 then some .restricted
  else if n = 2 then some .permissioned
  else none

def errInvalidChannelIdentifier : Err := .new "invalid channel identifier"

def validateAccessType (accessType : ℤ) : Except Err Unit :=
  match accessTypeOf accessType with
  | some _ => .ok ()
  | none => .error (.errorf "invalid access type: %s" [.num accessType])

def validateAllowlistAddresses : List Bytes → Except Err Unit
  | [] => .ok ()
  | address :: addresses =>
    match validateAddress address with
    | .error _ => .error (.errorf "invalid whitelist address: %s" [.str (quote address)])
    | .ok () => validateAllowlistAddresses addresses

/-- x/vm/types/params.go:144-149 -/
def AccessControlType.validate (act : AccessControlType) : Except Err Unit := do
  validateAccessType act.accessType
  validateAllowlistAddresses act.accessControlList

def AccessControl.validate (ac : AccessControl) : Except Err Unit := do
  ac.create.validate
  ac.call.validate

/-- `validateEIPs`, with the ones seen. -/
def validateEIPs (cfg : Config) : (seen eips : List ℤ) → Except Err Unit
  | _, [] => .ok ()
  | seen, eip :: eips =>
    if !cfg.validEip eip then
      .error (.errorf "EIP %d is not activateable, valid EIPs are: %s"
        (.num eip :: cfg.activateableEips))
    else if eip ∈ seen then .error (.errorf "found duplicate EIP: %d" [.num eip])
    else validateEIPs cfg (eip :: seen) eips

/-- The loop of `ValidatePrecompiles`. -/
def validatePrecompileTexts : (seen precompiles : List Bytes) → Except Err Unit
  | _, [] => .ok ()
  | seen, precompile :: precompiles =>
    if precompile ∈ seen then .error (.errorf "duplicate precompile %s" [.str (quote precompile)])
    else
      match validateAddress precompile with
      | .error _ => .error (.errorf "invalid precompile %s" [.str (quote precompile)])
      | .ok () => validatePrecompileTexts (precompile :: seen) precompiles

/-- x/vm/types/params.go:211-237 -/
def validatePrecompiles (precompiles : List Bytes) : Except Err Unit := do
  validatePrecompileTexts [] precompiles
  if isSorted precompiles then .ok ()
  else .error (.errorf "precompiles need to be sorted: %s"
    (precompiles.map fun s => .str (quote s)))

def validateChannels (cfg : Config) : List Bytes → Except Err Unit
  | [] => .ok ()
  | channel :: channels =>
    match cfg.channelIdentifierValidator channel with
    | .error e => .error (errInvalidChannelIdentifier.quote "" e)
    | .ok () => validateChannels cfg channels

/-- x/vm/types/params.go:92-110 -/
def Params.validate (cfg : Config) (p : Params) : Except Err Unit := do
  validateEIPs cfg [] p.extraEIPs
  validatePrecompiles p.activeStaticPrecompiles
  p.accessControl.validate
  validateChannels cfg p.evmChannels

section

variable (env : Env)

/-- permissions.go:123-130 -/
def permissionlessCheckFn (addresses : List Bytes) (signer caller : Address) : Bool :=
  decide (addressHex env signer ∉ addresses) && decide (addressHex env caller ∉ addresses)

/-- permissions.go:134-141 -/
def permissionedCheckFn (addresses : List Bytes) (signer caller : Address) : Bool :=
  decide (addressHex env signer ∈ addresses) || decide (addressHex env caller ∈ addresses)

/-- `getCanCreateFn` and `getCanCallFn`, for their lists.
permissions.go:84-96, permissions.go:107-119 -/
def checkFn (act : AccessControlType) (signer caller : Address) : Bool :=
  match accessTypeOf act.accessType with
  | some .permissionless => permissionlessCheckFn env act.accessControlList signer caller
  | some .restricted => false
  | some .permissioned => permissionedCheckFn env act.accessControlList signer caller
  | none => false

/-- `CanCreate` of a policy made for the signer. -/
def canCreate (accessControl : AccessControl) (signer caller : Address) : Bool :=
  checkFn env accessControl.create signer caller

/-- `CanCall` of a policy made for the signer. -/
def canCall (accessControl : AccessControl) (signer caller _recipient : Address) : Bool :=
  checkFn env accessControl.call signer caller

end

end TacEvm.Vm
