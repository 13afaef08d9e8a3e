import Mathlib.Data.FinEnum
import TacEvm.Model.Erc20Keeper

/-!
# The genesis state of `x/erc20`

Validation compares the addresses of the pairs as they are written; the registry is keyed by the
bytes. Export walks through the pairs in the order of their identifiers.

SOURCE: x/erc20/types (genesis.go, token_pair.go), x/erc20/genesis.go
-/

namespace TacEvm.Erc20Keeper

open FallibleState

structure GenesisState where
  params : Params
  tokenPairs : List TokenPair
  deriving DecidableEq

def isLetter (c : UInt8) : Bool := (65 ≤ c && c ≤ 90) || (97 ≤ c && c ≤ 122)

/-- Letters, digits and `/`, `:`, `.`, `_`, `-`. -/
def isDenomCharacter (c : UInt8) : Bool :=
  isLetter c || (48 ≤ c && c ≤ 57) || c == 47 || c == 58 || c == 46 || c == 95 || c == 45

/-- `sdk.ValidateDenom`, with the default expression. -/
def validateDenom (denom : Bytes) : Except Err Unit :=
  if denom.head?.any isLetter && denom.tail.all isDenomCharacter && decide (3 ≤ denom.length) &&
      decide (denom.length ≤ 128) then .ok ()
  else .error (.errorf "invalid denom: %s" [.str (quote denom)])

/-- token_pair.go:54-60 -/
def TokenPair.validate (tp : TokenPair) : Except Err Unit := do
  validateDenom tp.denom
  validateAddress tp.erc20Address

/-- The loop of `Validate`, with the texts it has seen. -/
def validateTokenPairs : (seenErc20 seenDenom : List Bytes) → List TokenPair → Except Err Unit
  | _, _, [] => .ok ()
  | seenErc20, seenDenom, b :: pairs =>
    if b.erc20Address ∈ seenErc20 then
      .error (.errorf "token ERC20 contract duplicated on genesis '%s'"
        [.str (quote b.erc20Address)])
    else if b.denom ∈ seenDenom then
      .error (.errorf "coin denomination duplicated on genesis: '%s'" [.str (quote b.denom)])
    else do
      b.validate
      validateTokenPairs (b.erc20Address :: seenErc20) (b.denom :: seenDenom) pairs

def hasActiveTokenPair (pairs : List TokenPair) (address : Bytes) : Bool :=
  pairs.any fun p => p.erc20Address == address && p.enabled

/-- `validatePrecompiles` of the genesis state. -/
def validateActive (tokenPairs : List TokenPair) : List Bytes → Except Err Unit
  | [] => .ok ()
  | precompile :: precompiles =>
    if hasActiveTokenPair tokenPairs precompile then validateActive tokenPairs precompiles
    else .error (.errorf "precompile address '%s' not found in token pairs"
      [.str (quote precompile)])

/-- x/erc20/types/genesis.go:27-61 -/
def GenesisState.validate (gs : GenesisState) : Except Err Unit := do
  validateTokenPairs [] [] gs.tokenPairs
  gs.params.validate.mapError (Err.wrapf "invalid params on genesis" [])
  (validateActive gs.tokenPairs gs.params.dynamicPrecompiles).mapError
    (Err.wrapf "invalid dynamic precompiles on genesis" [])
  (validateActive gs.tokenPairs gs.params.nativePrecompiles).mapError
    (Err.wrapf "invalid native precompiles on genesis" [])

/-- `GetModuleAccount` makes the account, and panics if there is another. `isModuleAccount` tells
the module accounts of before the import. -/
def getModuleAccount (isModuleAccount : Address → Bool) (moduleAddress : Address) :
    Erc20M Unit := do
  let st ← get
  if st.sequence moduleAddress = none then set (st.setSequence moduleAddress (some 0))
  else if isModuleAccount moduleAddress then pure ()
  else throw (.panic "account is not a module account")

/-- `InitGenesis`, for a module with this address.
x/erc20/genesis.go:14-34 -/
def initGenesis (env : Env) (cfg : Config) (isModuleAccount : Address → Bool)
    (moduleAddress : Address) (data : GenesisState) : Erc20M Unit := do
  mapError (fun err => .panic ("error setting params " ++ err.format))
    (setParams env cfg data.params)
  getModuleAccount isModuleAccount moduleAddress
  data.tokenPairs.forM (setToken cfg)

/-- x/erc20/keeper/token_pairs.go:34-59 -/
def getTokenPairs (st : AppStore) : List TokenPair :=
  (OrderedKeys.entries (fun a b : Hash => a ≤ b) st.rest.tokenPairs).map Prod.snd

/-- x/erc20/genesis.go:37-42 -/
def exportGenesis (st : AppStore) : Except Err GenesisState := do
  let params ← getParams st
  return { params := params, tokenPairs := getTokenPairs st }

end TacEvm.Erc20Keeper
