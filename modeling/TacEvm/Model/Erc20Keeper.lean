import TacEvm.Library.FixedWidth
import TacEvm.Model.Cosmos
import TacEvm.Model.Hex

/-!
# The `x/erc20` keeper

The parameters are the enable flag and two lists of addresses, each stored as the concatenation of
its strings. The registry are the token pairs by identifier, and two maps from denoms and contracts
to identifiers. The store of the module is the `rest` of the application state.

SOURCE: x/erc20/keeper (params.go, dynamic_precompiles.go, token_pairs.go, proposals.go),
x/erc20/types (params.go, token_pair.go)
-/

namespace TacEvm.Erc20Keeper

open FallibleState

structure Params where
  enableErc20 : Bool
  nativePrecompiles : List Bytes
  dynamicPrecompiles : List Bytes
  deriving DecidableEq

/-- `slices.Sort` on strings, which compares them byte by byte. -/
def sortStrings (l : List Bytes) : List Bytes := l.insertionSort (· ≤ ·)

def isSorted (l : List Bytes) : Bool := decide (l.Pairwise (· ≤ ·))

def newParams (enableErc20 : Bool) (nativePrecompiles dynamicPrecompiles : List Bytes) :
    Params where
  enableErc20 := enableErc20
  nativePrecompiles := sortStrings nativePrecompiles
  dynamicPrecompiles := sortStrings dynamicPrecompiles

/-- The loop of `ValidatePrecompiles`. -/
def validateAddresses : List Bytes → Except Err (List Address)
  | [] => .ok []
  | precompile :: precompiles =>
    if isHexAddress precompile then
      (validateAddresses precompiles).map fun addrs => hexToAddress precompile :: addrs
    else .error (.errorf "invalid precompile %s" [.str (quote precompile)])

/-- The addresses of the list, if all are valid and in order. -/
def validatePrecompiles (precompiles : List Bytes) : Except Err (List Address) := do
  let addrs ← validateAddresses precompiles
  if isSorted precompiles then .ok addrs
  else .error (.errorf "precompiles need to be sorted: %s"
    (precompiles.map fun s => .str (quote s)))

/-- The source keeps the seen addresses by their text. -/
def validatePrecompilesUniqueness : (seen precompiles : List Address) → Except Err Unit
  | _, [] => .ok ()
  | seen, precompile :: precompiles =>
    if precompile ∈ seen then .error (.errorf "duplicate precompile %s" [.addr precompile])
    else validatePrecompilesUniqueness (precompile :: seen) precompiles

def Params.validate (p : Params) : Except Err Unit := do
  let npAddrs ← validatePrecompiles p.nativePrecompiles
  let dpAddrs ← validatePrecompiles p.dynamicPrecompiles
  validatePrecompilesUniqueness [] (dpAddrs ++ npAddrs)

/-! ## The store of the module -/

structure TokenPair where
  erc20Address : Bytes
  denom : Bytes
  enabled : Bool
  contractOwner : Owner
  deriving DecidableEq

/-- `banktypes.Metadata`, without the fields the module leaves empty. -/
structure Metadata where
  description : Bytes
  /-- Denom and exponent of every unit. -/
  denomUnits : List (Bytes × ℕ)
  base : Bytes
  display : Bytes
  name : Bytes
  symbol : Bytes
  deriving DecidableEq

structure ERC20Data where
  name : Bytes
  symbol : Bytes
  decimals : UInt8

/-- The store of `x/erc20`, and the denom metadata of the bank. A slice has spare capacity beyond
its length, which a slice expression can reach. -/
structure Erc20Store where
  enableErc20 : Bool
  dynamicPrecompiles : Bytes
  dynamicSpare : Bytes
  nativePrecompiles : Bytes
  nativeSpare : Bytes
  tokenPairs : Hash → Option TokenPair
  denomMap : Bytes → Option Hash
  erc20Map : Address → Option Hash
  denomMetaData : Bytes → Option Metadata

/-- What the keeper is set up with, and asks other modules. -/
structure Config where
  /-- `tmhash.Sum`, which is SHA-256. -/
  tmhash : Bytes → Hash
  /-- `common.FromHex(types.Erc20Bytecode)`. -/
  erc20Bytecode : Bytes
  /-- Three calls of the contract that are not committed. -/
  queryERC20 : Address → Store Erc20Store → Except Err ERC20Data
  /-- `types.SanitizeERC20Name`. -/
  sanitizeERC20Name : Bytes → Bytes
  /-- `Metadata.Validate`. -/
  validateMetadata : Metadata → Except Err Unit

/-- The application state, with the store of `x/erc20`. -/
abbrev AppStore := Store Erc20Store

/-- Code of the keeper. -/
abbrev Erc20M := KeeperM Erc20Store

/-- A write to the store of the module. -/
def modifyErc20 (f : Erc20Store → Erc20Store) : Erc20M Unit :=
  modify fun st => { st with rest := f st.rest }

/-! ## Reading and writing the parameters -/

def addressLength : ℕ := 42

/-- The loops of `getDynamicPrecompiles` and `getNativePrecompiles`. The last piece is filled from
spare capacity, or panics. -/
def getPrecompiles (bz spare : Bytes) : Except Err (List Bytes) :=
  let missing := (addressLength - bz.length % addressLength) % addressLength
  match FixedWidth.records addressLength (bz ++ spare.take missing) with
  | some precompiles => .ok precompiles
  | none => .error (.panic "runtime error: slice bounds out of range")

/-- The loops of `setDynamicPrecompiles` and `setNativePrecompiles`. -/
def setPrecompiles (precompiles : List Bytes) : Bytes := precompiles.flatten

/-- What they leave of the capacity they have asked for. -/
def spareCapacity (precompiles : List Bytes) : Bytes :=
  List.replicate (addressLength * precompiles.length - (setPrecompiles precompiles).length) 0

def getDynamicPrecompiles (st : AppStore) : Except Err (List Bytes) :=
  getPrecompiles st.rest.dynamicPrecompiles st.rest.dynamicSpare

def getNativePrecompiles (st : AppStore) : Except Err (List Bytes) :=
  getPrecompiles st.rest.nativePrecompiles st.rest.nativeSpare

def getParams (st : AppStore) : Except Err Params := do
  let dynamicPrecompiles ← getDynamicPrecompiles st
  let nativePrecompiles ← getNativePrecompiles st
  return newParams st.rest.enableErc20 nativePrecompiles dynamicPrecompiles

section

variable (env : Env) (cfg : Config)

/-- The code hash of the ERC20 precompiles. -/
def erc20CodeHash : Hash := env.keccak256 cfg.erc20Bytecode

/-- Sets the code hash of an account and keeps the rest. -/
def setCodeHashOf (addr : Address) (codeHash : Hash) : Erc20M Unit := do
  let st ← get
  match st.getAccount env addr with
  | some acc => Keeper.setAccount env addr { acc with codeHash := codeHash }
  | none => Keeper.setAccount env addr { nonce := 0, balance := 0, codeHash := codeHash }

/-- dynamic_precompiles.go:40-68 -/
def registerERC20CodeHash (addr : Address) : Erc20M Unit := do
  modify fun st =>
    if (st.getCode (erc20CodeHash env cfg)).getD [] = [] then
      st.setCode (erc20CodeHash env cfg) (some cfg.erc20Bytecode)
    else st
  setCodeHashOf env addr (erc20CodeHash env cfg)

/-- dynamic_precompiles.go:71-89 -/
def unRegisterERC20CodeHash (addr : Address) : Erc20M Unit :=
  setCodeHashOf env addr env.emptyCodeHash

/-- The lists are compared as strings.
x/erc20/keeper/params.go:49-71 -/
def registerOrUnregisterERC20CodeHashes (oldPrecompiles newPrecompiles : List Bytes) :
    Erc20M Unit := do
  (oldPrecompiles.filter (· ∉ newPrecompiles)).forM fun precompile =>
    unRegisterERC20CodeHash env (hexToAddress precompile)
  (newPrecompiles.filter (· ∉ oldPrecompiles)).forM fun precompile =>
    registerERC20CodeHash env cfg (hexToAddress precompile)

/-- x/erc20/keeper/params.go:32-41 -/
def updateCodeHash (newParams : Params) : Erc20M Unit := do
  let oldNativePrecompiles ← KeeperM.read getNativePrecompiles
  let oldDynamicPrecompiles ← KeeperM.read getDynamicPrecompiles
  registerOrUnregisterERC20CodeHashes env cfg oldDynamicPrecompiles newParams.dynamicPrecompiles
  registerOrUnregisterERC20CodeHashes env cfg oldNativePrecompiles newParams.nativePrecompiles

/-- x/erc20/keeper/params.go:74-91 -/
def setParams (params : Params) : Erc20M Unit := do
  let newParams := newParams params.enableErc20 params.nativePrecompiles params.dynamicPrecompiles
  KeeperM.check newParams.validate
  updateCodeHash env cfg newParams
  modifyErc20 fun store =>
    { store with
      enableErc20 := newParams.enableErc20
      dynamicPrecompiles := setPrecompiles newParams.dynamicPrecompiles
      dynamicSpare := spareCapacity newParams.dynamicPrecompiles
      nativePrecompiles := setPrecompiles newParams.nativePrecompiles
      nativeSpare := spareCapacity newParams.nativePrecompiles }

/-- `appendPrecompiles`, for one address. -/
def appendPrecompile (existingPrecompiles : List Bytes) (address : Address) :
    Except Err (List Bytes) :=
  if addressHex env address ∈ existingPrecompiles then
    .error (.errorf "attempted to register a duplicate precompile address: %s"
      [.str (quote (addressHex env address))])
  else .ok (sortStrings (existingPrecompiles ++ [addressHex env address]))

/-- `EnableDynamicPrecompiles`, for one address. -/
def enableDynamicPrecompile (address : Address) : Erc20M Unit := do
  let params ← KeeperM.read getParams
  let updatedPrecompiles ← KeeperM.check (appendPrecompile env params.dynamicPrecompiles address)
  setParams env cfg { params with dynamicPrecompiles := updatedPrecompiles }

end

def errInternalTokenPair : Err := .new "internal ethereum token mapping error"
def errTokenPairNotFound : Err := .new "token pair not found"
def errTokenPairAlreadyExists : Err := .new "token pair already exists"
def errInvalidDenomForTransfer : Err := .new "invalid denomination for cross-chain transfer"

/-- The text whose hash identifies a pair. -/
def TokenPair.idText (tp : TokenPair) : Bytes := tp.erc20Address ++ ascii "|".toList ++ tp.denom

def TokenPair.getID (cfg : Config) (tp : TokenPair) : Hash := cfg.tmhash tp.idText

def TokenPair.getERC20Contract (tp : TokenPair) : Address := hexToAddress tp.erc20Address

/-- `ParseHexHash` of ICS20: the bytes of a hash, or no bytes. -/
def parseHexHash (hexHash : Bytes) : Except Err Bytes := do
  let hash ← decodeString hexHash
  if 0 < hash.length ∧ hash.length ≠ 32 then
    .error (.errorf "expected size to be %d bytes, got %d bytes" [.num 32, .num hash.length])
  else .ok hash

/-- Of the blank characters those of ASCII are modelled. utils/utils.go:123-139 -/
def getIBCDenomAddress (denom : Bytes) : Except Err Address :=
  if !(ascii "ibc/".toList).isPrefixOf denom then
    .error (errInvalidDenomForTransfer.wrapf "coin %s does not have 'ibc/' prefix"
      [.str (quote denom)])
  else if denom.length < 5 ∨ (denom.drop 4).all fun c => c == 32 || (9 ≤ c && c ≤ 13) then
    .error (errInvalidDenomForTransfer.wrapf "coin %s is not a valid IBC voucher hash"
      [.str (quote denom)])
  else
    match parseHexHash (denom.drop 4) with
    | .error (.errorf format args) => .error (errInvalidDenomForTransfer.wrapf format args)
    | .error e => .error e
    | .ok bz => .ok (bytesToAddress bz)

section

variable (env : Env) (cfg : Config)

variable (denom : Bytes)

def newTokenPairSTRv2 : Except Err TokenPair := do
  let address ← getIBCDenomAddress denom
  return {
    erc20Address := addressHex env address
    denom := denom
    enabled := true
    contractOwner := .module }

def newTokenPair (erc20Address : Address) (denom : Bytes) (contractOwner : Owner) : TokenPair where
  erc20Address := addressHex env erc20Address
  denom := denom
  enabled := true
  contractOwner := contractOwner

/-- token_pairs.go:61-69 -/
def getTokenPairID (token : Bytes) (st : AppStore) : Option Hash :=
  if isHexAddress token then st.rest.erc20Map (hexToAddress token)
  else st.rest.denomMap token

def getTokenPair (id : Option Hash) (st : AppStore) : Option TokenPair :=
  id.bind st.rest.tokenPairs

def setTokenPair (tokenPair : TokenPair) : Erc20M Unit :=
  modifyErc20 fun store =>
    { store with
      tokenPairs := Function.update store.tokenPairs (tokenPair.getID cfg) (some tokenPair) }

/-- `SetDenomMap`, and `deleteDenomMap` for no identifier. -/
def setDenomMap (id : Option Hash) : Erc20M Unit :=
  modifyErc20 fun store => { store with denomMap := Function.update store.denomMap denom id }

/-- `SetERC20Map`, and `deleteERC20Map` for no identifier. -/
def setERC20Map (erc20 : Address) (id : Option Hash) : Erc20M Unit :=
  modifyErc20 fun store => { store with erc20Map := Function.update store.erc20Map erc20 id }

/-- token_pairs.go:27-31 -/
def setToken (pair : TokenPair) : Erc20M Unit := do
  setTokenPair cfg pair
  setDenomMap pair.denom (some (pair.getID cfg))
  setERC20Map pair.getERC20Contract (some (pair.getID cfg))

/-- token_pairs.go:97-108 -/
def deleteTokenPair (tokenPair : TokenPair) : Erc20M Unit := do
  modifyErc20 fun store =>
    { store with tokenPairs := Function.update store.tokenPairs (tokenPair.getID cfg) none }
  setERC20Map tokenPair.getERC20Contract none
  setDenomMap tokenPair.denom none

def createDenom (address : Bytes) : Bytes := ascii "erc20/".toList ++ address

def createDenomDescription (address : Bytes) : Bytes :=
  ascii "Cosmos coin token representation of ".toList ++ address

/-- The metadata of the coin of a contract. -/
def coinMetadata (strContract : Bytes) (erc20Data : ERC20Data) : Metadata :=
  let base := createDenom strContract
  -- units with exponent zero are not accepted after the first
  let display :=
    if 0 < erc20Data.decimals then some (cfg.sanitizeERC20Name erc20Data.name) else none
  { description := createDenomDescription strContract
    denomUnits := (base, 0) :: display.toList.map fun denom => (denom, erc20Data.decimals.toNat)
    base := base
    display := display.getD base
    name := createDenom strContract
    symbol := erc20Data.symbol }

/-- proposals.go:43-111 -/
def createCoinMetadata (contract : Address) : Erc20M Metadata := do
  let strContract := addressHex env contract
  let erc20Data ← KeeperM.read (cfg.queryERC20 contract)
  let st ← get
  KeeperM.ensure (st.rest.denomMetaData (createDenom strContract) = none)
    (errInternalTokenPair.wrapf "denom metadata already registered" [])
  KeeperM.ensure (st.rest.denomMap (createDenom strContract) = none)
    (errInternalTokenPair.wrapf "coin denomination already registered: %s"
      [.str (quote erc20Data.name)])
  let metadata := coinMetadata cfg strContract erc20Data
  mapError (.wrapf "ERC20 token data is invalid for contract %s" [.str (quote strContract)])
    (KeeperM.check (cfg.validateMetadata metadata))
  modifyErc20 fun store =>
    { store with
      denomMetaData := Function.update store.denomMetaData metadata.base (some metadata) }
  return metadata

/-- proposals.go:18-39 -/
def registerERC20 (contract : Address) : Erc20M TokenPair := do
  let st ← get
  KeeperM.ensure (st.rest.erc20Map contract = none)
    (errTokenPairAlreadyExists.wrapf "token ERC20 contract already registered: %s"
      [.str (quote (addressHex env contract))])
  let metadata ← mapError (.wrapf "failed to create wrapped coin denom metadata for ERC20" [])
    (createCoinMetadata env cfg contract)
  let pair := newTokenPair env contract metadata.name .external
  setToken cfg pair
  return pair

/-- proposals.go:112-135 -/
def toggleConversion (token : Bytes) : Erc20M TokenPair := do
  let st ← get
  match getTokenPairID token st with
  | none => throw (errTokenPairNotFound.wrapf "token '%s' not registered by id"
      [.str (quote token)])
  | some id =>
    match getTokenPair (some id) st with
    | none => throw (errTokenPairNotFound.wrapf "token '%s' not registered" [.str (quote token)])
    | some pair =>
      let pair := { pair with enabled := !pair.enabled }
      setTokenPair cfg pair
      return pair

def createNewTokenPair : Erc20M TokenPair := do
  let pair ← KeeperM.check (newTokenPairSTRv2 env denom)
  setToken cfg pair
  return pair

/-- dynamic_precompiles.go:23-36 -/
def registerERC20Extension : Erc20M TokenPair := do
  let pair ← createNewTokenPair env cfg denom
  enableDynamicPrecompile env cfg pair.getERC20Contract
  return pair

end

end TacEvm.Erc20Keeper
