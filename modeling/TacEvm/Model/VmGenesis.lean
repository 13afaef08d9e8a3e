import Mathlib.Data.FinEnum
import TacEvm.Model.VmParams

/-!
# The genesis state of `x/vm`

Export walks through the recorded code hashes and the storage of each address. The hash of the code
is not part of the genesis state and is computed again on import. The parameters are kept in the
`rest` of the application state.

SOURCE: x/vm/genesis.go, x/vm/types (genesis.go, storage.go, key.go), x/vm/keeper (statedb.go,
params.go)
-/

namespace TacEvm.Vm

open FallibleState
open Erc20Keeper (sortStrings)

structure State where
  key : Bytes
  value : Bytes
  deriving DecidableEq

structure GenesisAccount where
  address : Bytes
  code : Bytes
  storage : List State
  deriving DecidableEq

structure GenesisState where
  accounts : List GenesisAccount
  params : Params
  deriving DecidableEq

attribute [ext] GenesisState

/-- In the store of the module or, before it had any, in that of `x/params`. -/
structure ParamStore where
  params : Option Params
  legacyParams : Params

/-- The application state. -/
abbrev AppStore := Store ParamStore

/-- Code of the keeper. -/
abbrev VmM := KeeperM ParamStore

def errInvalidState : Err := .new "invalid storage state"

/-- `strings.TrimSpace`; of the blank characters those of ASCII. -/
def isBlank (c : UInt8) : Bool := c == 32 || (9 ≤ c && c ≤ 13)

def State.validate (s : State) : Except Err Unit :=
  if s.key.all isBlank then
    .error (errInvalidState.wrapf "state key hash cannot be blank" [])
  else .ok ()

/-- `Storage.Validate`, from the place `i` on, with the keys seen.
storage.go:17-31 -/
def validateStorage : (i : ℕ) → (seenStorage : List Bytes) → List State → Except Err Unit
  | _, _, [] => .ok ()
  | i, seenStorage, state :: states =>
    if state.key ∈ seenStorage then
      .error (errInvalidState.wrapf "duplicate state key %d: %s" [.num i, .str (quote state.key)])
    else do
      state.validate
      validateStorage (i + 1) (state.key :: seenStorage) states

def GenesisAccount.validate (ga : GenesisAccount) : Except Err Unit := do
  validateAddress ga.address
  validateStorage 0 [] ga.storage

/-- The loop of `GenesisState.Validate`, with the addresses seen. -/
def validateAccounts : (seenAccounts : List Bytes) → List GenesisAccount → Except Err Unit
  | _, [] => .ok ()
  | seenAccounts, acc :: accounts =>
    if acc.address ∈ seenAccounts then
      .error (.errorf "duplicated genesis account %s" [.str (quote acc.address)])
    else do
      acc.validate.mapError (Err.wrapf "invalid genesis account %s" [.str (quote acc.address)])
      validateAccounts (acc.address :: seenAccounts) accounts

/-- x/vm/types/genesis.go:36-49 -/
def GenesisState.validate (cfg : Config) (gs : GenesisState) : Except Err Unit := do
  validateAccounts [] gs.accounts
  gs.params.validate cfg

variable (st : AppStore)

def getParams : Params := st.rest.params.getD st.rest.legacyParams

/-- params.go:28-45 -/
def setParams (cfg : Config) (params : Params) : VmM Unit := do
  let params :=
    { params with activeStaticPrecompiles := sortStrings params.activeStaticPrecompiles }
  KeeperM.check (params.validate cfg)
  modify fun st => { st with rest := { st.rest with params := some params } }

def keyPrefixStorage : Bytes := [2]
def keyPrefixCodeHash : Bytes := [4]

def addressStoragePrefix (address : Address) : Bytes := keyPrefixStorage ++ addressBytes address

/-- What the callback is called with.
statedb.go:69-82 -/
def iterateContracts : List (Address × Hash) :=
  (OrderedKeys.entries (fun a b : Address => a ≤ b) st.codeHash).map fun entry =>
    (bytesToAddress (keyPrefixCodeHash ++ addressBytes entry.1), entry.2)

/-- What the callback is called with.
statedb.go:91-107 -/
def forEachStorage (addr : Address) : List (Hash × Hash) :=
  (OrderedKeys.entries (fun a b : Hash => a ≤ b) (st.storage addr)).map fun entry =>
    (bytesToHash (addressStoragePrefix addr ++ hashBytes entry.1), bytesToHash entry.2)

def newState (key value : Hash) : State := { key := hashHex key, value := hashHex value }

/-- x/vm/keeper/keeper.go:195-204 -/
def getAccountStorage (address : Address) : List State :=
  (forEachStorage st address).map fun entry => newState entry.1 entry.2

section

variable (env : Env) (cfg : Config)

/-- The account `ExportGenesis` writes for an address. -/
def genesisAccount (st : AppStore) (address : Address) (codeHash : Hash) : GenesisAccount where
  address := addressHex env address
  code := encodeHex ((st.getCode codeHash).getD [])
  storage := getAccountStorage st address

/-- x/vm/genesis.go:64-83 -/
def exportGenesis (st : AppStore) : GenesisState where
  accounts := (iterateContracts st).map fun entry => genesisAccount env st entry.1 entry.2
  params := getParams st

/-- The body of the loop of `InitGenesis`.
x/vm/genesis.go:34-58 -/
def importAccount (account : GenesisAccount) : VmM Unit := do
  let address := hexToAddress account.address
  let st ← get
  KeeperM.ensure (st.sequence address ≠ none)
    (.panic ("account not found for address " ++ quote account.address))
  let code := decodeHex account.code
  let codeHash := env.keccak256 code
  modify fun st =>
    if codeHash ≠ env.emptyCodeHash then st.setCodeHash address (some codeHash) else st
  modify fun st => if code.length ≠ 0 then st.setCode codeHash (some code) else st
  account.storage.forM fun storage =>
    modify fun st =>
      st.setState address (hexToHash storage.key) (hashBytes (hexToHash storage.value))

/-- The address of the module account is set. x/vm/genesis.go:18-61 -/
def initGenesis (data : GenesisState) : VmM Unit := do
  mapError (fun err => .panic ("error setting params " ++ err.format)) (setParams cfg data.params)
  data.accounts.forM (importAccount env)

end

end TacEvm.Vm
