import TacEvm.Model.VmGenesis

/-!
# Static precompiles

The keeper is set up with instances, of any type `P`, of the precompiles that are compiled in. An
address is active if its text is in the list of the parameters; an active address without an
instance is a panic.

SOURCE: x/vm/keeper (static_precompiles.go, params.go:54-88), x/vm/types (params.go:123-129,
precompiles.go), evmd/precompiles.go:39-123
-/

namespace TacEvm.Vm

open FallibleState
open Erc20Keeper (sortStrings)

def precompiledAddressesBerlin : List Address := [1, 2, 3, 4, 5, 6, 7, 8, 9]

def p256PrecompileAddress : Bytes := ascii "0x0000000000000000000000000000000000000100".toList
def bech32PrecompileAddress : Bytes := ascii "0x0000000000000000000000000000000000000400".toList
def stakingPrecompileAddress : Bytes := ascii "0x0000000000000000000000000000000000000800".toList
def distributionPrecompileAddress : Bytes :=
  ascii "0x0000000000000000000000000000000000000801".toList
def ics20PrecompileAddress : Bytes := ascii "0x0000000000000000000000000000000000000802".toList
def vestingPrecompileAddress : Bytes := ascii "0x0000000000000000000000000000000000000803".toList
def bankPrecompileAddress : Bytes := ascii "0x0000000000000000000000000000000000000804".toList
def govPrecompileAddress : Bytes := ascii "0x0000000000000000000000000000000000000805".toList
def slashingPrecompileAddress : Bytes := ascii "0x0000000000000000000000000000000000000806".toList
def evidencePrecompileAddress : Bytes := ascii "0x0000000000000000000000000000000000000807".toList

/-- The genesis state of `evmd` activates them.
x/vm/types/precompiles.go:23-34, evmd/genesis.go:25-30 -/
def availableStaticPrecompiles : List Bytes :=
  [p256PrecompileAddress, bech32PrecompileAddress, stakingPrecompileAddress,
    distributionPrecompileAddress, ics20PrecompileAddress, vestingPrecompileAddress,
    bankPrecompileAddress, govPrecompileAddress, slashingPrecompileAddress,
    evidencePrecompileAddress]

/-- x/vm/types/params.go:123-129 -/
def Params.getActiveStaticPrecompilesAddrs (p : Params) : List Address :=
  p.activeStaticPrecompiles.map hexToAddress

section

variable {P : Type}

/-- The contracts of Berlin and of the application, without vesting.
evmd/precompiles.go:39-123 -/
def newAvailableStaticPrecompiles (contract : Address → P) : Address → Option P := fun a =>
  if a ∈ precompiledAddressesBerlin ∨
      a ∈ [0x400, 0x100, 0x800, 0x801, 0x802, 0x804, 0x805, 0x806, 0x807] then some (contract a)
  else none

variable (env : Env) (precompiles : Address → Option P)

/-- static_precompiles.go:44-47 -/
def isAvailableStaticPrecompile (params : Params) (address : Address) : Bool :=
  decide (addressHex env address ∈ params.activeStaticPrecompiles) ||
    decide (address ∈ precompiledAddressesBerlin)

/-- Addresses that are not available have no instance. static_precompiles.go:28-39 -/
def getStaticPrecompileInstance (params : Params) (address : Address) : Except Err (Option P) :=
  if isAvailableStaticPrecompile env params address then
    match precompiles address with
    | none => .error (.panic ("precompiled contract not stored in memory: " ++
        quote (addressHex env address)))
    | some precompile => .ok (some precompile)
  else .ok none

end

section

variable (env : Env) (cfg : Config)

/-- x/vm/keeper/params.go:70-88 -/
def appendPrecompiles (existingPrecompiles : List Bytes) (addresses : List Address) :
    Except Err (List Bytes) := do
  let hexAddresses ← addresses.mapM fun address =>
    let addrHex := addressHex env address
    if addrHex ∈ existingPrecompiles then
      .error (.errorf "precompile already registered: %s" [.str (quote addrHex)])
    else .ok addrHex
  return sortStrings (existingPrecompiles ++ hexAddresses)

/-- x/vm/keeper/params.go:56-68 -/
def enableStaticPrecompiles (addresses : List Address) : VmM Unit := do
  let params := getParams (← get)
  let updatedPrecompiles ← KeeperM.check
    (appendPrecompiles env params.activeStaticPrecompiles addresses)
  setParams cfg { params with activeStaticPrecompiles := updatedPrecompiles }

end

end TacEvm.Vm
