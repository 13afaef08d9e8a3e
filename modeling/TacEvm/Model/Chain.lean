import TacEvm.Model.Cosmos
import TacEvm.Model.TxData

/-!
# The chain around a transaction

`Chain` is what the transactions of one block find fixed, with the functions of go-ethereum that are
not modelled; `ChainState` is what they change. The counters of transactions and logs are unbounded;
those of gas are 64 bits wide.

SOURCE: x/vm/keeper/keeper.go:138-322, x/vm/wrappers/feemarket.go, x/feemarket/keeper
(keeper.go:62-92, abci.go:50-92), types (block.go, gasmeter.go)
-/

namespace TacEvm

open FallibleState

/-! ## Decimals of the SDK -/

/-- A number with 18 decimals, by its digits. -/
structure LegacyDec where
  digits : ℤ
  deriving DecidableEq

namespace LegacyDec

def precision : ℤ := 1000000000000000000

/-- `LegacyNewDec`. -/
def newDec (n : ℤ) : LegacyDec := ⟨n * precision⟩

/-- `chopPrecisionAndRound`, for what is not negative. -/
def chopAndRound (d : ℤ) : ℤ :=
  let quo := d / precision
  let rem := d % precision
  if 2 * rem < precision then quo
  else if precision < 2 * rem then quo + 1
  else if quo % 2 = 0 then quo
  else quo + 1

def mul (a b : LegacyDec) : LegacyDec :=
  let product := a.digits * b.digits
  ⟨if product < 0 then -chopAndRound (-product) else chopAndRound product⟩

def mulInt (a : LegacyDec) (n : ℤ) : LegacyDec := ⟨a.digits * n⟩

def truncateInt (a : LegacyDec) : ℤ := a.digits.tdiv precision

/-- `LegacyDec.String`. -/
def text (a : LegacyDec) : String :=
  let whole := a.digits.natAbs / precision.natAbs
  let decimals := toString (a.digits.natAbs % precision.natAbs)
  (if a.digits < 0 then "-" else "") ++ toString whole ++ "." ++
    String.ofList (List.replicate (18 - decimals.length) '0') ++ decimals

/-- `LegacyMaxDec`. -/
def max (a b : LegacyDec) : LegacyDec := if a.digits < b.digits then b else a

end LegacyDec

/-! ## What a block finds fixed -/

/-- `params.Rules`, those that are looked at. -/
structure Rules where
  isHomestead : Bool
  isIstanbul : Bool
  isBerlin : Bool
  isLondon : Bool

inductive AccessType
  | permissionless
  | restricted
  | permissioned
  deriving DecidableEq

/-- `evmtypes.Params`, what the ante handler looks at. -/
structure EvmParams where
  allowUnprotectedTxs : Bool
  /-- `AccessControl.Create.AccessType`. -/
  create : AccessType
  /-- `AccessControl.Call.AccessType`. -/
  call : AccessType

/-- `feemarkettypes.Params`, without what the base fee depends on. -/
structure FeeMarketParams where
  noBaseFee : Bool
  baseFee : Option LegacyDec
  enableHeight : ℤ
  minGasPrice : LegacyDec
  minGasMultiplier : LegacyDec

/-- The chain in one block. -/
structure Chain where
  env : Env
  rules : Rules
  evmParams : EvmParams
  feeMarketParams : FeeMarketParams
  /-- The base fee in the old format of the store. -/
  baseFeeV1 : Option ℤ
  height : ℤ
  headerHash : Hash
  /-- `ConsensusParams().Block.MaxGas`. -/
  maxGas : Option ℤ
  /-- `MinGasPrices` of the node, in the EVM denom. -/
  minGasPrices : LegacyDec
  /-- `maxGasWanted` of the decorator. -/
  maxGasWanted : UInt64
  /-- The account of the fee collector. -/
  feeCollector : Address
  /-- `GetCoinbaseAddress` of the proposer. -/
  coinbase : Except Err Address
  /-- `Signer.Sender`. -/
  sender : TxData → Except Err Address
  /-- `Transaction.Protected`. -/
  isProtected : TxData → Bool
  /-- `Transaction.Hash`. -/
  txHash : TxData → Hash
  /-- `core.IntrinsicGas`: data, access list, and whether it creates. -/
  intrinsicGas : Bytes → EthAccessList → Bool → Except Err UInt64

namespace Chain

variable (chain : Chain)

/-- `FeeMarketKeeper.GetBaseFee`.
x/feemarket/keeper/params.go:58-74 -/
def feeMarketBaseFee : Option LegacyDec :=
  if chain.feeMarketParams.noBaseFee then none
  else
    match chain.feeMarketParams.baseFee with
    | some baseFee =>
      if baseFee.digits = 0 then chain.baseFeeV1.map LegacyDec.newDec else some baseFee
    | none => chain.baseFeeV1.map LegacyDec.newDec

/-- `Keeper.GetBaseFee`, in 18 decimals.
x/vm/keeper/keeper.go:271-282, feemarket.go:33-39 -/
def getBaseFee : Option ℤ :=
  if !chain.rules.isLondon then none
  else
    match chain.feeMarketBaseFee with
    | none => some 0
    | some baseFee => some (baseFee.mulInt chain.env.conversionFactor).truncateInt

/-- `Keeper.GetMinGasPrice`, in 18 decimals. -/
def getMinGasPrice : LegacyDec :=
  chain.feeMarketParams.minGasPrice.mulInt chain.env.conversionFactor

def getBaseFeeEnabled : Bool :=
  !chain.feeMarketParams.noBaseFee && decide (chain.feeMarketParams.enableHeight ≤ chain.height)

end Chain

/-- The transient stores of `x/vm` and `x/feemarket`. -/
structure Transient where
  bloom : ℕ
  txIndex : ℕ
  logSize : ℕ
  gasUsed : UInt64
  gasWanted : UInt64

/-- The transient stores at the start of a block. -/
def Transient.empty : Transient where
  bloom := 0
  txIndex := 0
  logSize := 0
  gasUsed := 0
  gasWanted := 0

/-- A gas meter. That of a transaction does not enforce its limit. -/
structure GasMeter where
  limit : UInt64
  consumed : UInt64
  deriving DecidableEq

/-- A meter without a limit has limit zero or the largest one. -/
def GasMeter.consumedToLimit (meter : GasMeter) : UInt64 :=
  if meter.limit ≠ 0 ∧ meter.limit < meter.consumed then meter.limit else meter.consumed

/-- The state of the chain, and the meters of the context. -/
structure ChainState (Ω : Type) where
  ctx : Context Ω
  transient : Transient
  gasMeter : GasMeter
  blockGasMeter : Option GasMeter

/-- Code of the ante handlers and of the message server. -/
abbrev ChainM (Ω : Type) := EStateM Err (ChainState Ω)

section

variable {Ω : Type}

/-- Code that only reaches the stores. -/
def ChainM.onStore {α : Type} (x : KeeperM Ω α) : ChainM Ω α :=
  onPart (fun s => s.ctx.store) (fun st s => { s with ctx := { s.ctx with store := st } }) x

def ChainM.emitEvent (event : Event) : ChainM Ω Unit :=
  modify fun s => { s with ctx := { s.ctx with events := s.ctx.events ++ [event] } }

/-- A write to the transient stores. -/
def ChainM.modifyTransient (f : Transient → Transient) : ChainM Ω Unit :=
  modify fun s => { s with transient := f s.transient }

theorem ChainM.onStore_ok {α : Type} {x : KeeperM Ω α} {s s' : ChainState Ω} {a : α} :
    (ChainM.onStore x).run s = .ok a s' ↔ ∃ st, x.run s.ctx.store = .ok a st ∧
      s' = { s with ctx := { s.ctx with store := st } } := onPart_ok

/-- block.go:12-39 -/
def blockGasLimit (chain : Chain) (s : ChainState Ω) : UInt64 :=
  let ofConsensus : UInt64 :=
    match chain.maxGas with
    | none => 0
    | some maxGas =>
      if maxGas = -1 then 18446744073709551615
      else if 0 < maxGas then UInt64.ofNat maxGas.toNat
      else 0
  match s.blockGasMeter with
  | none => ofConsensus
  | some meter => if meter.limit = 0 then ofConsensus else meter.limit

def resetGasMeterAndConsumeGas (gasUsed : UInt64) : ChainM Ω Unit :=
  modify fun s => { s with gasMeter := { s.gasMeter with consumed := gasUsed } }

/-- x/vm/keeper/keeper.go:315-322 -/
def addTransientGasUsed (gasUsed : UInt64) : ChainM Ω UInt64 := do
  let s ← get
  let result := s.transient.gasUsed + gasUsed
  if result < gasUsed then
    throw ((Err.new "gas computation overflow/underflow").wrapf "transient gas used" [])
  else do
    ChainM.modifyTransient fun t => { t with gasUsed := result }
    return result

/-- The sum is not checked. -/
def addTransientGasWanted (gasWanted : UInt64) : ChainM Ω Unit :=
  ChainM.modifyTransient fun t => { t with gasWanted := t.gasWanted + gasWanted }

/-- `EndBlock` of `x/feemarket`: the gas wanted it stores. abci.go:50-92 -/
def endBlock (chain : Chain) : ChainM Ω UInt64 := do
  let s ← get
  match s.blockGasMeter with
  | none => throw (.new "block gas meter is nil when setting block gas wanted")
  | some meter =>
    let gasWanted := s.transient.gasWanted.toNat
    let gasUsed := meter.consumedToLimit.toNat
    require (gasWanted < 2 ^ 63)
      (.errorf "integer overflow by integer type conversion. Gas wanted > MaxInt64. Gas wanted: %s"
        [.num gasWanted])
    require (gasUsed < 2 ^ 63)
      (.errorf "integer overflow by integer type conversion. Gas used > MaxInt64. Gas used: %s"
        [.num gasUsed])
    let limitedGasWanted :=
      (LegacyDec.newDec gasWanted).mul chain.feeMarketParams.minGasMultiplier
    let updatedGasWanted :=
      (LegacyDec.max limitedGasWanted (LegacyDec.newDec gasUsed)).truncateInt
    ChainM.emitEvent {
      kind := "block_gas"
      attributes := [("height", toString chain.height), ("amount", toString updatedGasWanted)] }
    return UInt64.ofNat updatedGasWanted.toNat

end

end TacEvm
