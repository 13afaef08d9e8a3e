import TacEvm.Model.Chain

/-!
# The fee market

The parameters of `x/feemarket`, their validation, and the base fee of a block. A decimal that is
too large makes the SDK panic, which is an error here; the bound is left open, at least 315 bits.

SOURCE: x/feemarket/types/params.go, x/feemarket/keeper (eip1559.go, abci.go)
-/

namespace TacEvm

/-- The digits a decimal may have. -/
structure DecRange where
  max : ℤ
  large : 2 ^ 315 ≤ max + 1

namespace LegacyDec

variable (range : DecRange)

/-- The check that ends an operation of `LegacyDec`. -/
def inRange (a : LegacyDec) : Except Err LegacyDec :=
  if range.max < |a.digits| then .error (.panic "Int overflow") else .ok a

/-- `LegacyDec.MulInt`, with its panic. -/
def mulIntInRange (a : LegacyDec) (n : ℤ) : Except Err LegacyDec := inRange range (a.mulInt n)

/-- `LegacyDec.QuoInt`, for a divisor that is not zero. -/
def quoInt (a : LegacyDec) (n : ℤ) : LegacyDec := ⟨a.digits.tdiv n⟩

def add (a b : LegacyDec) : Except Err LegacyDec := inRange range ⟨a.digits + b.digits⟩

def sub (a b : LegacyDec) : Except Err LegacyDec := inRange range ⟨a.digits - b.digits⟩

end LegacyDec

namespace FeeMarket

/-- `types.Params`.  A decimal may be nil. -/
structure Params where
  noBaseFee : Bool
  baseFeeChangeDenominator : UInt32
  elasticityMultiplier : UInt32
  enableHeight : ℤ
  baseFee : Option LegacyDec
  minGasPrice : Option LegacyDec
  minGasMultiplier : Option LegacyDec

/-- x/feemarket/types/params.go:13-24, 78-88 -/
def defaultParams : Params where
  noBaseFee := false
  baseFeeChangeDenominator := 8
  elasticityMultiplier := 2
  enableHeight := 0
  baseFee := some (.newDec 1000000000)
  minGasPrice := some (.newDec 0)
  minGasMultiplier := some ⟨500000000000000000⟩

/-- x/feemarket/types/params.go:123-139 -/
def validateMinGasPrice : Option LegacyDec → Except Err Unit
  | none => .error (.new "invalid parameter: nil")
  | some v =>
    if v.digits < 0 then .error (.errorf "value cannot be negative: %s" [.str v.text]) else .ok ()

/-- x/feemarket/types/params.go:188-207 -/
def validateMinGasMultiplier : Option LegacyDec → Except Err Unit
  | none => .error (.new "invalid parameter: nil")
  | some v =>
    if v.digits < 0 then .error (.errorf "value cannot be negative: %s" [.str v.text])
    else if (LegacyDec.newDec 1).digits < v.digits then
      .error (.errorf "value cannot be greater than 1: %s" [.str v.text])
    else .ok ()

namespace Params

/-- The elasticity multiplier is not looked at; the sign of a nil base fee is not read.
x/feemarket/types/params.go:91-109 -/
def validate (p : Params) : Except Err Unit :=
  if p.baseFeeChangeDenominator = 0 then
    .error (.new "base fee change denominator cannot be 0")
  else
    match p.baseFee with
    | none => .error .nilDereference
    | some baseFee =>
      if baseFee.digits < 0 then
        .error (.errorf "initial base fee cannot be negative: %s" [.str baseFee.text])
      else if p.enableHeight < 0 then
        .error (.errorf "enable height cannot be negative: %d" [.num p.enableHeight])
      else do
        validateMinGasMultiplier p.minGasMultiplier
        validateMinGasPrice p.minGasPrice

def isBaseFeeEnabled (p : Params) (height : ℤ) : Bool :=
  !p.noBaseFee && decide (p.enableHeight ≤ height)

/-- The defaults of what is nil in old blocks.
x/feemarket/keeper/params.go:12-31 -/
def getParams (p : Params) : Params :=
  { p with
    minGasPrice := some (p.minGasPrice.getD (.newDec 0))
    minGasMultiplier := some (p.minGasMultiplier.getD (.newDec 0)) }

end Params

/-- The height, `Block.MaxGas`, if any, and the gas of the block before. -/
structure BlockContext where
  height : ℤ
  maxGas : Option ℤ
  parentGasUsed : UInt64
  maxGas_lt : ∀ gas ∈ maxGas, gas < 2 ^ 63

/-- The gas limit of a block; below zero there is none. eip1559.go:43-48 -/
def blockGasLimit (maxGas : Option ℤ) : ℤ :=
  match maxGas with
  | some maxGas => if -1 < maxGas then maxGas else 2 ^ 64 - 1
  | none => 2 ^ 64 - 1

section

variable (range : DecRange)

/-- The base fee after a parent one, for a target that is not zero. eip1559.go:60-94 -/
def nextBaseFee (parentBaseFee minGasPrice : LegacyDec) (baseFeeChangeDenominator : UInt32)
    (parentGasTarget parentGasUsed : UInt64) : Except Err LegacyDec :=
  if parentGasTarget < parentGasUsed then do
    let gasUsedDelta := (parentGasUsed - parentGasTarget).toNat
    let x ← parentBaseFee.mulIntInRange range gasUsedDelta
    let y := x.quoInt parentGasTarget.toNat
    let baseFeeDelta := LegacyDec.max (y.quoInt baseFeeChangeDenominator.toNat) (.newDec 1)
    parentBaseFee.add range baseFeeDelta
  else do
    let gasUsedDelta := (parentGasTarget - parentGasUsed).toNat
    let x ← parentBaseFee.mulIntInRange range gasUsedDelta
    let y := x.quoInt parentGasTarget.toNat
    let baseFeeDelta := y.quoInt baseFeeChangeDenominator.toNat
    let baseFee ← parentBaseFee.sub range baseFeeDelta
    return LegacyDec.max baseFee minGasPrice

/-- `CalculateBaseFee`; `none` is a nil decimal.
eip1559.go:15-94 -/
def calculateBaseFee (params : Params) (ctx : BlockContext) : Except Err (Option LegacyDec) :=
  let params := params.getParams
  if params.isBaseFeeEnabled ctx.height = false then .ok none
  else if ctx.height = params.enableHeight then .ok params.baseFee
  else
    match params.baseFee with
    | none => .ok none
    | some parentBaseFee =>
      if params.elasticityMultiplier = 0 then .error (.panic "Division by zero")
      else
        let parentGasTarget :=
          (blockGasLimit ctx.maxGas).tdiv params.elasticityMultiplier.toNat
        if ¬ (0 ≤ parentGasTarget ∧ parentGasTarget < 2 ^ 64) then .ok none
        else if ctx.parentGasUsed.toNat = parentGasTarget then .ok (some parentBaseFee)
        else if parentGasTarget = 0 then .ok (some (.newDec 0))
        else (nextBaseFee range parentBaseFee (params.minGasPrice.getD (.newDec 0))
          params.baseFeeChangeDenominator (UInt64.ofNat parentGasTarget.toNat)
          ctx.parentGasUsed).map some

/-- The parameters it stores.
abci.go:16-45, x/feemarket/keeper/params.go:77-84 -/
def beginBlock (params : Params) (ctx : BlockContext) : Except Err Params := do
  let baseFee ← calculateBaseFee range params ctx
  match baseFee with
  | none => return params
  | some baseFee => return { params.getParams with baseFee := some baseFee }

/-- The beginnings of a list of blocks. -/
def beginBlocks (params : Params) (blocks : List BlockContext) : Except Err Params :=
  blocks.foldlM (beginBlock range) params

end

/-- The product is one of 64 bits, and `Int64` takes the low bits of a base fee.
rpc/backend/chain_info.go:248-277 -/
def suggestGasTipCap (params : Except Err Params) (baseFee : Option ℤ) : Except Err ℤ :=
  match baseFee with
  | none => .ok 0
  | some baseFee => do
    let params ← params
    if params.baseFeeChangeDenominator = 0 then
      .error (.panic "runtime error: integer divide by zero")
    else
      let maxDelta := Int64.ofInt baseFee *
        (Int64.ofNat params.elasticityMultiplier.toNat - 1) /
          Int64.ofNat params.baseFeeChangeDenominator.toNat
      return if maxDelta < 0 then 0 else maxDelta.toInt

end FeeMarket

end TacEvm
