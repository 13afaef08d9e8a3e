import TacEvm.Model.FeeMarket
import TacEvm.Model.StateTransition

/-!
# The fee of Cosmos transactions

Under the London rules the price follows EIP-1559, with the offered fee over the gas limit as the
fee cap and an extension option as the tip cap; before that, and at genesis, the minimum gas prices
of the validator decide.

SOURCE: ante/evm/fee_checker.go
-/

namespace TacEvm

namespace LegacyDec

/-- `LegacyMinDec`. -/
def min (a b : LegacyDec) : LegacyDec := if a.digits < b.digits then a else b

def ceil (range : DecRange) (a : LegacyDec) : Except Err LegacyDec :=
  let quo := a.digits.tdiv precision
  let rem := a.digits.tmod precision
  if rem ≤ 0 then .ok (newDec quo) else inRange range (newDec (quo + 1))

def roundInt (a : LegacyDec) : ℤ :=
  if a.digits < 0 then -chopAndRound (-a.digits) else chopAndRound a.digits

end LegacyDec

/-! ## Transactions with a fee -/

/-- An extension option; the `MaxPriorityPrice` may be nil. -/
inductive ExtensionOption
  | dynamicFee (maxPriorityPrice : Option LegacyDec)
  | other

/-- `sdk.FeeTx`. `ValidateBasic` has refused negative amounts before. -/
structure FeeTx where
  gas : UInt64
  fee : Coins
  fee_nonneg : ∀ coin ∈ fee, 0 ≤ coin.amount
  extensionOptions : List ExtensionOption

structure DecCoin where
  denom : Denom
  amount : LegacyDec

/-- What is read of the context, the fee market and the rules. -/
structure FeeContext where
  height : ℤ
  isCheckTx : Bool
  minGasPrices : List DecCoin
  isLondon : Bool
  /-- `FeeMarketKeeper.GetBaseFee`. -/
  baseFee : Option LegacyDec

namespace FeeChecker

def maxInt64 : ℤ := 2 ^ 63 - 1

def defaultPriorityReduction : ℤ := 1000000

/-- `Int64` of what is one, and `MaxInt64` of what is not. -/
def int64OrMax (n : ℤ) : ℤ := if -2 ^ 63 ≤ n ∧ n < 2 ^ 63 then n else maxInt64

/-! ## The minimum gas prices of a validator -/

/-- fee_checker.go:154-174 -/
def getTxPriority (gas : ℤ) : Coins → ℤ → Except Err ℤ
  | [], priority => .ok priority
  | fee :: fees, priority =>
    if gas = 0 then .error (.panic "Division by zero")
    else
      let p := int64OrMax ((fee.amount.tdiv gas).tdiv defaultPriorityReduction)
      getTxPriority gas fees (if priority = 0 ∨ p < priority then p else priority)

/-- `sdk.NewCoin` of the least fee for a minimum gas price. -/
def requiredFee (range : DecRange) (gas : ℤ) (gp : DecCoin) : Except Err Coin := do
  let fee ← LegacyDec.inRange range (gp.amount.mul (.newDec gas))
  let amount := (← fee.ceil range).roundInt
  if amount < 0 then .error (.panic s!"negative coin amount: {amount}")
  else .ok ⟨gp.denom, amount⟩

def isAnyGTE (coins coinsB : Coins) : Bool :=
  coins.any fun coin =>
    decide (coinsB.searchAmountOf coin.denom ≤ coin.amount) && coinsB.searchAmountOf coin.denom ≠ 0

/-- fee_checker.go:124-152 -/
def checkTxFeeWithValidatorMinGasPrices (range : DecRange) (ctx : FeeContext) (tx : FeeTx) :
    Except Err (Coins × ℤ) := do
  let gas := toInt64 tx.gas
  if ctx.isCheckTx && !ctx.minGasPrices.all fun gp => gp.amount.digits = 0 then
    let requiredFees ← ctx.minGasPrices.mapM (requiredFee range gas)
    if !isAnyGTE tx.fee requiredFees then
      .error (errInsufficientFee.wrapf "insufficient fees; got: %s required: %s"
        [.str tx.fee.text, .str (Coins.text requiredFees)])
  let priority ← getTxPriority gas tx.fee 0
  .ok (tx.fee, priority)

/-- The first option of a dynamic fee counts. fee_checker.go:69-84 -/
def maxPriorityPrice : List ExtensionOption → LegacyDec
  | [] => .newDec maxInt64
  | .dynamicFee price :: _ => price.getD (.newDec 0)
  | .other :: options => maxPriorityPrice options

/-- fee_checker.go:176-180 -/
def effectiveGasPriceLegacyDec (range : DecRange) (baseFee feeCap tipCap : LegacyDec) :
    Except Err LegacyDec := do
  let price ← tipCap.add range baseFee
  .ok (price.min feeCap)

/-- fee_checker.go:47-122 -/
def feeChecker (range : DecRange) (ctx : FeeContext) (denom : Denom) (feeTx : FeeTx) :
    Except Err (Coins × ℤ) :=
  if !ctx.isLondon then checkTxFeeWithValidatorMinGasPrices range ctx feeTx
  else
    let baseFee := ctx.baseFee.getD (.newDec 0)
    let tipCap := maxPriorityPrice feeTx.extensionOptions
    if tipCap.digits < 0 then
      .error (errInsufficientFee.wrapf "max priority price cannot be negative" [])
    else if feeTx.gas = 0 then
      .error (errInvalidRequest.wrapf "gas cannot be zero" [])
    else
      let gas : ℤ := feeTx.gas.toNat
      let feeCap := (LegacyDec.newDec (feeTx.fee.searchAmountOf denom)).quoInt gas
      if feeCap.digits < baseFee.digits then
        .error (errInsufficientFee.wrapf ("gas prices too low, got: %s%s required: %s%s. " ++
            "Please retry using a higher gas price or a higher fee")
          [.str feeCap.text, .str denom, .str baseFee.text, .str denom])
      else do
        let effectivePrice ← effectiveGasPriceLegacyDec range baseFee feeCap tipCap
        let amount := (← (← effectivePrice.mulIntInRange range gas).ceil range).roundInt
        let priorityInt :=
          ((← effectivePrice.sub range baseFee).quoInt defaultPriorityReduction).truncateInt
        .ok ([⟨denom, amount⟩], int64OrMax priorityInt)

/-- The checker that `NewDynamicFeeChecker` returns.
fee_checker.go:28-45 -/
def newDynamicFeeChecker (range : DecRange) (ctx : FeeContext) (denom : Denom) (feeTx : FeeTx) :
    Except Err (Coins × ℤ) :=
  if ctx.height = 0 then checkTxFeeWithValidatorMinGasPrices range ctx feeTx
  else feeChecker range ctx denom feeTx

end FeeChecker

end TacEvm
