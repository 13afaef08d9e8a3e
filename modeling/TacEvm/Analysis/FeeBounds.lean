import TacEvm.Analysis.GasBounds
import TacEvm.Model.FeeChecker

/-!
# What a Cosmos transaction pays

Two roundings meet in the fee of `FeeChecker`: the offered fee over the gas limit is cut, the
product with the gas limit rounded up. The first loses less than the second could add, and both keep
the order.
-/

namespace TacEvm

open FallibleState LegacyDec

namespace LegacyDec

theorem digits_min (a b : LegacyDec) : (a.min b).digits = Min.min a.digits b.digits := by
  unfold min
  split
  · omega
  · omega

theorem roundInt_newDec {n : ℤ} (hn : 0 ≤ n) : (newDec n).roundInt = n := by
  have hdigits : ¬ (newDec n).digits < 0 := by
    have hprecision : 0 ≤ precision := by decide
    exact not_lt.2 (Int.mul_nonneg hn hprecision)
  unfold roundInt
  rw [if_neg hdigits]
  exact chopAndRound_mul n

/-- Rounding up gives the least whole amount. -/
theorem roundInt_ceil {range : DecRange} {a c : LegacyDec} (h : a.ceil range = .ok c)
    (hnonneg : 0 ≤ a.digits) : IsLeast {n : ℤ | a.digits ≤ n * precision} c.roundInt := by
  have hpos : 0 < precision := by decide
  have hdiv := Int.mul_ediv_add_emod a.digits precision
  have hquo : 0 ≤ a.digits / precision := Int.ediv_nonneg hnonneg hpos.le
  have hlt := Int.emod_lt_of_pos a.digits hpos
  unfold ceil at h
  dsimp only at h
  rw [Int.tdiv_eq_ediv_of_nonneg hnonneg, Int.tmod_eq_emod_of_nonneg hnonneg] at h
  split at h
  · cases h
    rw [roundInt_newDec hquo]
    refine ⟨?_, ?_⟩
    · show a.digits ≤ a.digits / precision * precision
      nlinarith
    · intro n hn
      have hn' : a.digits ≤ n * precision := hn
      exact Int.ediv_le_of_le_mul hpos hn'
  · obtain ⟨-, rfl⟩ := FeeMarket.inRange_ok.1 h
    rw [roundInt_newDec (by omega)]
    refine ⟨?_, ?_⟩
    · show a.digits ≤ (a.digits / precision + 1) * precision
      nlinarith
    intro n hn
    have hn' : a.digits ≤ n * precision := hn
    have hlt' : a.digits / precision * precision < n * precision := by nlinarith
    have := lt_of_mul_lt_mul_right hlt' hpos.le
    omega

end LegacyDec

/-! ## The fee that is offered -/

theorem Coins.mem_of_find {denom : Denom} {fuel : ℕ} {coins : Coins} {coin : Coin}
    (h : Coins.find denom fuel coins = some coin) : coin ∈ coins := by
  induction fuel generalizing coins with
  | zero => cases h
  | succ fuel ih =>
    unfold Coins.find at h
    split at h
    · cases h
    · split at h
      · cases h
        exact List.mem_singleton_self _
      · cases h
    · dsimp only at h
      split at h
      · cases h
      rename_i middle hmiddle
      split at h
      · exact List.mem_of_mem_take (ih h)
      · split at h
        · cases h
          exact List.mem_of_getElem? hmiddle
        · exact List.mem_of_mem_drop (ih h)

theorem Coins.searchAmountOf_nonneg {coins : Coins} (hcoins : ∀ coin ∈ coins, 0 ≤ coin.amount)
    (denom : Denom) : 0 ≤ coins.searchAmountOf denom := by
  unfold Coins.searchAmountOf
  cases hfind : Coins.find denom coins.length coins with
  | none => exact le_refl 0
  | some coin => exact hcoins coin (Coins.mem_of_find hfind)

namespace FeeChecker

/-- The price per gas: base fee and tip, or offered fee over gas. -/
def price (baseFee tip : LegacyDec) (offered gas : ℤ) : ℤ :=
  min (baseFee.digits + tip.digits) (offered * precision / gas)

theorem price_mul_le (baseFee tip : LegacyDec) (offered : ℤ) {gas : ℤ} (hgas : 0 < gas) :
    price baseFee tip offered gas * gas ≤ offered * precision := by
  have hle : price baseFee tip offered gas ≤ offered * precision / gas :=
    min_le_right _ _
  calc
    price baseFee tip offered gas * gas ≤ offered * precision / gas * gas :=
      Int.mul_le_mul_of_nonneg_right hle hgas.le
    _ ≤ offered * precision := Int.ediv_mul_le _ hgas.ne'

/-- The priority, from the digits above the base fee. -/
def priorityOf (above : ℤ) : ℤ :=
  int64OrMax (above / defaultPriorityReduction / precision)

theorem priorityOf_nonneg {above : ℤ} (h : 0 ≤ above) : 0 ≤ priorityOf above := by
  have hquo : 0 ≤ above / defaultPriorityReduction / precision :=
    Int.ediv_nonneg (Int.ediv_nonneg h (by decide)) (by decide)
  unfold priorityOf int64OrMax maxInt64
  split
  · exact hquo
  · omega

theorem priorityOf_mono {above above' : ℤ} (h : 0 ≤ above) (hle : above ≤ above') :
    priorityOf above ≤ priorityOf above' := by
  have hquo : 0 ≤ above / defaultPriorityReduction / precision :=
    Int.ediv_nonneg (Int.ediv_nonneg h (by decide)) (by decide)
  have hmono : above / defaultPriorityReduction / precision ≤
      above' / defaultPriorityReduction / precision :=
    Int.ediv_le_ediv (by decide) (Int.ediv_le_ediv (by decide) hle)
  unfold priorityOf int64OrMax maxInt64
  split
  · split
    · exact hmono
    · omega
  · split
    · omega
    · omega

/-! ## A fee that is accepted -/

/-- What is paid: the least whole amount for all the gas. -/
def IsFee (price gas amount : ℤ) : Prop :=
  IsLeast {n : ℤ | price * gas ≤ n * precision} amount

theorem IsFee.mono {price price' gas amount amount' : ℤ} (h : IsFee price gas amount)
    (h' : IsFee price' gas amount') (hgas : 0 ≤ gas) (hle : price ≤ price') :
    amount ≤ amount' := by
  have hbelow : price * gas ≤ amount' * precision :=
    (Int.mul_le_mul_of_nonneg_right hle hgas).trans h'.1
  exact h.2 hbelow

section Accepted

variable {range : DecRange} {ctx : FeeContext} {denom : Denom} {feeTx : FeeTx}

/-- The base fee that counts: zero when there is none. -/
def base (ctx : FeeContext) : LegacyDec := ctx.baseFee.getD (.newDec 0)

/-- The tip cap of a transaction. -/
def tip (feeTx : FeeTx) : LegacyDec := maxPriorityPrice feeTx.extensionOptions

/-- The price of a transaction, from all that it is computed from. -/
def priceOf (ctx : FeeContext) (denom : Denom) (feeTx : FeeTx) : ℤ :=
  price (base ctx) (tip feeTx) (feeTx.fee.searchAmountOf denom) feeTx.gas.toNat

/-- What an accepted fee is: price, amount and priority. -/
theorem feeChecker_ok {coins : Coins} {priority : ℤ} (hlondon : ctx.isLondon = true)
    (hbase : 0 ≤ (base ctx).digits)
    (h : feeChecker range ctx denom feeTx = .ok (coins, priority)) :
    0 < (feeTx.gas.toNat : ℤ) ∧
    (base ctx).digits ≤ priceOf ctx denom feeTx ∧
    (∃ amount, coins = [⟨denom, amount⟩] ∧ IsFee (priceOf ctx denom feeTx) feeTx.gas.toNat amount) ∧
    priority = priorityOf (priceOf ctx denom feeTx - (base ctx).digits) := by
  have hoffered := Coins.searchAmountOf_nonneg feeTx.fee_nonneg denom
  unfold feeChecker at h
  rw [hlondon] at h
  dsimp only at h
  rw [if_neg (by decide)] at h
  split at h
  · cases h
  rename_i htip
  split at h
  · cases h
  rename_i hzero
  have hgas : 0 < (feeTx.gas.toNat : ℤ) := by
    have hne : feeTx.gas.toNat ≠ 0 := fun hn => hzero (UInt64.toNat_inj.1 hn)
    omega
  split at h
  · cases h
  rename_i hcap
  obtain ⟨effective, heffective, h⟩ := except_bind_ok.1 h
  obtain ⟨product, hproduct, h⟩ := except_bind_ok.1 h
  obtain ⟨-, rfl⟩ := FeeMarket.inRange_ok.1 hproduct
  obtain ⟨whole, hwhole, h⟩ := except_bind_ok.1 h
  obtain ⟨above, habove, h⟩ := except_bind_ok.1 h
  obtain ⟨-, rfl⟩ := FeeMarket.inRange_ok.1 habove
  cases h
  -- the fee cap is the offer over the gas limit; as the offer is not negative, cutting the
  -- quotient is rounding it down
  have hfeeCap : ((newDec (feeTx.fee.searchAmountOf denom)).quoInt
      feeTx.gas.toNat).digits =
      feeTx.fee.searchAmountOf denom * precision / feeTx.gas.toNat := by
    apply Int.tdiv_eq_ediv_of_nonneg
    exact Int.mul_nonneg hoffered (by decide)
  have hprice : effective.digits = priceOf ctx denom feeTx := by
    obtain ⟨sum, hsum, heffective⟩ := except_bind_ok.1 heffective
    obtain ⟨-, rfl⟩ := FeeMarket.inRange_ok.1 hsum
    cases heffective
    rw [digits_min, hfeeCap, add_comm]
    rfl
  have hle : (base ctx).digits ≤ priceOf ctx denom feeTx := by
    apply le_min
    · have : 0 ≤ (tip feeTx).digits := not_lt.1 htip
      omega
    · rw [← hfeeCap]
      exact not_lt.1 hcap
  refine ⟨hgas, hle, ⟨_, rfl, ?_⟩, ?_⟩
  · have hleast := roundInt_ceil hwhole (by
      show 0 ≤ effective.digits * _
      rw [hprice]
      exact Int.mul_nonneg (hbase.trans hle) hgas.le)
    rw [← hprice]
    exact hleast
  · have hnonneg : 0 ≤ effective.digits - (base ctx).digits := by omega
    have hquo : 0 ≤ (effective.digits - (base ctx).digits) / defaultPriorityReduction :=
      Int.ediv_nonneg hnonneg (by decide)
    unfold priorityOf
    rw [← hprice, ← Int.tdiv_eq_ediv_of_nonneg hnonneg, ← Int.tdiv_eq_ediv_of_nonneg (by
      rw [Int.tdiv_eq_ediv_of_nonneg hnonneg]
      exact hquo)]
    rfl

/-- The minimum gas prices are only compared with: the offered fee is paid. -/
theorem checkTxFeeWithValidatorMinGasPrices_ok {coins : Coins} {priority : ℤ}
    (h : checkTxFeeWithValidatorMinGasPrices range ctx feeTx = .ok (coins, priority)) :
    coins = feeTx.fee := by
  have hend (h : (getTxPriority (toInt64 feeTx.gas) feeTx.fee 0 >>= fun p => .ok (feeTx.fee, p)) =
      .ok (coins, priority)) : coins = feeTx.fee := by
    obtain ⟨p, -, h⟩ := except_bind_ok.1 h
    cases h
    rfl
  unfold checkTxFeeWithValidatorMinGasPrices at h
  dsimp only at h
  split at h
  · obtain ⟨requiredFees, -, h⟩ := except_bind_ok.1 h
    split at h
    · cases h
    · exact hend h
  · exact hend h

/-- At every height, and before the London rules too, no more is paid than is offered. -/
theorem newDynamicFeeChecker_le_offered {coins : Coins} {priority : ℤ}
    (hbase : 0 ≤ (base ctx).digits)
    (h : newDynamicFeeChecker range ctx denom feeTx = .ok (coins, priority)) :
    coins = feeTx.fee ∨
      ∃ amount, coins = [⟨denom, amount⟩] ∧ amount ≤ feeTx.fee.searchAmountOf denom := by
  unfold newDynamicFeeChecker at h
  split at h
  · exact .inl (checkTxFeeWithValidatorMinGasPrices_ok h)
  by_cases hlondon : ctx.isLondon = true
  · obtain ⟨hgas, -, ⟨amount, hcoins, hfee⟩, -⟩ := feeChecker_ok hlondon hbase h
    exact .inr ⟨amount, hcoins, hfee.2 (price_mul_le _ _ _ hgas)⟩
  · unfold feeChecker at h
    rw [Bool.eq_false_of_not_eq_true hlondon] at h
    exact .inl (checkTxFeeWithValidatorMinGasPrices_ok h)

/-- What holds of the fee and of the priority that are returned. -/
structure DynamicFee (ctx : FeeContext) (denom : Denom) (feeTx : FeeTx) (amount priority : ℤ) :
    Prop where
  base_le : (base ctx).digits * feeTx.gas.toNat ≤ amount * precision
  le_offered : amount ≤ feeTx.fee.searchAmountOf denom
  least : IsLeast {n : ℤ | price (base ctx) (tip feeTx) (feeTx.fee.searchAmountOf denom)
    feeTx.gas.toNat * feeTx.gas.toNat ≤ n * precision} amount
  priority_nonneg : 0 ≤ priority

/-- A fee of `FeeChecker` is between the base fee and the offer, is the price rounded up, has a
priority, and does not fall with the tip cap. -/
theorem feeChecker_bounds (range : DecRange) (ctx : FeeContext) (denom : Denom) (feeTx : FeeTx)
    (coins : Coins) (priority : ℤ) (hlondon : ctx.isLondon = true)
    (hbase : 0 ≤ (base ctx).digits)
    (h : feeChecker range ctx denom feeTx = .ok (coins, priority)) :
    ∃ amount, coins = [⟨denom, amount⟩] ∧ DynamicFee ctx denom feeTx amount priority ∧
      ∀ (feeTx' : FeeTx) (amount' priority' : ℤ), feeTx'.gas = feeTx.gas →
        feeTx'.fee = feeTx.fee → (tip feeTx).digits ≤ (tip feeTx').digits →
        feeChecker range ctx denom feeTx' = .ok ([⟨denom, amount'⟩], priority') →
        amount ≤ amount' ∧ priority ≤ priority' := by
  obtain ⟨hgas, hle, ⟨amount, hcoins, hfee⟩, hpriority⟩ := feeChecker_ok hlondon hbase h
  have hnonneg : 0 ≤ priceOf ctx denom feeTx - (base ctx).digits := by omega
  refine ⟨amount, hcoins, ?_, ?_⟩
  · constructor
    · exact (Int.mul_le_mul_of_nonneg_right hle hgas.le).trans hfee.1
    · exact hfee.2 (price_mul_le _ _ _ hgas)
    · exact hfee
    · rw [hpriority]
      exact priorityOf_nonneg hnonneg
  · intro feeTx' amount' priority' hsameGas hsameFee htip h'
    obtain ⟨-, -, ⟨paid, hpaid, hfee'⟩, hpriority'⟩ := feeChecker_ok hlondon hbase h'
    cases hpaid
    -- the price is the only thing that the tip cap changes
    have hprices : priceOf ctx denom feeTx ≤ priceOf ctx denom feeTx' := by
      unfold priceOf
      rw [hsameGas, hsameFee]
      unfold price
      omega
    rw [hsameGas] at hfee'
    refine ⟨hfee.mono hfee' hgas.le hprices, ?_⟩
    rw [hpriority, hpriority']
    exact priorityOf_mono hnonneg (by omega)

end Accepted

/-- A block with a base fee of one and a half. -/
def londonBlock : FeeContext where
  height := 1
  isCheckTx := false
  minGasPrices := []
  isLondon := true
  baseFee := some ⟨1500000000000000000⟩

/-- Seven coins for three units of gas, with a tip of seven tenths. -/
def tippingTx : FeeTx where
  gas := 3
  fee := [⟨"utac", 7⟩]
  fee_nonneg := by decide
  extensionOptions := [.other, .dynamicFee (some ⟨700000000000000000⟩)]

/-- Of 6.6 coins for the gas, seven are paid. -/
theorem feeChecker_bounds_tipping :
    feeChecker FeeMarket.bits315 londonBlock "utac" tippingTx = .ok ([⟨"utac", 7⟩], 0) ∧
      DynamicFee londonBlock "utac" tippingTx 7 0 := by
  have hresult : feeChecker FeeMarket.bits315 londonBlock "utac" tippingTx =
      .ok ([⟨"utac", 7⟩], 0) := by
    decide +kernel
  obtain ⟨amount, hcoins, hfee, -⟩ := feeChecker_bounds FeeMarket.bits315 londonBlock "utac"
    tippingTx _ _ rfl (by decide) hresult
  cases hcoins
  exact ⟨hresult, hfee⟩

end FeeChecker

end TacEvm
