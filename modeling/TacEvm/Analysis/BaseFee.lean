import Mathlib.Tactic.Linarith
import TacEvm.Model.FeeMarket

/-!
# How the base fee moves

As long as no decimal gets out of range, the base fee is a monotone function of whole numbers
(`idealBaseFee`). The divisor of the target is not validated, which is the only way in which the
calculation fails (`calculateBaseFee_returns_iff`).
-/

namespace TacEvm.FeeMarket

open FallibleState

/-- What the base fee changes by for a distance from the target. -/
def feeShare (parentFee : ℤ) (denominator target distance : ℕ) : ℤ :=
  parentFee * distance / target / denominator

/-- The digits of the next base fee. -/
def idealBaseFee (parentFee minFee : ℤ) (denominator target gas : ℕ) : ℤ :=
  if target < gas then
    parentFee + max (feeShare parentFee denominator target (gas - target)) LegacyDec.precision
  else max (parentFee - feeShare parentFee denominator target (target - gas)) minFee

section Ideal

variable {parentFee minFee : ℤ} {denominator target gas gas' : ℕ}

theorem feeShare_nonneg (hfee : 0 ≤ parentFee) (distance : ℕ) :
    0 ≤ feeShare parentFee denominator target distance := by
  unfold feeShare
  positivity

theorem ediv_mono {a b : ℤ} (h : a ≤ b) (divisor : ℕ) : a / divisor ≤ b / divisor := by
  rcases Nat.eq_zero_or_pos divisor with rfl | hpos
  · simp
  · exact Int.ediv_le_ediv (Int.natCast_pos.mpr hpos) h

theorem feeShare_mono (hfee : 0 ≤ parentFee) {distance distance' : ℕ} (h : distance ≤ distance') :
    feeShare parentFee denominator target distance ≤
      feeShare parentFee denominator target distance' := by
  have hproduct := mul_le_mul_of_nonneg_left (Int.ofNat_le.mpr h) hfee
  exact ediv_mono (ediv_mono hproduct target) denominator

theorem feeShare_le (hfee : 0 ≤ parentFee) (distance : ℕ) :
    feeShare parentFee denominator target distance ≤ parentFee * distance := by
  have hproduct : 0 ≤ parentFee * distance := by positivity
  have htarget := Int.ediv_le_self (target : ℤ) hproduct
  have hnonneg : 0 ≤ parentFee * distance / (target : ℤ) := by positivity
  exact (Int.ediv_le_self (denominator : ℤ) hnonneg).trans htarget

theorem idealBaseFee_target (hmin : minFee ≤ parentFee) :
    idealBaseFee parentFee minFee denominator target target = parentFee := by
  unfold idealBaseFee feeShare
  rw [if_neg (Nat.lt_irrefl target), Nat.sub_self]
  simp [hmin]

theorem add_one_le_idealBaseFee (h : target < gas) :
    parentFee + LegacyDec.precision ≤ idealBaseFee parentFee minFee denominator target gas := by
  unfold idealBaseFee
  rw [if_pos h]
  omega

theorem idealBaseFee_le (hfee : 0 ≤ parentFee) (hmin : minFee ≤ parentFee) (h : gas ≤ target) :
    idealBaseFee parentFee minFee denominator target gas ≤ parentFee := by
  unfold idealBaseFee
  rw [if_neg (Nat.not_lt.mpr h)]
  have hshare : 0 ≤ feeShare parentFee denominator target (target - gas) :=
    feeShare_nonneg hfee _
  omega

theorem le_idealBaseFee (hmin : minFee ≤ parentFee) :
    minFee ≤ idealBaseFee parentFee minFee denominator target gas := by
  by_cases h : target < gas
  · have habove := @add_one_le_idealBaseFee parentFee minFee denominator target gas h
    have hone : 0 ≤ LegacyDec.precision := by decide
    omega
  · unfold idealBaseFee
    rw [if_neg h]
    exact le_max_right _ _

/-- **Monotone in the gas of the block before.** -/
theorem idealBaseFee_mono (hfee : 0 ≤ parentFee) (hmin : minFee ≤ parentFee) (h : gas ≤ gas') :
    idealBaseFee parentFee minFee denominator target gas ≤
      idealBaseFee parentFee minFee denominator target gas' := by
  by_cases hgas : target < gas
  · -- both above
    have hshare : feeShare parentFee denominator target (gas - target) ≤
        feeShare parentFee denominator target (gas' - target) :=
      feeShare_mono hfee (by omega)
    unfold idealBaseFee
    rw [if_pos hgas, if_pos (by omega)]
    omega
  · by_cases hgas' : target < gas'
    · have hbelow : idealBaseFee parentFee minFee denominator target gas ≤ parentFee :=
        idealBaseFee_le hfee hmin (by omega)
      have habove : parentFee + LegacyDec.precision ≤
          idealBaseFee parentFee minFee denominator target gas' := add_one_le_idealBaseFee hgas'
      have hone : 0 ≤ LegacyDec.precision := by decide
      omega
    · -- both below
      have hshare : feeShare parentFee denominator target (target - gas') ≤
          feeShare parentFee denominator target (target - gas) :=
        feeShare_mono hfee (by omega)
      unfold idealBaseFee
      rw [if_neg hgas, if_neg hgas']
      omega

end Ideal

/-! ## The calculation in range -/

section Range

variable {range : DecRange} {a b : LegacyDec}

theorem inRange_ok : LegacyDec.inRange range a = .ok b ↔ |a.digits| ≤ range.max ∧ b = a := by
  unfold LegacyDec.inRange
  split
  · constructor
    · intro h
      cases h
    · rintro ⟨hle, -⟩
      omega
  · rename_i hle
    constructor
    · intro h
      cases h
      exact ⟨Int.not_lt.mp hle, rfl⟩
    · rintro ⟨-, rfl⟩
      rfl

@[simp]
theorem digits_max (a b : LegacyDec) : (LegacyDec.max a b).digits = max a.digits b.digits := by
  unfold LegacyDec.max
  split
  · rename_i hlt
    rw [max_eq_right hlt.le]
  · rename_i hle
    rw [max_eq_left (Int.not_lt.mp hle)]

variable {parentBaseFee minGasPrice baseFee : LegacyDec} {denominator : UInt32}
  {target gas : UInt64}

theorem digits_share (hfee : 0 ≤ parentBaseFee.digits) (denominator target distance : ℕ) :
    (((parentBaseFee.mulInt distance).quoInt target).quoInt denominator).digits =
      feeShare parentBaseFee.digits denominator target distance := by
  have hproduct : 0 ≤ parentBaseFee.digits * distance := by positivity
  have hquotient : 0 ≤ parentBaseFee.digits * distance / target := by positivity
  show ((parentBaseFee.digits * distance).tdiv target).tdiv denominator = _
  rw [Int.tdiv_eq_ediv_of_nonneg hproduct, Int.tdiv_eq_ediv_of_nonneg hquotient]
  rfl

/-- The fee that is computed is the ideal one. -/
theorem nextBaseFee_ok (hfee : 0 ≤ parentBaseFee.digits)
    (h : nextBaseFee range parentBaseFee minGasPrice denominator target gas = .ok baseFee) :
    baseFee.digits = idealBaseFee parentBaseFee.digits minGasPrice.digits denominator.toNat
      target.toNat gas.toNat := by
  unfold nextBaseFee at h
  unfold idealBaseFee
  by_cases hgas : target < gas
  · rw [if_pos hgas] at h
    obtain ⟨x, hx, hadd⟩ := except_bind_ok.mp h
    obtain ⟨-, rfl⟩ := inRange_ok.mp hx
    obtain ⟨-, rfl⟩ := inRange_ok.mp hadd
    rw [if_pos (UInt64.lt_iff_toNat_lt.mp hgas)]
    show parentBaseFee.digits + (LegacyDec.max _ _).digits = _
    rw [digits_max, digits_share hfee, UInt64.toNat_sub_of_le _ _ (UInt64.le_of_lt hgas)]
    rfl
  · rw [if_neg hgas] at h
    obtain ⟨x, hx, h₁⟩ := except_bind_ok.mp h
    obtain ⟨-, rfl⟩ := inRange_ok.mp hx
    obtain ⟨y, hsub, hmax⟩ := except_bind_ok.mp h₁
    obtain ⟨-, rfl⟩ := inRange_ok.mp hsub
    cases hmax
    rw [if_neg fun hlt => hgas (UInt64.lt_iff_toNat_lt.mpr hlt), digits_max]
    show max (parentBaseFee.digits - LegacyDec.digits _) _ = _
    rw [digits_share hfee, UInt64.toNat_sub_of_le _ _ (UInt64.not_lt.mp hgas)]

/-- A base fee of less than 128 bits. -/
def Moderate (baseFee : LegacyDec) : Prop := baseFee.digits < 2 ^ 128 * LegacyDec.precision

theorem Moderate.fits (h : Moderate parentBaseFee) (range : DecRange) :
    parentBaseFee.digits * 2 ^ 64 + LegacyDec.precision ≤ range.max := by
  have hlarge := range.large
  have hprecision : LegacyDec.precision < 2 ^ 60 := by decide
  unfold Moderate at h
  omega

/-- **No decimal gets out of range** with room for 64 more bits. -/
theorem nextBaseFee_returns (hfee : 0 ≤ parentBaseFee.digits)
    (hfits : parentBaseFee.digits * 2 ^ 64 + LegacyDec.precision ≤ range.max) :
    ∃ baseFee, nextBaseFee range parentBaseFee minGasPrice denominator target gas =
      .ok baseFee := by
  have hone : 0 ≤ LegacyDec.precision := by decide
  -- the product is in range, and the share is at most the product
  have hdelta : ∀ distance : ℕ, distance < 2 ^ 64 →
      parentBaseFee.mulIntInRange range distance = .ok (parentBaseFee.mulInt distance) ∧
        0 ≤ feeShare parentBaseFee.digits denominator.toNat target.toNat distance ∧
        feeShare parentBaseFee.digits denominator.toNat target.toNat distance ≤
          parentBaseFee.digits * (2 ^ 64 - 1) := by
    intro distance hdistance
    have hle : parentBaseFee.digits * distance ≤ parentBaseFee.digits * (2 ^ 64 - 1) :=
      mul_le_mul_of_nonneg_left (by omega) hfee
    have hnonneg : 0 ≤ parentBaseFee.digits * distance := by positivity
    refine ⟨inRange_ok.mpr ⟨?_, rfl⟩, feeShare_nonneg hfee distance,
      (feeShare_le hfee distance).trans hle⟩
    show |parentBaseFee.digits * (distance : ℤ)| ≤ _
    rw [abs_of_nonneg hnonneg]
    omega
  unfold nextBaseFee
  split
  · obtain ⟨hproduct, hnonneg, hshare⟩ := hdelta (gas - target).toNat (UInt64.toNat_lt _)
    refine ⟨_, except_bind_ok.mpr ⟨_, hproduct, inRange_ok.mpr ⟨?_, rfl⟩⟩⟩
    show |parentBaseFee.digits + (LegacyDec.max _ _).digits| ≤ _
    rw [digits_max, digits_share hfee]
    show |parentBaseFee.digits + max _ (1 * LegacyDec.precision)| ≤ _
    rw [abs_of_nonneg (by omega)]
    omega
  · obtain ⟨hproduct, hnonneg, hshare⟩ := hdelta (target - gas).toNat (UInt64.toNat_lt _)
    refine ⟨_, except_bind_ok.mpr ⟨_, hproduct, except_bind_ok.mpr ⟨_, inRange_ok.mpr ⟨?_, rfl⟩,
      rfl⟩⟩⟩
    show |parentBaseFee.digits - LegacyDec.digits _| ≤ _
    rw [digits_share hfee, abs_le]
    omega

end Range

/-! ## Parameters that are accepted -/

/-- What `Validate` promises of the parameters. -/
structure Params.Accepted (params : Params) (baseFee minGasPrice minGasMultiplier : LegacyDec) :
    Prop where
  denominator : params.baseFeeChangeDenominator ≠ 0
  baseFee_eq : params.baseFee = some baseFee
  baseFee_nonneg : 0 ≤ baseFee.digits
  enableHeight : 0 ≤ params.enableHeight
  minGasMultiplier_eq : params.minGasMultiplier = some minGasMultiplier
  minGasMultiplier_nonneg : 0 ≤ minGasMultiplier.digits
  minGasMultiplier_le : minGasMultiplier.digits ≤ LegacyDec.precision
  minGasPrice_eq : params.minGasPrice = some minGasPrice
  minGasPrice_nonneg : 0 ≤ minGasPrice.digits

theorem validateMinGasPrice_ok {price : Option LegacyDec} (h : validateMinGasPrice price = .ok ()) :
    ∃ v, price = some v ∧ 0 ≤ v.digits := by
  cases price with
  | none => cases h
  | some v =>
    unfold validateMinGasPrice at h
    dsimp only at h
    split at h
    · cases h
    · rename_i hv
      exact ⟨v, rfl, Int.not_lt.mp hv⟩

theorem validateMinGasMultiplier_ok {multiplier : Option LegacyDec}
    (h : validateMinGasMultiplier multiplier = .ok ()) :
    ∃ v, multiplier = some v ∧ 0 ≤ v.digits ∧ v.digits ≤ LegacyDec.precision := by
  cases multiplier with
  | none => cases h
  | some v =>
    unfold validateMinGasMultiplier at h
    dsimp only at h
    split at h
    · cases h
    rename_i hnonneg
    split at h
    · cases h
    · rename_i hle
      have hone : (LegacyDec.newDec 1).digits = LegacyDec.precision := Int.one_mul _
      rw [hone] at hle
      exact ⟨v, rfl, Int.not_lt.mp hnonneg, Int.not_lt.mp hle⟩

theorem Params.validate_ok {params : Params} (h : params.validate = .ok ()) :
    ∃ baseFee minGasPrice minGasMultiplier,
      params.Accepted baseFee minGasPrice minGasMultiplier := by
  unfold Params.validate at h
  split at h
  · cases h
  rename_i hdenominator
  cases hfee : params.baseFee with
  | none =>
    rw [hfee] at h
    cases h
  | some baseFee =>
    rw [hfee] at h
    dsimp only at h
    split at h
    · cases h
    rename_i hnonneg
    split at h
    · cases h
    rename_i hheight
    obtain ⟨_, hmultiplier, hprice⟩ := except_bind_ok.mp h
    obtain ⟨minGasMultiplier, hmult, hmult₀, hmult₁⟩ :=
      validateMinGasMultiplier_ok hmultiplier
    obtain ⟨minGasPrice, hmin, hmin₀⟩ := validateMinGasPrice_ok hprice
    exact ⟨baseFee, minGasPrice, minGasMultiplier,
      { denominator := hdenominator
        baseFee_eq := hfee
        baseFee_nonneg := Int.not_lt.mp hnonneg
        enableHeight := Int.not_lt.mp hheight
        minGasMultiplier_eq := hmult
        minGasMultiplier_nonneg := hmult₀
        minGasMultiplier_le := hmult₁
        minGasPrice_eq := hmin
        minGasPrice_nonneg := hmin₀ }⟩

theorem Params.Accepted.getParams {params : Params} {baseFee minGasPrice multiplier : LegacyDec}
    (h : params.Accepted baseFee minGasPrice multiplier) : params.getParams = params := by
  unfold Params.getParams
  rw [h.minGasPrice_eq, h.minGasMultiplier_eq]
  show { params with minGasPrice := some minGasPrice, minGasMultiplier := some multiplier } = params
  rw [← h.minGasPrice_eq, ← h.minGasMultiplier_eq]

/-- The gas target of a block. -/
def gasTarget (params : Params) (maxGas : Option ℤ) : ℤ :=
  (blockGasLimit maxGas).tdiv params.elasticityMultiplier.toNat

theorem blockGasLimit_nonneg (maxGas : Option ℤ) : 0 ≤ blockGasLimit maxGas := by
  unfold blockGasLimit
  cases maxGas with
  | none => decide
  | some gas =>
    split
    · omega
    · decide

theorem BlockContext.blockGasLimit_lt (ctx : BlockContext) : blockGasLimit ctx.maxGas < 2 ^ 64 := by
  have hlt := ctx.maxGas_lt
  unfold blockGasLimit
  cases hgas : ctx.maxGas with
  | none => decide
  | some gas =>
    have hgasLt := hlt gas hgas
    dsimp only
    split
    · omega
    · decide

theorem BlockContext.gasTarget_lt (ctx : BlockContext) (params : Params) :
    0 ≤ gasTarget params ctx.maxGas ∧ gasTarget params ctx.maxGas < 2 ^ 64 := by
  have hnonneg := blockGasLimit_nonneg ctx.maxGas
  have hlt := ctx.blockGasLimit_lt
  unfold gasTarget
  rw [Int.tdiv_eq_ediv_of_nonneg hnonneg]
  refine ⟨by positivity, ?_⟩
  exact (Int.ediv_le_self _ hnonneg).trans_lt hlt

section Calculation

variable {range : DecRange} {params : Params} {ctx : BlockContext}
  {parentBaseFee minGasPrice multiplier : LegacyDec}

/-- The base fee is enabled, and the block is not the first one. -/
def Params.Calculates (params : Params) (height : ℤ) : Prop :=
  params.isBaseFeeEnabled height = true ∧ height ≠ params.enableHeight

section Accepted

variable (haccepted : params.Accepted parentBaseFee minGasPrice multiplier)
include haccepted

theorem calculateBaseFee_kept (h : ¬ params.Calculates ctx.height) :
    calculateBaseFee range params ctx = .ok none ∨
      calculateBaseFee range params ctx = .ok (some parentBaseFee) := by
  unfold calculateBaseFee
  rw [haccepted.getParams]
  by_cases henabled : params.isBaseFeeEnabled ctx.height = false
  · rw [if_pos henabled]
    exact .inl rfl
  have hfirst : ctx.height = params.enableHeight := by
    by_contra hne
    exact h ⟨by simpa using henabled, hne⟩
  rw [if_neg henabled, if_pos hfirst, haccepted.baseFee_eq]
  exact .inr rfl

variable (h : params.Calculates ctx.height)
include h

theorem calculateBaseFee_divisionByZero (helasticity : params.elasticityMultiplier = 0) :
    calculateBaseFee range params ctx = .error (.panic "Division by zero") := by
  unfold calculateBaseFee
  rw [haccepted.getParams]
  rw [if_neg (by simp [h.1]), if_neg h.2, haccepted.baseFee_eq]
  dsimp only
  rw [if_pos helasticity]

theorem calculateBaseFee_eq (helasticity : params.elasticityMultiplier ≠ 0) :
    calculateBaseFee range params ctx =
      if (ctx.parentGasUsed.toNat : ℤ) = gasTarget params ctx.maxGas then .ok (some parentBaseFee)
      else if gasTarget params ctx.maxGas = 0 then .ok (some (.newDec 0))
      else (nextBaseFee range parentBaseFee minGasPrice params.baseFeeChangeDenominator
        (UInt64.ofNat (gasTarget params ctx.maxGas).toNat) ctx.parentGasUsed).map some := by
  have hrange := not_not.mpr (ctx.gasTarget_lt params)
  unfold calculateBaseFee
  rw [haccepted.getParams]
  rw [if_neg (by simp [h.1]), if_neg h.2, haccepted.baseFee_eq]
  dsimp only
  rw [if_neg helasticity, haccepted.minGasPrice_eq]
  exact if_neg hrange

theorem calculateBaseFee_returns (hmoderate : Moderate parentBaseFee)
    (helasticity : params.elasticityMultiplier ≠ 0) :
    ∃ baseFee, calculateBaseFee range params ctx = .ok (some baseFee) := by
  rw [calculateBaseFee_eq haccepted h helasticity]
  split
  · exact ⟨parentBaseFee, rfl⟩
  · split
    · exact ⟨.newDec 0, rfl⟩
    · obtain ⟨baseFee, hnext⟩ := nextBaseFee_returns haccepted.baseFee_nonneg (hmoderate.fits range)
      exact ⟨baseFee, by rw [hnext]; rfl⟩

end Accepted

theorem beginBlock_returns_iff :
    (∃ params', beginBlock range params ctx = .ok params') ↔
      ∃ baseFee, calculateBaseFee range params ctx = .ok baseFee := by
  constructor
  · rintro ⟨params', h⟩
    obtain ⟨baseFee, hcalculate, -⟩ := except_bind_ok.mp h
    exact ⟨baseFee, hcalculate⟩
  rintro ⟨baseFee, h⟩
  unfold beginBlock
  rw [h]
  cases baseFee with
  | none => exact ⟨params, rfl⟩
  | some baseFee => exact ⟨_, rfl⟩

/-- **When the base fee is calculated**: if the block takes no part in it or the divisor of the
target is not zero. -/
theorem calculateBaseFee_returns_iff (range : DecRange) (hvalid : params.validate = .ok ())
    (hmoderate : ∀ baseFee, params.baseFee = some baseFee → Moderate baseFee)
    (ctx : BlockContext) :
    ((∃ baseFee, calculateBaseFee range params ctx = .ok baseFee) ↔
        (params.Calculates ctx.height → params.elasticityMultiplier ≠ 0)) ∧
      ((∃ params', beginBlock range params ctx = .ok params') ↔
        (params.Calculates ctx.height → params.elasticityMultiplier ≠ 0)) := by
  obtain ⟨parentBaseFee, minGasPrice, multiplier, haccepted⟩ := params.validate_ok hvalid
  rw [beginBlock_returns_iff, and_self]
  by_cases hcalculates : params.Calculates ctx.height
  · by_cases helasticity : params.elasticityMultiplier = 0
    · rw [calculateBaseFee_divisionByZero haccepted hcalculates helasticity]
      constructor
      · rintro ⟨baseFee, h⟩
        cases h
      · intro h
        exact absurd helasticity (h hcalculates)
    · obtain ⟨baseFee, h⟩ := @calculateBaseFee_returns range params ctx _ _ _ haccepted
        hcalculates (hmoderate parentBaseFee haccepted.baseFee_eq) helasticity
      exact ⟨fun _ _ => helasticity, fun _ => ⟨_, h⟩⟩
  · refine ⟨fun _ h => absurd h hcalculates, fun _ => ?_⟩
    rcases @calculateBaseFee_kept range params ctx _ _ _ haccepted hcalculates with h | h
    · exact ⟨_, h⟩
    · exact ⟨_, h⟩

/-- Decimals of at most 315 bits. -/
def bits315 : DecRange where
  max := 2 ^ 315 - 1
  large := (Int.sub_add_cancel _ _).ge

/-- A block after the first one. -/
def secondBlock (parentGasUsed : UInt64) : BlockContext where
  height := 1
  maxGas := some 40000000
  parentGasUsed := parentGasUsed
  maxGas_lt := by decide

theorem defaultParams_moderate :
    ∀ baseFee, defaultParams.baseFee = some baseFee → Moderate baseFee := by
  intro baseFee h
  cases h
  show 1000000000 * LegacyDec.precision < 2 ^ 128 * LegacyDec.precision
  decide

theorem calculateBaseFee_returns_default :
    (∃ baseFee, calculateBaseFee bits315 defaultParams (secondBlock 0) = .ok baseFee) ∧
      ∃ params', beginBlock bits315 defaultParams (secondBlock 0) = .ok params' := by
  obtain ⟨hcalculate, hbegin⟩ := @calculateBaseFee_returns_iff defaultParams bits315 (by rfl)
    defaultParams_moderate (secondBlock 0)
  exact ⟨hcalculate.mpr fun _ => by decide, hbegin.mpr fun _ => by decide⟩

/-- **A divisor of zero** passes `Validate`; the next block cannot begin. -/
theorem beginBlock_zeroElasticity :
    { defaultParams with elasticityMultiplier := 0 }.validate = .ok () ∧
      (∀ baseFee, { defaultParams with elasticityMultiplier := 0 }.baseFee = some baseFee →
        Moderate baseFee) ∧
      calculateBaseFee bits315 { defaultParams with elasticityMultiplier := 0 } (secondBlock 0) =
        .error (.panic "Division by zero") ∧
      beginBlock bits315 { defaultParams with elasticityMultiplier := 0 } (secondBlock 0) =
        .error (.panic "Division by zero") :=
  ⟨rfl, defaultParams_moderate, rfl, rfl⟩

end Calculation

section Dynamics

variable {range : DecRange} {params : Params} {ctx : BlockContext}
  {parentBaseFee minGasPrice multiplier : LegacyDec}

/-- The base fee after a block, by the gas that was used. -/
structure Moves (parentBaseFee minGasPrice : LegacyDec) (target : ℤ) (gas : UInt64)
    (baseFee : LegacyDec) : Prop where
  atLeast : minGasPrice.digits ≤ baseFee.digits
  same : gas.toNat = target → baseFee = parentBaseFee
  up : target < gas.toNat → parentBaseFee.digits + (LegacyDec.newDec 1).digits ≤ baseFee.digits
  down : gas.toNat < target → baseFee.digits ≤ parentBaseFee.digits

section

variable (haccepted : params.Accepted parentBaseFee minGasPrice multiplier)
  (helasticity : params.elasticityMultiplier ≠ 0)
  (hmin : minGasPrice.digits ≤ parentBaseFee.digits)
include haccepted helasticity hmin

section

variable (h : params.Calculates ctx.height) (htarget : 0 < gasTarget params ctx.maxGas)
  {result : Option LegacyDec} (hok : calculateBaseFee range params ctx = .ok result)
include h htarget hok

theorem calculateBaseFee_ideal :
    ∃ baseFee, result = some baseFee ∧ baseFee.digits = idealBaseFee parentBaseFee.digits
      minGasPrice.digits params.baseFeeChangeDenominator.toNat
      (gasTarget params ctx.maxGas).toNat ctx.parentGasUsed.toNat := by
  obtain ⟨-, htargetLt⟩ := ctx.gasTarget_lt params
  rw [calculateBaseFee_eq haccepted h helasticity] at hok
  split at hok
  · rename_i hsame
    cases hok
    refine ⟨parentBaseFee, rfl, ?_⟩
    rw [← hsame, Int.toNat_natCast, idealBaseFee_target hmin]
  · rw [if_neg (by omega)] at hok
    obtain ⟨baseFee, hnext, rfl⟩ := except_map_ok.mp hok
    refine ⟨baseFee, rfl, ?_⟩
    have hsize : (gasTarget params ctx.maxGas).toNat < UInt64.size := by
      show (gasTarget params ctx.maxGas).toNat < 2 ^ 64
      omega
    have hword := UInt64.toNat_ofNat_of_lt' hsize
    rw [nextBaseFee_ok haccepted.baseFee_nonneg hnext, hword]

theorem calculateBaseFee_moves :
    ∃ baseFee, result = some baseFee ∧
      Moves parentBaseFee minGasPrice (gasTarget params ctx.maxGas) ctx.parentGasUsed baseFee := by
  obtain ⟨baseFee, rfl, hideal⟩ :=
    calculateBaseFee_ideal haccepted helasticity hmin h htarget hok
  refine ⟨baseFee, rfl, ?_, ?_, ?_, ?_⟩
  · rw [hideal]
    exact le_idealBaseFee hmin
  · intro hsame
    have hdigits : baseFee.digits = parentBaseFee.digits := by
      rw [hideal, ← hsame, Int.toNat_natCast, idealBaseFee_target hmin]
    cases baseFee
    cases parentBaseFee
    exact congrArg LegacyDec.mk hdigits
  · intro habove
    have hone : (LegacyDec.newDec 1).digits = LegacyDec.precision := Int.one_mul _
    rw [hideal, hone]
    exact add_one_le_idealBaseFee (by omega)
  · intro hbelow
    rw [hideal]
    exact idealBaseFee_le haccepted.baseFee_nonneg hmin (by omega)

end

/-- Only the base fee of the parameters changes. -/
theorem beginBlock_keeps (htarget : 0 < gasTarget params ctx.maxGas) {params' : Params}
    (hok : beginBlock range params ctx = .ok params') :
    ∃ baseFee, params' = { params with baseFee := some baseFee } ∧
      minGasPrice.digits ≤ baseFee.digits := by
  obtain ⟨result, hcalculate, hreturn⟩ := except_bind_ok.mp hok
  have hsame : params = { params with baseFee := some parentBaseFee } := by
    rw [← haccepted.baseFee_eq]
  by_cases h : params.Calculates ctx.height
  · obtain ⟨baseFee, rfl, hmoves⟩ :=
      calculateBaseFee_moves haccepted helasticity hmin h htarget hcalculate
    cases hreturn
    rw [haccepted.getParams]
    exact ⟨baseFee, rfl, hmoves.atLeast⟩
  · rcases @calculateBaseFee_kept range params ctx _ _ _ haccepted h with hkept | hkept
    · rw [hkept] at hcalculate
      cases hcalculate
      cases hreturn
      exact ⟨parentBaseFee, hsame, hmin⟩
    · rw [hkept] at hcalculate
      cases hcalculate
      cases hreturn
      rw [haccepted.getParams]
      exact ⟨parentBaseFee, rfl, hmin⟩

/-- **Never below the minimum**, over any list of blocks. -/
theorem beginBlocks_keeps {blocks : List BlockContext}
    (htarget : ∀ ctx ∈ blocks, 0 < gasTarget params ctx.maxGas) {params' : Params}
    (hok : beginBlocks range params blocks = .ok params') :
    ∃ baseFee, params' = { params with baseFee := some baseFee } ∧
      minGasPrice.digits ≤ baseFee.digits := by
  induction blocks generalizing params parentBaseFee with
  | nil =>
    cases hok
    exact ⟨parentBaseFee, by rw [← haccepted.baseFee_eq], hmin⟩
  | cons ctx blocks ih =>
    obtain ⟨params₁, hblock, hrest⟩ := except_bind_ok.mp hok
    obtain ⟨baseFee₁, rfl, hmin₁⟩ := beginBlock_keeps haccepted helasticity hmin
      (htarget ctx List.mem_cons_self) hblock
    have haccepted₁ :
        { params with baseFee := some baseFee₁ }.Accepted baseFee₁ minGasPrice multiplier :=
      { haccepted with
        baseFee_eq := rfl
        baseFee_nonneg := haccepted.minGasPrice_nonneg.trans hmin₁ }
    obtain ⟨baseFee, rfl, hfinal⟩ := ih haccepted₁ helasticity hmin₁
      (fun ctx' h' => htarget ctx' (List.mem_cons_of_mem ctx h')) hrest
    exact ⟨baseFee, rfl, hfinal⟩

end

/-- **How the base fee moves**, while decimals are in range. -/
theorem baseFee_dynamics (range : DecRange) (hvalid : params.validate = .ok ())
    (helasticity : params.elasticityMultiplier ≠ 0) {parentBaseFee minGasPrice : LegacyDec}
    (hfee : params.baseFee = some parentBaseFee) (hprice : params.minGasPrice = some minGasPrice)
    (hmin : minGasPrice.digits ≤ parentBaseFee.digits) :
    (∀ ctx, params.Calculates ctx.height → 0 < gasTarget params ctx.maxGas →
      (Moderate parentBaseFee → ∃ result, calculateBaseFee range params ctx = .ok result) ∧
      ∀ result, calculateBaseFee range params ctx = .ok result → ∃ baseFee,
        result = some baseFee ∧ Moves parentBaseFee minGasPrice (gasTarget params ctx.maxGas)
          ctx.parentGasUsed baseFee) ∧
    (∀ ctx ctx', params.Calculates ctx.height → params.Calculates ctx'.height →
      ctx'.maxGas = ctx.maxGas → 0 < gasTarget params ctx.maxGas →
      ctx.parentGasUsed ≤ ctx'.parentGasUsed → ∀ baseFee baseFee',
        calculateBaseFee range params ctx = .ok (some baseFee) →
        calculateBaseFee range params ctx' = .ok (some baseFee') →
        baseFee.digits ≤ baseFee'.digits) ∧
    ∀ blocks : List BlockContext, (∀ ctx ∈ blocks, 0 < gasTarget params ctx.maxGas) →
      ∀ params', beginBlocks range params blocks = .ok params' →
        ∃ baseFee, params'.baseFee = some baseFee ∧ minGasPrice.digits ≤ baseFee.digits := by
  obtain ⟨_, _, multiplier, haccepted⟩ := params.validate_ok hvalid
  cases hfee.symm.trans haccepted.baseFee_eq
  cases hprice.symm.trans haccepted.minGasPrice_eq
  refine ⟨?_, ?_, ?_⟩
  · intro ctx h htarget
    refine ⟨fun hmoderate => ?_, fun result hok =>
      calculateBaseFee_moves haccepted helasticity hmin h htarget hok⟩
    obtain ⟨baseFee, hok⟩ := @calculateBaseFee_returns range params ctx _ _ _ haccepted h hmoderate
      helasticity
    exact ⟨_, hok⟩
  · intro ctx ctx' h h' hmaxGas htarget hgas baseFee baseFee' hok hok'
    have hideal := calculateBaseFee_ideal haccepted helasticity hmin h htarget hok
    rw [← hmaxGas] at htarget
    have hideal' := calculateBaseFee_ideal haccepted helasticity hmin h' htarget hok'
    simp only [Option.some.injEq, exists_eq_left'] at hideal hideal'
    rw [hideal, hideal', hmaxGas]
    exact idealBaseFee_mono haccepted.baseFee_nonneg hmin (UInt64.le_iff_toNat_le.mp hgas)
  · intro blocks htarget params' hok
    obtain ⟨baseFee, rfl, hfinal⟩ := beginBlocks_keeps haccepted helasticity hmin htarget hok
    exact ⟨baseFee, rfl, hfinal⟩

/-- The default parameters, after a block of 50 million gas. -/
theorem baseFee_dynamics_default :
    ∃ baseFee, calculateBaseFee bits315 defaultParams (secondBlock 50000000) = .ok (some baseFee) ∧
      Moves (.newDec 1000000000) (.newDec 0) 20000000 50000000 baseFee := by
  obtain ⟨hstep, -, -⟩ := @baseFee_dynamics defaultParams bits315 (by rfl) (by decide)
    (.newDec 1000000000) (.newDec 0) rfl rfl (by decide)
  obtain ⟨hreturns, hmoves⟩ := hstep (secondBlock 50000000) ⟨rfl, by decide⟩ (by decide)
  obtain ⟨result, hresult⟩ := hreturns (defaultParams_moderate _ rfl)
  obtain ⟨baseFee, rfl, h⟩ := hmoves result hresult
  exact ⟨baseFee, hresult, h⟩

end Dynamics

end TacEvm.FeeMarket
