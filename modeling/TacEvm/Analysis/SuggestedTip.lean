import TacEvm.Analysis.BaseFee

/-!
# The suggested tip

The suggestion is computed from a product of 64 bits. A product that fits gives the largest step of
the base fee, rounded down, and one that wraps around gives less (`share_le_wrapped_iff`).
-/

namespace TacEvm.FeeMarket

open FallibleState

/-! ## The product of 64 bits -/

section Product

variable {E D : ℕ}

theorem toInt_maxDelta (hE : E < 2 ^ 32) (hD : D < 2 ^ 32) (b : ℤ) :
    (Int64.ofInt b * (Int64.ofNat E - 1) / Int64.ofNat D).toInt =
      ((b * (E - 1)).bmod (2 ^ 64)).tdiv D := by
  have hfactor : (Int64.ofNat E - 1).toInt = E - 1 := by
    rw [Int64.toInt_sub, Int64.toInt_ofNat_of_lt (hE.trans (by decide))]
    exact Int.bmod_eq_of_le (by simp; omega) (by simp; omega)
  have hdivisor : (Int64.ofNat D).toInt = D := Int64.toInt_ofNat_of_lt (hD.trans (by decide))
  have hproduct : (Int64.ofInt b * (Int64.ofNat E - 1)).toInt = (b * (E - 1)).bmod (2 ^ 64) := by
    rw [Int64.toInt_mul, Int64.toInt_ofInt, hfactor]
    exact Int.bmod_mul_bmod
  rw [Int64.toInt_div_of_ne_right _ _ ?_, hproduct, hdivisor]
  intro h
  have hneg : (D : ℤ) = -1 := hdivisor.symm.trans (congrArg Int64.toInt h)
  omega

theorem max_tdiv (w : ℤ) (D : ℕ) : max 0 (w.tdiv D) = max 0 w / D := by
  rcases le_total 0 w with hw | hw
  · have hquotient : 0 ≤ w / D := by positivity
    rw [Int.tdiv_eq_ediv_of_nonneg hw, max_eq_right hw, max_eq_right hquotient]
  · have hquotient : 0 ≤ (-w).tdiv D := Int.tdiv_nonneg (by omega) (by positivity)
    rw [Int.neg_tdiv] at hquotient
    rw [max_eq_left hw, max_eq_left (by omega), Int.zero_ediv]

theorem suggestGasTipCap_eq {params : Params} (hD : params.baseFeeChangeDenominator ≠ 0) (b : ℤ) :
    suggestGasTipCap (.ok params) (some b) =
      .ok (max 0 ((b * (params.elasticityMultiplier.toNat - 1)).bmod (2 ^ 64)) /
        params.baseFeeChangeDenominator.toNat) := by
  show (if _ then _ else _) = _
  rw [if_neg hD, ← max_tdiv, ← toInt_maxDelta params.elasticityMultiplier.toNat_lt
    params.baseFeeChangeDenominator.toNat_lt]
  show Except.ok (if _ < (0 : Int64) then 0 else _) = _
  simp only [Int64.lt_iff_toInt_lt, Int64.toInt_zero]
  congr 1
  split <;> omega

variable {N : ℤ}

theorem bmod_of_small (hN : 0 ≤ N) (hsmall : N < 2 ^ 63) : max 0 (N.bmod (2 ^ 64)) = N := by
  rw [Int.bmod_eq_of_le (by simp; omega) (by simp; omega), max_eq_right hN]

theorem share_le_wrapped_iff (hN : 0 ≤ N) (hD : 0 < D) (hlt : D < 2 ^ 32) :
    N / D ≤ max 0 (N.bmod (2 ^ 64)) / D ↔ N < 2 ^ 63 := by
  refine ⟨fun h => ?_, fun hsmall => by rw [bmod_of_small hN hsmall]⟩
  by_contra hlarge
  have hpos : (0 : ℤ) < D := Int.natCast_pos.mpr hD
  -- what wraps around falls by at least the divisor
  have hfall : max 0 (N.bmod (2 ^ 64)) + D ≤ N := by
    rw [Int.bmod_def]
    split <;> omega
  have hle := Int.ediv_mul_le (max 0 (N.bmod (2 ^ 64))) hpos.ne'
  refine absurd h (not_le.mpr ?_)
  rw [Int.lt_iff_add_one_le, Int.le_ediv_iff_mul_le hpos, Int.add_mul, Int.one_mul]
  omega

end Product

/-! ## The next base fee -/

section Next

variable {params : Params} {b tip : ℤ}

/-- The tip is at least the largest share, and covers the next base fee. -/
structure CoversNextFee (params : Params) (b tip : ℤ) : Prop where
  share : b * (params.elasticityMultiplier.toNat - 1) / params.baseFeeChangeDenominator.toNat ≤ tip
  next : ∀ (range : DecRange) (ctx : BlockContext),
    (params.elasticityMultiplier.toNat : ℤ) ∣ blockGasLimit ctx.maxGas →
    ctx.parentGasUsed.toNat ≤ blockGasLimit ctx.maxGas → ∀ fee,
      calculateBaseFee range { params with baseFee := some (.newDec b) } ctx = .ok (some fee) →
      fee.digits ≤ (LegacyDec.newDec (b + tip + 1)).digits

/-- No base fee is calculated, or its lower bound is small. -/
def Params.MinWithin (params : Params) (n : ℤ) : Prop :=
  params.noBaseFee = true ∨
    (params.minGasPrice.getD (.newDec 0)).digits ≤ (LegacyDec.newDec n).digits

/-- A base fee is the one before, zero, or made from the gas used. -/
theorem calculateBaseFee_cases {range : DecRange} {ctx : BlockContext}
    {parentBaseFee fee : LegacyDec}
    (hok : calculateBaseFee range { params with baseFee := some parentBaseFee } ctx =
      .ok (some fee)) :
    fee = parentBaseFee ∨ fee = .newDec 0 ∨
      params.noBaseFee = false ∧ 0 < gasTarget params ctx.maxGas ∧
      nextBaseFee range parentBaseFee (params.minGasPrice.getD (.newDec 0))
        params.baseFeeChangeDenominator (UInt64.ofNat (gasTarget params ctx.maxGas).toNat)
        ctx.parentGasUsed = .ok fee := by
  unfold calculateBaseFee Params.getParams Params.isBaseFeeEnabled at hok
  unfold gasTarget
  dsimp only at hok
  split_ifs at hok with henabled hfirst helasticity hrange hsame hzero
  · cases hok
  · cases hok
    exact .inl rfl
  · cases hok
    exact .inl rfl
  · cases hok
    exact .inr (.inl rfl)
  · obtain ⟨_, hnext, hfee⟩ := except_map_ok.mp hok
    cases hfee
    refine .inr (.inr ⟨?_, by omega, hnext⟩)
    by_contra hno
    simp [hno] at henabled
  · cases hok

/-- The share above the target, for a multiple of the target. -/
theorem feeShare_le_step {E D T distance : ℕ} (hb : 0 ≤ b) (hdistance : distance ≤ E * T)
    (hT : 0 < T) (hD : 0 < D) (htip : b * E / D ≤ tip) :
    feeShare (b * LegacyDec.precision) D T distance ≤ (tip + 1) * LegacyDec.precision := by
  have hprecision : (0 : ℤ) < LegacyDec.precision := by decide
  have hT : (0 : ℤ) < T := Int.natCast_pos.mpr hT
  have hD : (0 : ℤ) < D := Int.natCast_pos.mpr hD
  have hstep : b * E < (tip + 1) * D := by
    have hlt := Int.lt_ediv_add_one_mul_self (b * E) hD
    nlinarith
  calc feeShare (b * LegacyDec.precision) D T distance
      ≤ feeShare (b * LegacyDec.precision) D T (E * T) := feeShare_mono (by positivity) hdistance
    _ = b * LegacyDec.precision * E / D := by
        unfold feeShare
        rw [Nat.cast_mul, ← mul_assoc, Int.mul_ediv_cancel _ hT.ne']
    _ ≤ (tip + 1) * LegacyDec.precision := by
        rw [Int.ediv_le_iff_le_mul hD]
        nlinarith

theorem idealBaseFee_le_step {E D T gas : ℕ} {minFee : ℤ} (hb : 0 ≤ b) (hgas : gas ≤ T * E)
    (hE : 0 < E) (hT : 0 < T) (hD : 0 < D) (htip : b * (E - 1) / D ≤ tip) (hnonneg : 0 ≤ tip)
    (hmin : minFee ≤ (b + tip + 1) * LegacyDec.precision) :
    idealBaseFee (b * LegacyDec.precision) minFee D T gas ≤
      (b + tip + 1) * LegacyDec.precision := by
  have hprecision : (0 : ℤ) < LegacyDec.precision := by decide
  have hone : LegacyDec.precision ≤ (tip + 1) * LegacyDec.precision := by nlinarith
  rw [Int.add_assoc, Int.add_mul] at hmin ⊢
  unfold idealBaseFee
  split
  · have hdistance : gas - T ≤ (E - 1) * T := by
      rw [Nat.sub_mul, Nat.one_mul, Nat.mul_comm]
      omega
    have hfactor : b * (E - 1 : ℕ) / D ≤ tip := by rwa [Nat.cast_sub hE, Nat.cast_one]
    have hshare := feeShare_le_step hb hdistance hT hD hfactor
    omega
  · have hshare : 0 ≤ feeShare (b * LegacyDec.precision) D T (T - gas) :=
      feeShare_nonneg (by positivity) _
    omega

/-- A share within the tip covers the next fee. -/
theorem coversNextFee (hb : 0 ≤ b) (hE : 0 < params.elasticityMultiplier.toNat)
    (hD : 0 < params.baseFeeChangeDenominator.toNat)
    (hshare : b * (params.elasticityMultiplier.toNat - 1) /
      params.baseFeeChangeDenominator.toNat ≤ tip) (hnonneg : 0 ≤ tip)
    (hmin : params.MinWithin (b + tip + 1)) : CoversNextFee params b tip where
  share := hshare
  next := by
    intro range ctx hdvd hgas fee hok
    have hprecision : (0 : ℤ) < LegacyDec.precision := by decide
    have hparent : 0 ≤ b * LegacyDec.precision := by positivity
    rcases calculateBaseFee_cases hok with rfl | rfl | ⟨henabled, htarget, hnext⟩
    · exact Int.mul_le_mul_of_nonneg_right (by omega) hprecision.le
    · exact Int.mul_le_mul_of_nonneg_right (by omega) hprecision.le
    · obtain ⟨-, hlt⟩ := ctx.gasTarget_lt params
      have hlimit : gasTarget params ctx.maxGas * params.elasticityMultiplier.toNat =
          blockGasLimit ctx.maxGas := Int.tdiv_mul_cancel hdvd
      rw [nextBaseFee_ok hparent hnext, UInt64.toNat_ofNat_of_lt' (by show _ < 2 ^ 64; omega)]
      refine idealBaseFee_le_step hb ?_ hE (by omega) hD hshare hnonneg
        (hmin.resolve_left (by simp [henabled]))
      zify
      rwa [Int.toNat_of_nonneg htarget.le, hlimit]

/-- A tip that covers the next fee fits the minimum. -/
theorem CoversNextFee.minWithin (hb : 0 ≤ b) (hE : params.elasticityMultiplier ≠ 0)
    (h : CoversNextFee params b tip) : params.MinWithin (b + tip + 1) := by
  have hprecision : (0 : ℤ) < LegacyDec.precision := by decide
  have hparent : 0 ≤ b * LegacyDec.precision := by positivity
  have hone : (params.elasticityMultiplier.toNat : ℤ) ≠ 0 := by
    exact_mod_cast fun h => hE (UInt32.toNat_inj.mp h)
  -- an empty block whose target is one, in a range that is large enough
  let range : DecRange :=
    ⟨2 ^ 315 + (b * LegacyDec.precision * 2 ^ 64 + LegacyDec.precision), by omega⟩
  let ctx : BlockContext :=
    { height := params.enableHeight + 1
      maxGas := some params.elasticityMultiplier.toNat
      parentGasUsed := 0
      maxGas_lt := by
        rintro gas ⟨⟩
        exact Int.ofNat_lt.mpr (params.elasticityMultiplier.toNat_lt.trans (by decide)) }
  have hlimit : blockGasLimit ctx.maxGas = params.elasticityMultiplier.toNat := by
    unfold blockGasLimit
    simp only [ctx]
    rw [if_pos (by omega)]
  obtain ⟨fee, hfee⟩ := @nextBaseFee_returns range (.newDec b) (params.minGasPrice.getD (.newDec 0))
    params.baseFeeChangeDenominator 1 0 hparent (le_add_of_nonneg_left (by positivity))
  by_contra hno
  obtain ⟨henabled, hmin⟩ := not_or.mp hno
  refine hmin (le_trans ?_ (h.next range ctx ?_ ?_ fee ?_))
  · rw [nextBaseFee_ok hparent hfee]
    exact le_max_right _ _
  · rw [hlimit]
  · rw [hlimit]
    exact Int.natCast_nonneg _
  · unfold calculateBaseFee Params.getParams Params.isBaseFeeEnabled
    simp only [hlimit, Int.tdiv_self hone]
    simp [henabled, hE, ctx, hfee, Except.map]

/-- **The suggested tip covers the next base fee** exactly if the product has 63 bits and the lower
bound is near. -/
theorem suggestGasTipCap_covers_iff (hb : 0 ≤ b) (hE : params.elasticityMultiplier ≠ 0)
    (hD : params.baseFeeChangeDenominator ≠ 0) :
    (∃ tip, suggestGasTipCap (.ok params) (some b) = .ok tip ∧ CoversNextFee params b tip) ↔
      b * (params.elasticityMultiplier.toNat - 1) < 2 ^ 63 ∧ params.MinWithin
        (b + b * (params.elasticityMultiplier.toNat - 1) /
          params.baseFeeChangeDenominator.toNat + 1) := by
  have hpos : ∀ {n : UInt32}, n ≠ 0 → 0 < n.toNat := fun h =>
    Nat.pos_of_ne_zero fun hzero => h (UInt32.toNat_inj.mp hzero)
  have hN : 0 ≤ b * (params.elasticityMultiplier.toNat - 1) :=
    Int.mul_nonneg hb (by have := hpos hE; omega)
  have hsmall := @share_le_wrapped_iff _ _ hN (hpos hD) params.baseFeeChangeDenominator.toNat_lt
  rw [suggestGasTipCap_eq hD]
  constructor
  · rintro ⟨tip, ⟨⟩, hcovers⟩
    have hlt := hsmall.mp hcovers.share
    rw [bmod_of_small hN hlt] at hcovers
    exact ⟨hlt, hcovers.minWithin hb hE⟩
  · rintro ⟨hlt, hmin⟩
    refine ⟨_, rfl, coversNextFee hb (hpos hE) (hpos hD) (hsmall.mpr hlt) (by positivity) ?_⟩
    rwa [bmod_of_small hN hlt]

/-- The default parameters. -/
theorem suggestGasTipCap_covers_default :
    ∃ tip, suggestGasTipCap (.ok defaultParams) (some 1000000000) = .ok tip ∧
      CoversNextFee defaultParams 1000000000 tip :=
  (suggestGasTipCap_covers_iff (by decide) (by decide) (by decide)).mpr
    ⟨by decide, .inr (by decide)⟩

/-- **A base fee of 64 bits**: nothing is suggested. -/
theorem suggestGasTipCap_wraps :
    suggestGasTipCap (.ok defaultParams) (some (2 ^ 63)) = .ok 0 ∧
      ¬ CoversNextFee defaultParams (2 ^ 63) 0 :=
  ⟨rfl, fun hcovers => absurd hcovers.share (by decide)⟩

end Next

end TacEvm.FeeMarket
