import TacEvm.Model.Keeper

/-!
# What the keepers write when they succeed

The bank and `x/vm` keepers as equations: a successful `SetBalance` of whole bank units sets the
balance and moves the supply by the difference.
-/

namespace TacEvm

open FallibleState Store

variable {Ω : Type} {env : Env} {st st' : Store Ω}

namespace Store

/-! ## Fields of an updated store -/

theorem balance_setBankBalance (a b : Address) (d e : Denom) (n : ℕ) :
    (st.setBankBalance a d n).balance b e = if b = a ∧ e = d then n else st.balance b e := by
  unfold setBankBalance
  by_cases hb : b = a
  · subst hb
    by_cases he : e = d
    · simp [he]
    · simp [he]
  · simp [hb]

theorem setBankBalance_comm_supply (a : Address) (d e : Denom) (n m : ℕ) :
    (st.setBankBalance a d n).setSupply e m = (st.setSupply e m).setBankBalance a d n := rfl

theorem setBankBalance_idem (a : Address) (d : Denom) (n m : ℕ) :
    (st.setBankBalance a d n).setBankBalance a d m = st.setBankBalance a d m := by
  simp [setBankBalance]

theorem setBankBalance_self (a : Address) (d : Denom) :
    st.setBankBalance a d (st.balance a d) = st := by
  simp [setBankBalance]

theorem setBankBalance_comm {a b : Address} (hab : a ≠ b) (d : Denom) (n m : ℕ) :
    (st.setBankBalance a d n).setBankBalance b d m =
      (st.setBankBalance b d m).setBankBalance a d n := by
  have hcomm := Function.update_comm hab (Function.update (st.balance a) d n)
    (Function.update (st.balance b) d m) st.balance
  simp only [setBankBalance, Function.update_of_ne hab.symm, Function.update_of_ne hab, hcomm]

end Store

namespace Bank

variable {amt n : ℤ}

theorem validateAmount_ok (h : (validateAmount amt : KeeperM Ω Unit).run st = .ok () st') :
    0 < amt ∧ st' = st := by
  unfold validateAmount at h
  split at h
  · rename_i hpos
    cases h
    exact ⟨hpos, rfl⟩
  · cases h

theorem validateAmount_run (h : 0 < amt) :
    (validateAmount amt : KeeperM Ω Unit).run st = .ok () st := by
  simp [validateAmount, h]

variable {a : Address} {d : Denom}

theorem subUnlockedCoins_ok {n : ℕ}
    (h : (subUnlockedCoins env a d n).run st = .ok () st') :
    n + env.lockedCoins a d ≤ st.balance a d ∧
      st' = st.setBankBalance a d (st.balance a d - n) := by
  simp only [subUnlockedCoins, run_get_bind] at h
  split at h
  · cases h
  · cases h
    exact ⟨by omega, rfl⟩

theorem subUnlockedCoins_run {n : ℕ} (h : n + env.lockedCoins a d ≤ st.balance a d) :
    (subUnlockedCoins env a d n).run st = .ok () (st.setBankBalance a d (st.balance a d - n)) := by
  have hlt : ¬ st.balance a d < n + env.lockedCoins a d := by omega
  simp [subUnlockedCoins, hlt]

/-- The store after a successful send. -/
def sent (st : Store Ω) (src dst : Address) (d : Denom) (n : ℕ) : Store Ω :=
  let st₁ := st.setBankBalance src d (st.balance src d - n)
  st₁.setBankBalance dst d (st₁.balance dst d + n)

theorem sendCoins_ok {src dst : Address} (h : (sendCoins env src dst d amt).run st = .ok () st') :
    0 < amt ∧ amt.toNat + env.lockedCoins src d ≤ st.balance src d ∧
      st' = sent st src dst d amt.toNat := by
  obtain ⟨_, st₁, hvalid, hrest⟩ := bind_ok.mp h
  obtain ⟨hpos, rfl⟩ := validateAmount_ok hvalid
  obtain ⟨_, st₂, hsub, hadd⟩ := bind_ok.mp hrest
  obtain ⟨hle, rfl⟩ := subUnlockedCoins_ok hsub
  cases hadd
  exact ⟨hpos, hle, rfl⟩

theorem sendCoins_run {src dst : Address} (hpos : 0 < amt)
    (hle : amt.toNat + env.lockedCoins src d ≤ st.balance src d) :
    (sendCoins env src dst d amt).run st = .ok () (sent st src dst d amt.toNat) := by
  unfold sendCoins
  rw [bind_run_of_ok (validateAmount_run hpos), bind_run_of_ok (subUnlockedCoins_run hle)]
  rfl

theorem sent_of_received (st : Store Ω) (m a : Address) (d : Denom) (n : ℕ) :
    sent (st.setBankBalance m d (st.balance m d + n)) m a d n =
      st.setBankBalance a d (st.balance a d + n) := by
  have hback : (st.setBankBalance m d (st.balance m d + n)).setBankBalance m d
      ((st.setBankBalance m d (st.balance m d + n)).balance m d - n) = st := by
    rw [setBankBalance_idem, balance_setBankBalance]
    simp [setBankBalance_self]
  simp only [sent, hback]

/-- Burning through a module is burning from the account. -/
theorem sub_of_sent (st : Store Ω) (a m : Address) (d : Denom) {n : ℕ}
    (hle : n ≤ st.balance a d) :
    (sent st a m d n).setBankBalance m d ((sent st a m d n).balance m d - n) =
      st.setBankBalance a d (st.balance a d - n) := by
  simp only [sent, setBankBalance_idem, balance_setBankBalance]
  by_cases hma : m = a
  · subst hma
    simp [setBankBalance_idem]
  · simp only [hma, false_and, if_false, and_self, if_true, Nat.add_sub_cancel]
    rw [setBankBalance_comm (Ne.symm hma), setBankBalance_self]

theorem mintAmountToAccount_ok
    (h : (mintAmountToAccount env a (n * env.conversionFactor)).run st = .ok () st') :
    0 < n ∧ st' = (st.setBankBalance a env.evmDenom (st.balance a env.evmDenom + n.toNat)).setSupply
      env.evmDenom (st.supply env.evmDenom + n.toNat) := by
  simp only [mintAmountToAccount, env.convertAmountFrom18Decimals_mul] at h
  obtain ⟨_, st₁, hmint, hsend⟩ := bind_ok.mp h
  obtain ⟨_, st₂, hvalid, hadd⟩ := bind_ok.mp hmint
  obtain ⟨hpos, rfl⟩ := validateAmount_ok hvalid
  cases hadd
  unfold sendCoinsFromModuleToAccount at hsend
  split at hsend
  · cases hsend
  obtain ⟨-, -, rfl⟩ := sendCoins_ok hsend
  refine ⟨hpos, ?_⟩
  rw [setBankBalance_comm_supply]
  exact sent_of_received (st₂.setSupply env.evmDenom (st₂.supply env.evmDenom + n.toNat))
    env.evmModule a env.evmDenom n.toNat

theorem burnAmountFromAccount_ok
    (h : (burnAmountFromAccount env a (n * env.conversionFactor)).run st = .ok () st') :
    0 < n ∧ n.toNat ≤ st.balance a env.evmDenom ∧ n.toNat ≤ st.supply env.evmDenom ∧
      st' = (st.setBankBalance a env.evmDenom (st.balance a env.evmDenom - n.toNat)).setSupply
        env.evmDenom (st.supply env.evmDenom - n.toNat) := by
  simp only [burnAmountFromAccount, env.convertAmountFrom18Decimals_mul] at h
  obtain ⟨_, st₁, hsend, hburn⟩ := bind_ok.mp h
  obtain ⟨hpos, hle, rfl⟩ := sendCoins_ok hsend
  obtain ⟨_, st₂, hvalid, hrest⟩ := bind_ok.mp hburn
  obtain ⟨-, rfl⟩ := validateAmount_ok hvalid
  obtain ⟨_, st₃, hsub, hsupply⟩ := bind_ok.mp hrest
  obtain ⟨-, rfl⟩ := subUnlockedCoins_ok hsub
  have hbal : n.toNat ≤ st.balance a env.evmDenom := by omega
  rw [sub_of_sent st a env.evmModule env.evmDenom hbal] at hsupply
  simp only [run_get_bind] at hsupply
  split at hsupply
  · cases hsupply
  · rename_i hle
    cases hsupply
    exact ⟨hpos, hbal, Nat.not_lt.mp hle, rfl⟩

theorem mintAmountToAccount_run (hpos : 0 < n) (hblocked : env.blockedAddr a = false)
    (hlocked : env.lockedCoins env.evmModule env.evmDenom ≤ st.balance env.evmModule env.evmDenom) :
    ∃ st', (mintAmountToAccount env a (n * env.conversionFactor)).run st = .ok () st' := by
  have hmint : (mintCoins env.evmModule env.evmDenom n).run st =
      .ok () ((st.setBankBalance env.evmModule env.evmDenom
        (st.balance env.evmModule env.evmDenom + n.toNat)).setSupply env.evmDenom
          (st.supply env.evmDenom + n.toNat)) := bind_run_of_ok (validateAmount_run hpos)
  simp only [mintAmountToAccount, env.convertAmountFrom18Decimals_mul,
    sendCoinsFromModuleToAccount, hblocked]
  rw [bind_run_of_ok hmint]
  refine ⟨_, sendCoins_run hpos ?_⟩
  simp only [setBankBalance_comm_supply, balance_setBankBalance, and_self, if_true]
  omega

theorem burnAmountFromAccount_run (hpos : 0 < n)
    (hlocked : n.toNat + env.lockedCoins a env.evmDenom ≤ st.balance a env.evmDenom)
    (hmodule : env.lockedCoins env.evmModule env.evmDenom = 0)
    (hsupply : n.toNat ≤ st.supply env.evmDenom) :
    ∃ st', (burnAmountFromAccount env a (n * env.conversionFactor)).run st = .ok () st' := by
  have hsub : n.toNat + env.lockedCoins env.evmModule env.evmDenom ≤
      (sent st a env.evmModule env.evmDenom n.toNat).balance env.evmModule env.evmDenom := by
    simp only [sent, balance_setBankBalance, and_self, if_true, hmodule]
    omega
  have hle : ¬ st.supply env.evmDenom < n.toNat := by omega
  simp only [burnAmountFromAccount, env.convertAmountFrom18Decimals_mul, burnCoins,
    sendCoinsFromAccountToModule]
  rw [bind_run_of_ok (sendCoins_run hpos hlocked), bind_run_of_ok (validateAmount_run hpos),
    bind_run_of_ok (subUnlockedCoins_run hsub)]
  simp only [run_get_bind]
  split
  · rename_i hlt
    exact absurd hlt hle
  · exact ⟨_, rfl⟩

end Bank

namespace Keeper

theorem getBalance_eq (st : Store Ω) (a : Address) :
    st.getBalance env a = st.balance a env.evmDenom * env.conversionFactor := rfl

theorem delta_eq (st : Store Ω) (a : Address) (m : ℤ) :
    m * env.conversionFactor - st.getBalance env a =
      (m - st.balance a env.evmDenom) * env.conversionFactor := by
  rw [getBalance_eq, sub_mul]

theorem setBalance_run_eq (st : Store Ω) (a : Address) (m : ℤ) :
    (setBalance env a (m * env.conversionFactor)).run st =
      if (st.balance a env.evmDenom : ℤ) < m then
        (Bank.mintAmountToAccount env a
          ((m - st.balance a env.evmDenom) * env.conversionFactor)).run st
      else if m < st.balance a env.evmDenom then
        (Bank.burnAmountFromAccount env a
          ((st.balance a env.evmDenom - m) * env.conversionFactor)).run st
      else .ok () st := by
  have hF := env.int_conversionFactor_pos
  have hneg : -((m - (st.balance a env.evmDenom : ℤ)) * env.conversionFactor) =
      (st.balance a env.evmDenom - m) * env.conversionFactor := by ring
  simp only [setBalance, run_get_bind, delta_eq, hneg]
  have hpos : 0 < (m - (st.balance a env.evmDenom : ℤ)) * env.conversionFactor ↔
      (st.balance a env.evmDenom : ℤ) < m := by
    rw [mul_pos_iff_of_pos_right hF, sub_pos]
  have hlt : (m - (st.balance a env.evmDenom : ℤ)) * env.conversionFactor < 0 ↔
      m < st.balance a env.evmDenom := by
    rw [← neg_pos, hneg, mul_pos_iff_of_pos_right hF, sub_pos]
  simp only [hpos, hlt]
  split
  · rfl
  · split <;> rfl

/-- The store after `SetBalance` to `m` bank units. -/
def balanceSet (env : Env) (st : Store Ω) (a : Address) (m : ℕ) : Store Ω :=
  (st.setBankBalance a env.evmDenom m).setSupply env.evmDenom
    (st.supply env.evmDenom + m - st.balance a env.evmDenom)

/-- **A successful `SetBalance`**, and the supply with it. -/
theorem setBalance_ok {a : Address} {m : ℤ}
    (h : (setBalance env a (m * env.conversionFactor)).run st = .ok () st') :
    0 ≤ m ∧ st.balance a env.evmDenom ≤ st.supply env.evmDenom + m.toNat ∧
      st' = balanceSet env st a m.toNat := by
  rw [setBalance_run_eq] at h
  unfold balanceSet
  split at h
  · obtain ⟨-, rfl⟩ := Bank.mintAmountToAccount_ok h
    have hbal : st.balance a env.evmDenom + (m - st.balance a env.evmDenom).toNat = m.toNat := by
      omega
    have hsup : st.supply env.evmDenom + (m - st.balance a env.evmDenom).toNat =
        st.supply env.evmDenom + m.toNat - st.balance a env.evmDenom := by omega
    exact ⟨by omega, by omega, by rw [hbal, hsup]⟩
  · split at h
    · obtain ⟨-, hle, hsupply, rfl⟩ := Bank.burnAmountFromAccount_ok h
      have hbal : st.balance a env.evmDenom - (st.balance a env.evmDenom - m).toNat = m.toNat := by
        omega
      have hsup : st.supply env.evmDenom - (st.balance a env.evmDenom - m).toNat =
          st.supply env.evmDenom + m.toNat - st.balance a env.evmDenom := by omega
      exact ⟨by omega, by omega, by rw [hbal, hsup]⟩
    · cases h
      have hm : m.toNat = st.balance a env.evmDenom := by omega
      refine ⟨by omega, by omega, ?_⟩
      rw [hm, setBankBalance_self, Nat.add_sub_cancel]
      simp [setSupply]

theorem setBalance_run {a : Address} {m : ℤ} (hm : 0 ≤ m)
    (hblocked : env.blockedAddr a = false)
    (hlocked : ∀ b, env.lockedCoins b env.evmDenom = 0)
    (hsupply : st.balance a env.evmDenom ≤ st.supply env.evmDenom) :
    (setBalance env a (m * env.conversionFactor)).run st =
      .ok () (balanceSet env st a m.toNat) := by
  have hrun : ∃ st', (setBalance env a (m * env.conversionFactor)).run st = .ok () st' := by
    rw [setBalance_run_eq]
    split
    · exact Bank.mintAmountToAccount_run (by omega) hblocked (by rw [hlocked]; omega)
    split
    · exact Bank.burnAmountFromAccount_run (by omega) (by rw [hlocked]; omega) (hlocked _)
        (by omega)
    · exact ⟨st, rfl⟩
  obtain ⟨st', hst'⟩ := hrun
  rw [hst', (setBalance_ok hst').2.2]

end Keeper

end TacEvm
