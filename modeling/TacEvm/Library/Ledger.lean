import Mathlib.Algebra.BigOperators.Ring.Finset

/-!
# Ledgers

A ledger gives every account a balance in every currency. `net` is what a list of payments adds to
an account, and `Settles` says that two ledgers differ by just that.
-/

namespace Ledger

/-- A payment, with its amount in every currency. -/
structure Payment (A D : Type) where
  src : A
  dst : A
  amount : D → ℤ

variable {A D : Type} [DecidableEq A]

/-- What a payment adds to an account. -/
def Payment.net (p : Payment A D) (a : A) (d : D) : ℤ :=
  (if a = p.dst then p.amount d else 0) - (if a = p.src then p.amount d else 0)

/-- What a list of payments adds to an account. -/
def net (ps : List (Payment A D)) (a : A) (d : D) : ℤ := (ps.map fun p => p.net a d).sum

@[simp]
theorem net_nil (a : A) (d : D) : net ([] : List (Payment A D)) a d = 0 := rfl

@[simp]
theorem net_cons (p : Payment A D) (ps : List (Payment A D)) (a : A) (d : D) :
    net (p :: ps) a d = p.net a d + net ps a d := by
  simp [net]

@[simp]
theorem net_append (ps qs : List (Payment A D)) (a : A) (d : D) :
    net (ps ++ qs) a d = net ps a d + net qs a d := by
  simp [net]

/-- **Conservation**: payments keep the sum. -/
theorem sum_net [Fintype A] (ps : List (Payment A D)) (d : D) : ∑ a, net ps a d = 0 := by
  induction ps with
  | nil => simp
  | cons p ps ih =>
    have hpayment : ∑ a, p.net a d = 0 := by
      simp only [Payment.net]
      rw [Finset.sum_sub_distrib, Finset.sum_ite_eq', Finset.sum_ite_eq']
      simp
    simp only [net_cons]
    rw [Finset.sum_add_distrib, hpayment, ih, add_zero]

/-- The second ledger is the first after the payments. -/
def Settles (ps : List (Payment A D)) (b b' : A → D → ℤ) : Prop :=
  ∀ a d, b' a d = b a d + net ps a d

theorem Settles.refl (b : A → D → ℤ) : Settles [] b b := by
  intro a d
  simp

theorem Settles.trans {ps qs : List (Payment A D)} {b b' b'' : A → D → ℤ}
    (h : Settles ps b b') (h' : Settles qs b' b'') : Settles (ps ++ qs) b b'' := by
  intro a d
  rw [h' a d, h a d, net_append, add_assoc]

/-- **Conservation over ledgers.** -/
theorem Settles.sum_eq [Fintype A] {ps : List (Payment A D)} {b b' : A → D → ℤ}
    (h : Settles ps b b') (d : D) : ∑ a, b' a d = ∑ a, b a d := by
  rw [Finset.sum_congr rfl fun a _ => h a d, Finset.sum_add_distrib, sum_net, add_zero]

end Ledger
