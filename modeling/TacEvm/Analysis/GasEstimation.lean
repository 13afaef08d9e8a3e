import Mathlib.Data.Nat.Log
import TacEvm.Analysis.TransitionSpec
import TacEvm.Model.Devnet
import TacEvm.Model.GasEstimate

/-!
# The gas estimation

As long as every amount fails, the lower bound climbs towards the upper one (`Bounds.climb`). Above
`2 ^ 63` the sum of the bounds wraps around before they meet (`Overruns`). The upper bound is tried
in the end only when the funds of the sender did not lower it.
-/

namespace TacEvm

open Devnet FallibleState

/-! ## The middle of the bounds -/

namespace Bounds

variable {b : Bounds}

/-- The middle, as a whole number. -/
theorem toNat_mid (b : Bounds) : b.mid.toNat = (b.hi.toNat + b.lo.toNat) % 2 ^ 64 / 2 := by
  unfold mid
  rw [UInt64.toNat_div, UInt64.toNat_add]
  rfl

/-- The middle is half of a number of 64 bits. -/
theorem mid_small (b : Bounds) : b.mid.toNat < 2 ^ 63 := by
  have hmid := b.toNat_mid
  omega

/-- The condition of the loop, in whole numbers. -/
theorem open_iff (hlo : b.lo.toNat < 2 ^ 63) : b.Open ↔ b.lo.toNat + 1 < b.hi.toNat := by
  unfold Open
  rw [UInt64.lt_iff_toNat_lt, UInt64.toNat_add, UInt64.toNat_one, Nat.mod_eq_of_lt (by omega)]

/-- The middle is below the upper bound, also after a wrap. -/
theorem mid_lt_hi (hlo : b.lo.toNat < 2 ^ 63) (hopen : b.Open) : b.mid.toNat < b.hi.toNat := by
  have hlt := (open_iff hlo).1 hopen
  have hmid := b.toNat_mid
  omega

/-- The bounds after so many amounts that failed. -/
def climb (b : Bounds) : ℕ → Bounds
  | 0 => b
  | k + 1 => ⟨(b.climb k).mid, b.hi⟩

/-- The first amount can be split off. -/
theorem climb_succ (b : Bounds) (k : ℕ) : b.climb (k + 1) = climb ⟨b.mid, b.hi⟩ k := by
  induction k with
  | zero => rfl
  | succ k ih =>
    show (⟨(b.climb (k + 1)).mid, b.hi⟩ : Bounds) = _
    rw [ih]
    rfl

/-- The upper bound stays. -/
@[simp]
theorem climb_hi (b : Bounds) (k : ℕ) : (b.climb k).hi = b.hi := by
  cases k <;> rfl

/-- The lower bound stays below `2 ^ 63`. -/
theorem climb_lo (hlo : b.lo.toNat < 2 ^ 63) (k : ℕ) : (b.climb k).lo.toNat < 2 ^ 63 := by
  cases k with
  | zero => exact hlo
  | succ k => exact mid_small _

/-- Above `2 ^ 63` the bounds do not meet. -/
theorem climb_open (hlo : b.lo.toNat < 2 ^ 63) (hhi : 2 ^ 63 < b.hi.toNat) (k : ℕ) :
    (b.climb k).Open := by
  have hsmall := climb_lo hlo k
  rw [open_iff hsmall, climb_hi]
  omega

/-- Bounds that have met stay together. -/
theorem climb_closed (hlo : b.lo.toNat < 2 ^ 63) (hclosed : ¬ b.Open) (k : ℕ) :
    ¬ (b.climb k).Open := by
  induction k with
  | zero => exact hclosed
  | succ k ih =>
    have hsmall := climb_lo hlo k
    have hmid := (b.climb k).toNat_mid
    rw [open_iff hsmall, climb_hi] at ih
    rw [open_iff (climb_lo hlo (k + 1)), climb_hi]
    show ¬ (b.climb k).mid.toNat + 1 < b.hi.toNat
    rw [hmid, climb_hi]
    omega

end Bounds

section Round

variable {executable : Executable} {b c d : Bounds}

/-- The call goes through at an amount of gas. -/
def Executable.Succeeds (executable : Executable) (gas : UInt64) : Prop :=
  ∃ rsp, executable gas = .ok (false, rsp)

/-- It is made there and fails. -/
def Executable.Fails (executable : Executable) (gas : UInt64) : Prop :=
  ∃ rsp, executable gas = .ok (true, rsp)

/-- A round goes on with the half that the middle leaves. -/
theorem searchStep_next : Loop.Next (searchStep executable) b c ↔
    b.Open ∧ ∃ failed rsp, executable b.mid = .ok (failed, rsp) ∧
      c = if failed then ⟨b.mid, b.hi⟩ else ⟨b.lo, b.mid⟩ := by
  unfold Loop.Next searchStep
  by_cases hopen : b.Open
  · rw [if_pos hopen]
    cases hrun : executable b.mid with
    | error err =>
      refine ⟨fun h => ?_, ?_⟩
      · cases h
      · rintro ⟨-, failed, rsp, h, -⟩
        cases h
    | ok outcome =>
      obtain ⟨failed, rsp⟩ := outcome
      refine ⟨fun h => ?_, ?_⟩
      · cases h
        exact ⟨hopen, failed, rsp, rfl, rfl⟩
      · rintro ⟨-, failed', rsp', h, rfl⟩
        cases h
        rfl
  · rw [if_neg hopen]
    refine ⟨fun h => ?_, fun h => absurd h.1 hopen⟩
    cases h

/-- A round that ends has met bounds, or the error of the call. -/
theorem searchStep_exit {result : Except Err UInt64} (h : searchStep executable b = .inr result) :
    ¬ b.Open ∧ result = .ok b.hi ∨
      b.Open ∧ ∃ e, executable b.mid = .error e ∧ result = .error e := by
  unfold searchStep at h
  split at h
  · rename_i hopen
    split at h
    · rename_i e hrun
      cases h
      exact .inr ⟨hopen, e, hrun, rfl⟩
    · cases h
  · rename_i hopen
    cases h
    exact .inl ⟨hopen, rfl⟩

/-- An amount that fails becomes the lower bound. -/
theorem Executable.Fails.next (h : executable.Fails b.mid) (hopen : b.Open) :
    Loop.Next (searchStep executable) b ⟨b.mid, b.hi⟩ := by
  obtain ⟨rsp, hrun⟩ := h
  exact searchStep_next.mpr ⟨hopen, true, rsp, hrun, rfl⟩

/-- An amount that succeeds becomes the upper bound. -/
theorem Executable.Succeeds.next (h : executable.Succeeds b.mid) (hopen : b.Open) :
    Loop.Next (searchStep executable) b ⟨b.lo, b.mid⟩ := by
  obtain ⟨rsp, hrun⟩ := h
  exact searchStep_next.mpr ⟨hopen, false, rsp, hrun, rfl⟩

/-- A call that does not fail succeeds or stops with an error. -/
theorem Executable.succeeds_or_error {gas : UInt64} (h : ¬ executable.Fails gas) :
    executable.Succeeds gas ∨ ∃ e, executable gas = .error e := by
  cases hrun : executable gas with
  | error e => exact .inr ⟨e, rfl⟩
  | ok answer =>
    obtain ⟨failed, rsp⟩ := answer
    cases failed with
    | true => exact absurd ⟨rsp, hrun⟩ h
    | false => exact .inl ⟨rsp, hrun⟩

end Round

/-! ## The end of the search -/

section End

variable {executable : Executable} {b c d : Bounds}

/-- The bounds close in on amounts between them, and the search returns. -/
structure Bisects (executable : Executable) (b : Bounds) : Prop where
  between : ∀ c, Loop.Reaches (searchStep executable) b c → c.Open → c.lo < c.mid ∧ c.mid < c.hi
  shrinks : ∀ c d, Loop.Reaches (searchStep executable) b c →
    Loop.Next (searchStep executable) c d →
      c.lo ≤ d.lo ∧ d.hi ≤ c.hi ∧ d.hi.toNat - d.lo.toNat < c.hi.toNat - c.lo.toNat
  returns : ∃ fuel result, binSearch executable fuel b.lo b.hi = some result

/-- The call fails at every amount before the sum wraps around. -/
def Overruns (executable : Executable) (b : Bounds) : Prop :=
  ∃ n, 2 ^ 64 ≤ b.hi.toNat + (b.climb n).lo.toNat ∧ ∀ k < n, executable.Fails (b.climb k).mid

/-- Bounds whose sum does not wrap around in either half. -/
structure Steady (executable : Executable) (b : Bounds) : Prop where
  lo : b.lo.toNat < 2 ^ 63
  kept : ¬ Overruns executable b

/-- Up to `2 ^ 63` there is no overrun, whatever the call does. -/
theorem not_overruns (executable : Executable) (hlo : b.lo.toNat < 2 ^ 63)
    (hhi : b.hi.toNat ≤ 2 ^ 63) : ¬ Overruns executable b := by
  rintro ⟨n, hwraps, -⟩
  have hsmall := Bounds.climb_lo hlo n
  omega

namespace Steady

/-- The next sum does not wrap around. -/
theorem sum_lt (h : Steady executable b) : b.hi.toNat + b.lo.toNat < 2 ^ 64 := by
  by_contra hwraps
  exact h.kept ⟨0, Nat.le_of_not_lt hwraps, fun k hk => absurd hk (Nat.not_lt_zero k)⟩

/-- The middle lies strictly between the bounds. -/
theorem mid_between (h : Steady executable b) (hopen : b.Open) :
    b.lo.toNat < b.mid.toNat ∧ b.mid.toNat < b.hi.toNat := by
  have hsum := h.sum_lt
  have hlt := (Bounds.open_iff h.lo).1 hopen
  have hmid := b.toNat_mid
  omega

/-- A round keeps the bounds steady, and the interval shrinks. -/
theorem next (h : Steady executable c) (hnext : Loop.Next (searchStep executable) c d) :
    Steady executable d ∧ c.lo.toNat ≤ d.lo.toNat ∧ d.hi.toNat ≤ c.hi.toNat ∧
      d.hi.toNat - d.lo.toNat < c.hi.toNat - c.lo.toNat := by
  obtain ⟨hopen, failed, rsp, hrun, rfl⟩ := searchStep_next.1 hnext
  obtain ⟨hbelow, habove⟩ := h.mid_between hopen
  cases failed with
  | true =>
    refine ⟨⟨c.mid_small, ?_⟩, ?_⟩
    · -- an overrun of what is left is one of the whole
      rintro ⟨n, hwraps, hfails⟩
      refine h.kept ⟨n + 1, ?_, fun k hk => ?_⟩
      · rw [Bounds.climb_succ]
        exact hwraps
      · cases k with
        | zero => exact ⟨rsp, hrun⟩
        | succ k =>
          rw [Bounds.climb_succ]
          exact hfails k (by omega)
    · show _ ≤ c.mid.toNat ∧ c.hi.toNat ≤ _ ∧ c.hi.toNat - c.mid.toNat < _
      omega
  | false =>
    refine ⟨⟨h.lo, not_overruns executable h.lo c.mid_small.le⟩, ?_⟩
    show _ ≤ c.lo.toNat ∧ c.mid.toNat ≤ _ ∧ c.mid.toNat - c.lo.toNat < _
    omega

/-- All bounds on the way are steady. -/
theorem reaches (h : Steady executable b) (hreach : Loop.Reaches (searchStep executable) b c) :
    Steady executable c :=
  Loop.invariant (fun _ _ hsteady hnext => (hsteady.next hnext).1) hreach h

/-- A search that does not overrun halves its interval to the end. -/
theorem bisects (h : Steady executable b) : Bisects executable b where
  between := by
    intro c hreach hopen
    rw [UInt64.lt_iff_toNat_lt, UInt64.lt_iff_toNat_lt]
    exact (h.reaches hreach).mid_between hopen
  shrinks := by
    intro c d hreach hnext
    obtain ⟨-, hlo, hhi, hless⟩ := (h.reaches hreach).next hnext
    exact ⟨UInt64.le_iff_toNat_le.2 hlo, UInt64.le_iff_toNat_le.2 hhi, hless⟩
  returns := by
    -- the width of the interval is the variant
    have hvariant (c d : Bounds) (hsteady : Steady executable c)
        (hnext : Loop.Next (searchStep executable) c d) :
        Steady executable d ∧ d.hi.toNat - d.lo.toNat < c.hi.toNat - c.lo.toNat :=
      ⟨(hsteady.next hnext).1, (hsteady.next hnext).2.2.2⟩
    obtain ⟨result, hrun⟩ := Loop.run_of_variant hvariant h (Nat.lt_succ_self _)
    exact ⟨_, result, hrun⟩

end Steady

/-- While everything fails, the search climbs. -/
theorem reaches_climb {n : ℕ} (hopen : ∀ k < n, (b.climb k).Open)
    (hfails : ∀ k < n, executable.Fails (b.climb k).mid) :
    Loop.Reaches (searchStep executable) b (b.climb n) := by
  induction n with
  | zero => exact .refl
  | succ n ih =>
    have hreach := ih (fun k hk => hopen k (by omega)) fun k hk => hfails k (by omega)
    have hnext := (hfails n (by omega)).next (hopen n (by omega))
    rw [Bounds.climb_hi] at hnext
    exact Relation.ReflTransGen.tail hreach hnext

/-- **When the search halves its interval.** -/
theorem bisects_iff (hlo : b.lo.toNat < 2 ^ 63) :
    Bisects executable b ↔ ¬ Overruns executable b := by
  refine ⟨?_, fun hkept => Steady.bisects ⟨hlo, hkept⟩⟩
  rintro h ⟨n, hwraps, hfails⟩
  -- the bounds with a sum that wraps around are reached, and their middle is too low
  have hsmall := Bounds.climb_lo hlo n
  have hopen (k : ℕ) : (b.climb k).Open := Bounds.climb_open hlo (by omega) k
  have hbetween := (h.between _ (reaches_climb (fun k _ => hopen k) hfails) (hopen n)).1
  have hmid := (b.climb n).toNat_mid
  have hhi := b.hi.toNat_lt
  rw [UInt64.lt_iff_toNat_lt, hmid, Bounds.climb_hi] at hbetween
  omega

/-- A round is followed by what is left of the search. -/
theorem binSearch_of_next {fuel : ℕ} (hnext : Loop.Next (searchStep executable) b c) :
    binSearch executable (fuel + 1) b.lo b.hi = binSearch executable fuel c.lo c.hi :=
  Loop.run_succ_of_next hnext fuel

/-- A search returns if the call does not fail at first. -/
theorem binSearch_returns_of_not_fails (hlo : b.lo.toNat < 2 ^ 63) (hopen : b.Open)
    (h : ¬ executable.Fails b.mid) :
    ∃ fuel result, binSearch executable fuel b.lo b.hi = some result := by
  rcases Executable.succeeds_or_error h with hsucceeds | ⟨e, herror⟩
  · -- below an amount that succeeded nothing wraps around
    have hkept := not_overruns (b := ⟨b.lo, b.mid⟩) executable hlo b.mid_small.le
    obtain ⟨fuel, result, hrun⟩ := (Steady.bisects (b := ⟨b.lo, b.mid⟩) ⟨hlo, hkept⟩).returns
    exact ⟨fuel + 1, result, (binSearch_of_next (hsucceeds.next hopen)).trans hrun⟩
  · have hexit : searchStep executable b = .inr (.error e) := by
      unfold searchStep
      rw [if_pos hopen, herror]
    exact ⟨1, .error e, Loop.run_succ_of_exit hexit 0⟩

/-- **When the search returns**: up to `2 ^ 63`, or if the call does not fail at every amount. -/
theorem binSearch_returns_iff (hlo : b.lo.toNat < 2 ^ 63) :
    (∃ fuel result, binSearch executable fuel b.lo b.hi = some result) ↔
      (2 ^ 63 < b.hi.toNat → ∃ k, ¬ executable.Fails (b.climb k).mid) := by
  constructor
  · rintro ⟨fuel, result, hrun⟩ hhi
    by_contra hfails
    simp only [not_exists, not_not] at hfails
    -- the bounds climb for ever
    have hnone : binSearch executable fuel b.lo b.hi = none := by
      refine Loop.run_none (I := fun c => ∃ k, c = b.climb k) ?_ ⟨0, rfl⟩ fuel
      rintro _ ⟨k, rfl⟩
      have hnext := (hfails k).next (Bounds.climb_open hlo hhi k)
      rw [Bounds.climb_hi] at hnext
      exact ⟨_, hnext, k + 1, rfl⟩
    rw [hnone] at hrun
    cases hrun
  · intro hstops
    by_cases hhi : b.hi.toNat ≤ 2 ^ 63
    · exact (Steady.bisects ⟨hlo, not_overruns executable hlo hhi⟩).returns
    obtain ⟨k, hk⟩ := hstops (Nat.lt_of_not_le hhi)
    clear hstops
    induction k generalizing b with
    | zero =>
      exact binSearch_returns_of_not_fails hlo (Bounds.climb_open hlo (Nat.lt_of_not_le hhi) 0) hk
    | succ k ih =>
      have hopen : b.Open := Bounds.climb_open hlo (Nat.lt_of_not_le hhi) 0
      by_cases hfails : executable.Fails b.mid
      · rw [Bounds.climb_succ] at hk
        obtain ⟨fuel, result, hrun⟩ := ih (b := ⟨b.mid, b.hi⟩) b.mid_small hhi hk
        exact ⟨fuel + 1, result, (binSearch_of_next (hfails.next hopen)).trans hrun⟩
      · exact binSearch_returns_of_not_fails hlo hopen hfails

end End

/-! ## What the search finds -/

section Found

variable {executable : Executable} {b c : Bounds}

variable (executable) in
/-- The amounts that are tried in so many rounds. -/
def probes : ℕ → Bounds → List UInt64
  | 0, _ => []
  | fuel + 1, b =>
    if b.Open then
      match searchStep executable b with
      | .inl c => b.mid :: probes fuel c
      | .inr _ => [b.mid]
    else []

/-- What a search between two bounds comes to. -/
structure Searched (executable : Executable) (b : Bounds) (tried : List UInt64)
    (result : Except Err UInt64) : Prop where
  short : tried.length ≤ Nat.clog 2 (b.hi.toNat - b.lo.toNat)
  between : ∀ gas ∈ tried, b.lo < gas ∧ gas < b.hi
  answers : (∀ gas ∈ tried, ∃ answer, executable gas = .ok answer) → ∃ h, result = .ok h
  error : ∀ gas ∈ tried, ∀ e, executable gas = .error e → result = .error e
  bounded : ∀ h, result = .ok h → b.lo < h ∧ h ≤ b.hi
  succeeded : ∀ h, result = .ok h → h = b.hi ∨ h ∈ tried ∧ executable.Succeeds h
  failed : ∀ h, result = .ok h → h = b.lo + 1 ∨ h - 1 ∈ tried ∧ executable.Fails (h - 1)

/-- Bounds that have met are the result. -/
theorem Searched.closed (hlt : b.lo < b.hi) (hclosed : ¬ b.Open) :
    Searched executable b [] (.ok b.hi) := by
  have hnext : b.hi = b.lo + 1 := by
    unfold Bounds.Open at hclosed
    grind
  constructor <;> grind

/-- One round leaves half of the interval. -/
theorem Steady.halves (hsteady : Steady executable b)
    (hnext : Loop.Next (searchStep executable) b c) :
    c.lo < c.hi ∧
      Nat.clog 2 (c.hi.toNat - c.lo.toNat) + 1 ≤ Nat.clog 2 (b.hi.toNat - b.lo.toNat) := by
  obtain ⟨hopen, failed, rsp, -, rfl⟩ := searchStep_next.mp hnext
  have hwide := (Bounds.open_iff hsteady.lo).mp hopen
  have hmid := b.toNat_mid
  have hsum := hsteady.sum_lt
  rw [Nat.clog_of_two_le Nat.one_lt_two (show 2 ≤ b.hi.toNat - b.lo.toNat by omega),
    UInt64.lt_iff_toNat_lt]
  cases failed with
  | true =>
    show b.mid.toNat < b.hi.toNat ∧ Nat.clog 2 (b.hi.toNat - b.mid.toNat) + 1 ≤ _
    exact ⟨by omega, Nat.add_le_add_right (Nat.clog_mono_right 2 (by omega)) 1⟩
  | false =>
    show b.lo.toNat < b.mid.toNat ∧ Nat.clog 2 (b.mid.toNat - b.lo.toNat) + 1 ≤ _
    exact ⟨by omega, Nat.add_le_add_right (Nat.clog_mono_right 2 (by omega)) 1⟩

/-- The first amount between the bounds, as numbers of 64 bits. -/
theorem Steady.mid_lt (hsteady : Steady executable b) (hopen : b.Open) :
    b.lo < b.mid ∧ b.mid < b.hi := by
  rw [UInt64.lt_iff_toNat_lt, UInt64.lt_iff_toNat_lt]
  exact hsteady.mid_between hopen

/-- An error of the call is the result. -/
theorem Searched.stopped (hsteady : Steady executable b) (hopen : b.Open) {e : Err}
    (hrun : executable b.mid = .error e) : Searched executable b [b.mid] (.error e) := by
  have hwide := (Bounds.open_iff hsteady.lo).mp hopen
  constructor
  · exact Nat.clog_pos Nat.one_lt_two (by omega)
  · exact List.forall_mem_singleton.mpr (hsteady.mid_lt hopen)
  · simp [hrun]
  · simp [hrun]
  all_goals rintro h ⟨⟩

/-- A round and what the search of the half comes to. -/
theorem Searched.round {tried : List UInt64} {result : Except Err UInt64}
    (hsteady : Steady executable b) (hnext : Loop.Next (searchStep executable) b c)
    (h : Searched executable c tried result) : Searched executable b (b.mid :: tried) result := by
  obtain ⟨-, hshort⟩ := hsteady.halves hnext
  obtain ⟨hopen, failed, rsp, hrun, hc⟩ := searchStep_next.mp hnext
  obtain ⟨hbelow, habove⟩ := hsteady.mid_lt hopen
  obtain ⟨htried, hbetween, hanswers, herror, hbounded, hsucceeded, hfailed⟩ := h
  constructor
  · exact (Nat.succ_le_succ htried).trans hshort
  · grind
  · grind
  · grind
  · grind
  · -- the new upper bound is the old one, or the amount that succeeded
    unfold Executable.Succeeds at *
    grind
  · -- the new lower bound is the old one, or the amount that failed
    have hbefore : b.mid + 1 - 1 = b.mid := UInt64.add_sub_cancel _ _
    unfold Executable.Fails at *
    grind

/-- Between bounds that are steady, the search comes to its end. -/
theorem Steady.searched (hsteady : Steady executable b) (hlt : b.lo < b.hi) {fuel : ℕ}
    (hfuel : Nat.clog 2 (b.hi.toNat - b.lo.toNat) < fuel) :
    ∃ result, binSearch executable fuel b.lo b.hi = some result ∧
      Searched executable b (probes executable fuel b) result := by
  induction fuel generalizing b with
  | zero => omega
  | succ fuel ih =>
    unfold binSearch probes
    by_cases hopen : b.Open
    · rw [if_pos hopen]
      cases hstep : searchStep executable b with
      | inl c =>
        obtain ⟨hlt, hshort⟩ := hsteady.halves hstep
        rw [Loop.run_succ_of_next hstep]
        obtain ⟨result, hrun, hsearched⟩ := ih (hsteady.next hstep).1 hlt (by omega)
        exact ⟨result, hrun, hsearched.round hsteady hstep⟩
      | inr result =>
        rw [Loop.run_succ_of_exit hstep]
        refine ⟨result, rfl, ?_⟩
        rcases searchStep_exit hstep with ⟨hclosed, -⟩ | ⟨-, e, hrun, rfl⟩
        · exact absurd hopen hclosed
        · exact Searched.stopped hsteady hopen hrun
    · have hexit : searchStep executable b = .inr (.ok b.hi) := if_neg hopen
      rw [if_neg hopen, Loop.run_succ_of_exit hexit]
      exact ⟨_, rfl, Searched.closed hlt hopen⟩

/-- With monotone success nothing below the result succeeds. -/
theorem Searched.least {tried : List UInt64} {h : UInt64}
    (hsearched : Searched executable b tried (.ok h))
    (hmono : ∀ g g', b.lo < g → g ≤ g' → g' < b.hi → executable.Succeeds g →
      executable.Succeeds g') : ∀ g, b.lo < g → g < h → ¬ executable.Succeeds g := by
  intro g hgt hlt hsucceeds
  obtain ⟨-, hle⟩ := hsearched.bounded h rfl
  have hlast : g ≤ h - 1 ∧ h - 1 < b.hi := by grind
  obtain ⟨rsp, hrun⟩ := hmono g (h - 1) hgt hlast.1 hlast.2 hsucceeds
  rcases hsearched.failed h rfl with hnext | ⟨-, rsp', hfails⟩
  · grind
  · rw [hfails] at hrun
    cases hrun

/-- **The binary search** does what is asked of it exactly if the predicate does not fail at all the
amounts before a sum wraps around; up to `2 ^ 63` it never does. -/
theorem binSearch_searched_iff {lo hi : UInt64} (hlt : lo < hi)
    (hsum : lo.toNat + hi.toNat < 2 ^ 64) (executable : Executable) :
    (Bisects executable ⟨lo, hi⟩ ∧ (∃ fuel result,
      binSearch executable fuel lo hi = some result ∧
      Searched executable ⟨lo, hi⟩ (probes executable fuel ⟨lo, hi⟩) result ∧
      ((∀ g g', lo < g → g ≤ g' → g' < hi → executable.Succeeds g → executable.Succeeds g') →
        ∀ h, result = .ok h → ∀ g, lo < g → g < h → ¬ executable.Succeeds g)) ↔
      ¬ Overruns executable ⟨lo, hi⟩) ∧
    (hi.toNat ≤ 2 ^ 63 → ¬ Overruns executable ⟨lo, hi⟩) := by
  have hlo : lo.toNat < 2 ^ 63 := by
    rw [UInt64.lt_iff_toNat_lt] at hlt
    omega
  refine ⟨⟨fun h => (bisects_iff hlo).mp h.1, fun hkept => ?_⟩,
    fun hhi => not_overruns (b := ⟨lo, hi⟩) executable hlo hhi⟩
  have hsteady : Steady executable ⟨lo, hi⟩ := ⟨hlo, hkept⟩
  obtain ⟨result, hrun, hsearched⟩ := hsteady.searched hlt (Nat.lt_succ_self _)
  refine ⟨hsteady.bisects, _, result, hrun, hsearched, ?_⟩
  rintro hmono h rfl
  exact hsearched.least hmono

/-- A call that needs 50000 units of gas. -/
theorem binSearch_searched_block :
    ∃ fuel result, binSearch (fun gas => .ok (gas < 50000, none)) fuel 20999 30000000 =
        some result ∧
      Searched (fun gas => .ok (gas < 50000, none)) ⟨20999, 30000000⟩
        (probes (fun gas => .ok (gas < 50000, none)) fuel ⟨20999, 30000000⟩) result := by
  obtain ⟨hiff, hlow⟩ := @binSearch_searched_iff 20999 30000000 (by decide) (by decide)
    fun gas => .ok (gas < 50000, none)
  obtain ⟨-, fuel, result, hrun, hsearched, -⟩ := hiff.mpr (hlow (by decide))
  exact ⟨fuel, result, hrun, hsearched⟩

/-- A call that fails at every amount of gas. -/
def AlwaysFails (executable : Executable) : Prop := ∀ gas, executable.Fails gas

/-- Above `2 ^ 63` it is tried for ever. -/
theorem AlwaysFails.binSearch_none (hfails : AlwaysFails executable) (hlo : b.lo.toNat < 2 ^ 63)
    (hhi : 2 ^ 63 < b.hi.toNat) (fuel : ℕ) : binSearch executable fuel b.lo b.hi = none := by
  by_contra hsome
  obtain ⟨result, hrun⟩ := Option.ne_none_iff_exists'.mp hsome
  obtain ⟨k, hk⟩ := (binSearch_returns_iff hlo).mp ⟨fuel, result, hrun⟩ hhi
  exact hk (hfails _)

/-- Up to `2 ^ 63` the upper bound is returned for it. -/
theorem AlwaysFails.binSearch_hi (hfails : AlwaysFails executable) (hlo : b.lo.toNat < 2 ^ 63)
    (hhi : b.hi.toNat ≤ 2 ^ 63) (hlt : b.lo < b.hi) :
    ∃ fuel, binSearch executable fuel b.lo b.hi = some (.ok b.hi) := by
  have hsteady : Steady executable b := ⟨hlo, not_overruns executable hlo hhi⟩
  obtain ⟨result, hrun, hsearched⟩ := hsteady.searched hlt (Nat.lt_succ_self _)
  obtain ⟨h, rfl⟩ := hsearched.answers fun gas _ => ⟨_, (hfails gas).choose_spec⟩
  rcases hsearched.succeeded h rfl with rfl | ⟨-, rsp, hsucceeds⟩
  · exact ⟨_, hrun⟩
  · obtain ⟨rsp', hfailed⟩ := hfails h
    cases hfailed.symm.trans hsucceeds

/-- **The search goes on for ever** if every amount fails. -/
theorem binSearch_endless :
    (0 : UInt64).toNat + (0xFFFFFFFFFFFFFFFF : UInt64).toNat < 2 ^ 64 ∧
      ∀ fuel, binSearch (fun _ => .ok (true, none)) fuel 0 0xFFFFFFFFFFFFFFFF = none := by
  refine ⟨by decide, fun fuel => ?_⟩
  have hfails : AlwaysFails fun _ => .ok (true, none) := fun _ => ⟨none, rfl⟩
  exact hfails.binSearch_none (b := ⟨0, 0xFFFFFFFFFFFFFFFF⟩) (by decide) (by decide) fuel

end Found

section Estimation

variable {chain : Chain} {Ω : Type} {evm : Evm Ω} {ctx : Context Ω} {req : EthCallRequest}
  {e : Estimation}

theorem highestGas_le (chain : Chain) (args : TransactionArgs) (hcap : req.gasCap ≠ 0) :
    highestGas chain req args ≤ req.gasCap := by
  unfold highestGas
  split
  · exact UInt64.le_refl _
  · rename_i hle
    exact UInt64.not_lt.1 fun hlt => hle ⟨hcap, hlt⟩

theorem capByFunds_le {st : Store Ω} {args : TransactionArgs} {gasFeeCap : ℤ} {hi hi' : UInt64}
    (h : capByFunds chain st args gasFeeCap hi = .ok hi') : hi'.toNat ≤ hi.toNat := by
  unfold capByFunds at h
  split at h
  · cases h
    exact le_refl _
  split at h
  · cases h
  obtain ⟨available, -, h⟩ := except_bind_ok.1 h
  dsimp only at h
  split at h
  · split at h
    · cases h
    · cases h
      rw [UInt64.toNat_ofNat']
      omega
  · cases h
    exact le_refl _

/-- The bounds that a search starts with. -/
structure Estimation.Bounded (e : Estimation) (req : EthCallRequest) : Prop where
  lo : e.bounds.lo = txGas - 1
  hi_le : e.bounds.hi.toNat ≤ e.gasCap.toNat
  gasCap_le : e.gasCap ≤ req.gasCap

theorem prepareEstimation_ok (h : prepareEstimation chain ctx.store req = .ok e) :
    e.Bounded req := by
  unfold prepareEstimation at h
  split at h
  · cases h
  rename_i hcap
  have hcap' : req.gasCap ≠ 0 := by
    intro hzero
    rw [hzero] at hcap
    exact hcap (by decide)
  obtain ⟨args, -, h⟩ := except_bind_ok.1 h
  obtain ⟨-, -, h⟩ := except_bind_ok.1 h
  obtain ⟨msg, -, h⟩ := except_bind_ok.1 h
  obtain ⟨hi, hfunds, h⟩ := except_bind_ok.1 h
  cases h
  exact ⟨rfl, capByFunds_le hfunds, highestGas_le chain args hcap'⟩

/-- The search starts below the gas of a transaction. -/
theorem Estimation.Bounded.lo_small (h : e.Bounded req) : e.bounds.lo.toNat < 2 ^ 63 := by
  rw [h.lo]
  decide

/-- An estimation is a search and what follows it. -/
theorem estimateGasInternal_of_search {fromType : CallType} {fuel : ℕ}
    {result : Except Err UInt64} (h : prepareEstimation chain ctx.store req = .ok e)
    (hrun : binSearch (executable chain evm fromType ctx e) fuel e.bounds.lo e.bounds.hi =
      some result) :
    estimateGasInternal chain evm fuel fromType ctx req =
      some (result.bind (finishEstimation (executable chain evm fromType ctx e) e.gasCap)) := by
  unfold estimateGasInternal
  rw [h]
  dsimp only
  rw [hrun]
  rfl

/-- **The search of an estimation ends** just when the call does not fail at all the amounts before
a sum wraps around; a gas cap of `2 ^ 63` is enough. -/
theorem estimateGas_terminates_iff (chain : Chain) {Ω : Type} (ctx : Context Ω)
    (req : EthCallRequest) (e : Estimation)
    (h : prepareEstimation chain ctx.store req = .ok e) :
    (∀ executable, Bisects executable e.bounds ↔ ¬ Overruns executable e.bounds) ∧
      (e.bounds.hi.toNat ≤ 2 ^ 63 → ∀ executable, ¬ Overruns executable e.bounds) ∧
      (req.gasCap.toNat ≤ 2 ^ 63 → e.bounds.hi.toNat ≤ 2 ^ 63) ∧
      ∀ (evm : Evm Ω) (fromType : CallType),
        ¬ Overruns (executable chain evm fromType ctx e) e.bounds →
          ∃ fuel result, estimateGasInternal chain evm fuel fromType ctx req = some result := by
  have hbounded := prepareEstimation_ok h
  have hlo := hbounded.lo_small
  refine ⟨fun _ => bisects_iff hlo, fun hhi executable => not_overruns executable hlo hhi, ?_, ?_⟩
  · intro hcap
    have hle := UInt64.le_iff_toNat_le.1 hbounded.gasCap_le
    have hfunds := hbounded.hi_le
    omega
  · intro evm fromType hkept
    obtain ⟨fuel, result, hrun⟩ := ((bisects_iff hlo).mpr hkept).returns
    exact ⟨fuel, _, estimateGasInternal_of_search h hrun⟩

/-! ## Calls that fail at every amount -/

/-- What a message comes to, when its parts are known. -/
theorem applyMessageWithConfig_run {msg : Message} {txConfig : TxConfig}
    {intrinsicGas used : UInt64} {db : StateDB Ω} {outcome : Outcome Ω}
    (hintrinsic : chain.intrinsicGas msg.data msg.accessList (decide (msg.recipient = none)) =
      .ok intrinsicGas)
    (hle : intrinsicGas ≤ msg.gas)
    (hrun : execute chain evm msg (msg.gas - intrinsicGas) (StateDB.new ctx txConfig) =
      some (db, outcome))
    (hleft : outcome.leftoverGas ≤ msg.gas)
    (hused : chargedGas chain msg.gas (outcome.leftoverGas + gasToRefund db.getRefund
        (msg.gas - outcome.leftoverGas) (refundQuotient chain))
      (msg.gas - outcome.leftoverGas - gasToRefund db.getRefund
        (msg.gas - outcome.leftoverGas) (refundQuotient chain)) = .ok used) :
    (applyMessageWithConfig chain evm msg false txConfig).run ctx =
      .ok { gasUsed := used, vmError := outcome.vmErr.getD "", ret := outcome.ret,
            logs := db.logs, hash := txConfig.txHash } ctx := by
  simp only [applyMessageWithConfig, run_get_bind]
  refine bind_ok.2 ⟨intrinsicGas, ctx, ?_, ?_⟩
  · exact mapError_ok.2 (fromExcept_ok.2 ⟨hintrinsic, rfl⟩)
  refine bind_ok.2 ⟨(), ctx, require_ok.2 ⟨hle, rfl⟩, ?_⟩
  rw [hrun]
  refine bind_ok.2 ⟨(db, outcome), ctx, rfl, ?_⟩
  refine bind_ok.2 ⟨(), ctx, require_ok.2 ⟨hleft, rfl⟩, ?_⟩
  exact bind_ok.2 ⟨used, ctx, fromExcept_ok.2 ⟨hused, rfl⟩, rfl⟩

theorem applyMessageWithConfig_intrinsicGas {msg : Message} {commit : Bool} {txConfig : TxConfig}
    {intrinsicGas : UInt64}
    (hintrinsic : chain.intrinsicGas msg.data msg.accessList (decide (msg.recipient = none)) =
      .ok intrinsicGas)
    (hlt : ¬ intrinsicGas ≤ msg.gas) :
    (applyMessageWithConfig chain evm msg commit txConfig).run ctx =
      .error (errIntrinsicGas.wrapf "apply message" []) ctx := by
  simp only [applyMessageWithConfig, run_get_bind]
  rw [bind_run_of_ok (mapError_ok.2 (fromExcept_ok.2 ⟨hintrinsic, rfl⟩))]
  refine bind_run_of_error ?_
  unfold require
  rw [if_neg hlt]
  rfl

theorem gasToRefund_zero (consumed quotient : UInt64) : gasToRefund 0 consumed quotient = 0 := by
  unfold gasToRefund
  dsimp only
  split
  · rfl
  · rename_i hpos
    exact UInt64.le_zero_iff.1 (UInt64.not_lt.1 hpos)

/-- A call of `0xC1` by `0xA1`. -/
def callArgs (gas : UInt64) (maxFeePerGas : ℕ) : TransactionArgs where
  sender := some 0xA1
  recipient := some 0xC1
  gas := some gas
  gasPrice := none
  maxFeePerGas := some maxFeePerGas
  maxPriorityFeePerGas := none
  value := none
  nonce := none
  data := none
  input := none
  accessList := none

/-- The request to estimate it, with its gas as the cap. -/
def callRequest (gas : UInt64) (maxFeePerGas : ℕ) : EthCallRequest where
  args := .ok (callArgs gas maxFeePerGas)
  gasCap := gas

/-- The message of such a request. -/
def callMessage (gas : UInt64) (maxFeePerGas : ℕ) : Message where
  sender := 0xA1
  recipient := some 0xC1
  nonce := 0
  value := 0
  gas := gas
  gasPrice := min 1 maxFeePerGas
  gasFeeCap := maxFeePerGas
  gasTipCap := 0
  data := []
  accessList := []

/-- With a minimum of nothing, the whole gas may be charged. -/
theorem chargedGas_zero (gas : UInt64) :
    ∃ used, chargedGas chain18 gas 0 gas = .ok used := by
  have hmul (a : LegacyDec) : (a.mul (.newDec 0)).truncateInt = 0 := by
    have hproduct : a.digits * (LegacyDec.newDec 0).digits = 0 := Int.mul_zero _
    unfold LegacyDec.mul LegacyDec.truncateInt
    rw [hproduct]
    rfl
  unfold chargedGas
  dsimp only
  rw [show chain18.feeMarketParams.minGasMultiplier = .newDec 0 from rfl,
    hmul, if_neg (by decide), if_neg (UInt64.not_lt.2 UInt64.zero_le)]
  exact ⟨_, rfl⟩

/-- The invalid instruction fails at every amount of gas. -/
theorem executable_invalid {fromType : CallType} {ctx tmpCtx : Context Unit} {e : Estimation}
    {gas : UInt64} {maxFeePerGas : ℕ} (hmsg : e.msg = callMessage gas maxFeePerGas)
    (hctx : simulationContext chain18 fromType e.msg.sender e.nonce ctx = .ok tmpCtx) :
    AlwaysFails (executable chain18 invalidEvm fromType ctx e) := by
  intro amount
  unfold Executable.Fails executable
  rw [hctx, hmsg]
  dsimp only
  by_cases hgas : (21000 : UInt64) ≤ amount
  · obtain ⟨used, hused⟩ := chargedGas_zero amount
    have hrun := @applyMessageWithConfig_run chain18 _ invalidEvm
      tmpCtx { callMessage gas maxFeePerGas with gas := amount }
      (emptyTxConfig chain18) 21000 used _ _ rfl hgas rfl
      UInt64.zero_le (by
        show chargedGas _ amount (0 + gasToRefund 0 (amount - 0) _)
          (amount - 0 - gasToRefund 0 (amount - 0) _) = _
        rw [gasToRefund_zero, UInt64.sub_zero, UInt64.sub_zero, UInt64.add_zero]
        exact hused)
    rw [hrun]
    exact ⟨_, rfl⟩
  · have hintrinsic : (errIntrinsicGas.wrapf "apply message" []).is errIntrinsicGas = true := by
      decide
    rw [applyMessageWithConfig_intrinsicGas rfl hgas]
    dsimp only
    rw [if_pos hintrinsic]
    exact ⟨none, rfl⟩

/-- The estimation of a call with a fee cap, by its bound. -/
def callEstimation (gas hi : UInt64) (maxFeePerGas : ℕ) : Estimation where
  bounds := ⟨txGas - 1, hi⟩
  gasCap := gas
  msg := callMessage gas maxFeePerGas
  nonce := 0

theorem estimateGas_terminates_devnet :
    ∃ fuel result, estimateGasInternal chain18 invalidEvm fuel .rpc
      (chainState 0).ctx (callRequest 25000000 0) = some result := by
  obtain ⟨-, hlow, hcap, hreturns⟩ := estimateGas_terminates_iff chain18
    (chainState 0).ctx (callRequest 25000000 0) (callEstimation 25000000 25000000 0) rfl
  exact hreturns invalidEvm .rpc (hlow (hcap (by decide)) _)

/-- **A gas cap of 64 bits** keeps the search going for ever. -/
theorem estimateGas_neverReturns :
    prepareEstimation chain18 (chainState 0).ctx.store (callRequest 18446744073709551615 0) =
      .ok (callEstimation 18446744073709551615 18446744073709551615 0) ∧
    ¬ ∃ fuel result, estimateGasInternal chain18 invalidEvm fuel
      .rpc (chainState 0).ctx (callRequest 18446744073709551615 0) = some result := by
  have hprepare : prepareEstimation chain18
      (chainState 0).ctx.store (callRequest 18446744073709551615 0) =
      .ok (callEstimation 18446744073709551615 18446744073709551615 0) := rfl
  have hfails : AlwaysFails (executable chain18 invalidEvm .rpc
      (chainState 0).ctx (callEstimation 18446744073709551615 18446744073709551615 0)) :=
    executable_invalid rfl rfl
  refine ⟨hprepare, ?_⟩
  rintro ⟨fuel, result, hrun⟩
  unfold estimateGasInternal at hrun
  rw [hprepare] at hrun
  dsimp only at hrun
  rw [hfails.binSearch_none (by decide) (by decide)] at hrun
  cases hrun

end Estimation

/-! ## What the result of the search tells -/

section Result

variable {executable : Executable} {b c d : Bounds}

/-- Each of the bounds was tried, or is the first one. -/
structure Tried (executable : Executable) (b c : Bounds) : Prop where
  lo : c.lo = b.lo ∨ ∃ rsp, executable c.lo = .ok (true, rsp)
  hi : c.hi = b.hi ∨ ∃ rsp, executable c.hi = .ok (false, rsp)
  hi_le : c.hi.toNat ≤ b.hi.toNat
  lo_small : c.lo.toNat < 2 ^ 63

/-- A round keeps that. -/
theorem Tried.next (h : Tried executable b c)
    (hnext : Loop.Next (searchStep executable) c d) : Tried executable b d := by
  obtain ⟨hopen, failed, rsp, hrun, rfl⟩ := searchStep_next.1 hnext
  have habove := Bounds.mid_lt_hi h.lo_small hopen
  have hle := h.hi_le
  cases failed with
  | true =>
    constructor
    · exact .inr ⟨rsp, hrun⟩
    · exact h.hi
    · exact hle
    · exact c.mid_small
  | false =>
    constructor
    · exact h.lo
    · exact .inr ⟨rsp, hrun⟩
    · show c.mid.toNat ≤ _
      omega
    · exact h.lo_small

/-- The result succeeded and the amount below failed, or they are first bounds. -/
theorem binSearch_ok {fuel : ℕ} {hi : UInt64} (hlo : b.lo.toNat < 2 ^ 63)
    (h : binSearch executable fuel b.lo b.hi = some (.ok hi)) :
    ∃ lo, hi.toNat ≤ lo.toNat + 1 ∧ Tried executable b ⟨lo, hi⟩ := by
  obtain ⟨c, hreach, hexit⟩ := Loop.exit_of_run h
  have htried : Tried executable b c :=
    Loop.invariant (fun _ _ htried hnext => htried.next hnext) hreach
      ⟨.inl rfl, .inl rfl, le_refl _, hlo⟩
  rcases searchStep_exit hexit with ⟨hclosed, hhi⟩ | ⟨-, e, -, herror⟩
  · cases hhi
    rw [Bounds.open_iff htried.lo_small] at hclosed
    exact ⟨c.lo, by omega, htried⟩
  · cases herror

/-- **What the search returns**: the first bound, or an amount that succeeds. -/
theorem binSearch_found {fuel : ℕ} {hi : UInt64} (hlo : b.lo.toNat < 2 ^ 63)
    (h : binSearch executable fuel b.lo b.hi = some (.ok hi)) :
    hi = b.hi ∧ (∀ k, (b.climb k).Open → ¬ executable.Succeeds (b.climb k).mid) ∨
      executable.Succeeds hi ∧ ∃ k, (b.climb k).Open ∧ executable.Succeeds (b.climb k).mid := by
  induction fuel generalizing b with
  | zero => cases h
  | succ fuel ih =>
    cases hstep : searchStep executable b with
    | inl c =>
      rw [binSearch_of_next hstep] at h
      obtain ⟨hopen, failed, rsp, hrun, rfl⟩ := searchStep_next.1 hstep
      cases failed with
      | true =>
        rcases ih b.mid_small h with ⟨hhi, hnone⟩ | ⟨hsucceeds, k, hk⟩
        · refine .inl ⟨hhi, fun k hk => ?_⟩
          cases k with
          | zero =>
            rintro ⟨rsp', hrun'⟩
            cases hrun.symm.trans hrun'
          | succ k =>
            rw [Bounds.climb_succ] at hk ⊢
            exact hnone k hk
        · refine .inr ⟨hsucceeds, k + 1, ?_⟩
          rw [Bounds.climb_succ]
          exact hk
      | false =>
        obtain ⟨lo, -, htried⟩ := binSearch_ok (b := ⟨b.lo, b.mid⟩) hlo h
        refine .inr ⟨?_, 0, hopen, rsp, hrun⟩
        rcases htried.hi with hmid | hsucceeds
        · have hmid' : hi = b.mid := hmid
          exact ⟨rsp, by rw [hmid', hrun]⟩
        · exact hsucceeds
    | inr result =>
      have hresult := (Loop.run_succ_of_exit hstep fuel).symm.trans h
      cases hresult
      rcases searchStep_exit hstep with ⟨hclosed, hhi⟩ | ⟨-, e, -, herror⟩
      · cases hhi
        exact .inl ⟨rfl, fun k hk => absurd hk (Bounds.climb_closed hlo hclosed k)⟩
      · cases herror

/-- The result of the search, tried if it is the highest amount. -/
theorem finishEstimation_ok {gasCap hi : UInt64} {res : EstimateGasResponse}
    (h : finishEstimation executable gasCap hi = .ok res) (hvm : res.vmError = "") :
    res.gas = hi ∧ (hi = gasCap → ∃ rsp, executable hi = .ok (false, rsp)) := by
  unfold finishEstimation at h
  split at h
  · split at h
    · cases h
    · rename_i rsp hrun
      cases h
      exact ⟨rfl, fun _ => ⟨rsp, hrun⟩⟩
    · cases h
    · split at h
      · split at h
        · rename_i hreverted
          cases h
          have hempty : "execution reverted" = "" := hreverted.symm.trans hvm
          exact absurd hempty (by decide)
        · cases h
      · cases h
  · rename_i hne
    cases h
    exact ⟨rfl, fun heq => absurd heq hne⟩

end Result

/-! ## Estimates that can be relied on -/

section Sound

variable (chain : Chain) {Ω : Type} (evm : Evm Ω) (fromType : CallType) (ctx : Context Ω)
  (e : Estimation)

/-- The call goes through with an amount of gas. -/
def SucceedsWith (gas : UInt64) : Prop :=
  ∃ tmpCtx tmpCtx' rsp,
    simulationContext chain fromType e.msg.sender e.nonce ctx = .ok tmpCtx ∧
    (applyMessageWithConfig chain evm { e.msg with gas := gas } false (emptyTxConfig chain)).run
      tmpCtx = .ok rsp tmpCtx' ∧
    rsp.vmError = ""

/-- With more gas a call succeeds too. -/
def MonotoneSuccess : Prop :=
  ∀ gas more : UInt64, gas ≤ more → SucceedsWith chain evm fromType ctx e gas →
    SucceedsWith chain evm fromType ctx e more

/-- A bound lowered by funds succeeds, or an amount on the way. -/
def FundsSuffice : Prop :=
  e.bounds.hi ≠ e.gasCap → SucceedsWith chain evm fromType ctx e e.bounds.hi ∨
    ∃ k, (e.bounds.climb k).Open ∧ SucceedsWith chain evm fromType ctx e (e.bounds.climb k).mid

variable {chain evm fromType ctx e}

/-- Going through is succeeding as the search sees it. -/
theorem succeedsWith_iff {gas : UInt64} : SucceedsWith chain evm fromType ctx e gas ↔
    (executable chain evm fromType ctx e).Succeeds gas := by
  unfold Executable.Succeeds executable
  constructor
  · rintro ⟨tmpCtx, tmpCtx', rsp, hctx, hrun, hvm⟩
    rw [hctx]
    dsimp only
    rw [hrun]
    dsimp only
    rw [MsgEthereumTxResponse.failed, hvm]
    exact ⟨some rsp, rfl⟩
  · rintro ⟨rsp', h⟩
    split at h
    · cases h
    rename_i tmpCtx hctx
    split at h
    · split at h
      · cases h
      · cases h
    rename_i rsp tmpCtx' hrun
    have hfailed : rsp.failed = false := congrArg Prod.fst (Except.ok.inj h)
    refine ⟨tmpCtx, tmpCtx', rsp, hctx, hrun, ?_⟩
    by_contra hvm
    rw [MsgEthereumTxResponse.failed, decide_eq_true hvm] at hfailed
    cases hfailed

/-- An amount that failed does not succeed. -/
theorem not_succeedsWith {gas : UInt64} {rsp : Option MsgEthereumTxResponse}
    (h : executable chain evm fromType ctx e gas = .ok (true, rsp)) :
    ¬ SucceedsWith chain evm fromType ctx e gas := by
  intro hsucceeds
  obtain ⟨rsp', h'⟩ := succeedsWith_iff.1 hsucceeds
  rw [h] at h'
  cases h'

/-- **When an estimate can be relied on**: exactly if the funds suffice. With monotone success, the
call fails below it. -/
theorem estimateGas_sound_iff (chain : Chain) {Ω : Type} (evm : Evm Ω) (fromType : CallType)
    (ctx : Context Ω) (req : EthCallRequest) (fuel : ℕ) (res : EstimateGasResponse)
    (h : estimateGasInternal chain evm fuel fromType ctx req = some (.ok res))
    (hvm : res.vmError = "") :
    ∃ e, prepareEstimation chain ctx.store req = .ok e ∧
      (SucceedsWith chain evm fromType ctx e res.gas ↔ FundsSuffice chain evm fromType ctx e) ∧
      (MonotoneSuccess chain evm fromType ctx e →
        ∀ gas, txGas ≤ gas → gas < res.gas → ¬ SucceedsWith chain evm fromType ctx e gas) := by
  unfold estimateGasInternal at h
  cases hprepare : prepareEstimation chain ctx.store req with
  | error err =>
    rw [hprepare] at h
    cases h
  | ok e =>
    rw [hprepare] at h
    obtain ⟨result, hsearch, hresult⟩ := Option.map_eq_some_iff.1 h
    obtain ⟨hi, rfl, hfinish⟩ := except_bind_ok.1 hresult
    have hbounded := prepareEstimation_ok hprepare
    obtain ⟨hgas, hcap⟩ := finishEstimation_ok hfinish hvm
    rw [hgas]
    refine ⟨e, rfl, ?_, fun hmonotone gas hleast hbelow hsucceeds => ?_⟩
    · rcases binSearch_found hbounded.lo_small hsearch with ⟨rfl, hnone⟩ | ⟨hsucceeds, k, hk⟩
      · -- the first bound has been tried unless the funds lowered it
        refine ⟨fun hsucceeds _ => .inl hsucceeds, fun hfunds => ?_⟩
        by_cases hsame : e.bounds.hi = e.gasCap
        · exact succeedsWith_iff.2 (hcap hsame)
        · rcases hfunds hsame with hsucceeds | ⟨k, hopen, hk⟩
          · exact hsucceeds
          · exact absurd (succeedsWith_iff.1 hk) (hnone k hopen)
      · exact ⟨fun _ _ => .inr ⟨k, hk.1, succeedsWith_iff.2 hk.2⟩,
          fun _ => succeedsWith_iff.2 hsucceeds⟩
    · obtain ⟨lo, hnear, htried⟩ := binSearch_ok hbounded.lo_small hsearch
      rw [UInt64.lt_iff_toNat_lt] at hbelow
      rw [UInt64.le_iff_toNat_le] at hleast
      rcases htried.lo with hfirst | ⟨rsp, hfailed⟩
      · have hfirst' : lo = txGas - 1 := hfirst.trans hbounded.lo
        have hlo : lo.toNat + 1 = txGas.toNat := by
          rw [hfirst']
          decide
        omega
      · have hle : gas ≤ lo := UInt64.le_iff_toNat_le.2 (by omega)
        exact not_succeedsWith hfailed (hmonotone gas lo hle hsucceeds)

end Sound

theorem prepareEstimation_lowered :
    prepareEstimation chain18 (chainState 30000).ctx.store
      (callRequest 1000000 1) = .ok (callEstimation 1000000 30000 1) := rfl

/-- A call that does nothing needs the gas of a transaction. -/
theorem estimateGas_sound_devnet :
    estimateGasInternal chain18 Devnet.evm 20 .rpc
      (chainState 30000).ctx (callRequest 1000000 1) =
        some (.ok { gas := 21000, ret := [], vmError := "" }) ∧
    SucceedsWith chain18 Devnet.evm .rpc (chainState 30000).ctx
      (callEstimation 1000000 30000 1) 21000 := by
  have hresult : estimateGasInternal chain18 Devnet.evm 20 .rpc
      (chainState 30000).ctx (callRequest 1000000 1) =
        some (.ok { gas := 21000, ret := [], vmError := "" }) := by
    rfl
  refine ⟨hresult, ?_⟩
  obtain ⟨e, he, hsound, -⟩ := estimateGas_sound_iff chain18 Devnet.evm
    .rpc (chainState 30000).ctx (callRequest 1000000 1) 20 _ hresult rfl
  rw [prepareEstimation_lowered] at he
  cases he
  exact hsound.mpr fun _ => .inl (succeedsWith_iff.2 ⟨_, rfl⟩)

/-- **Limited funds**: the call fails with the bound of 30000. -/
theorem estimateGas_limitedFunds :
    prepareEstimation chain18 (chainState 30000).ctx.store
      (callRequest 1000000 1) = .ok (callEstimation 1000000 30000 1) ∧
    (∃ fuel, estimateGasInternal chain18 invalidEvm fuel .rpc
      (chainState 30000).ctx (callRequest 1000000 1) =
        some (.ok { gas := 30000, ret := [], vmError := "" })) ∧
    ¬ SucceedsWith chain18 invalidEvm .rpc
      (chainState 30000).ctx (callEstimation 1000000 30000 1) 30000 := by
  have hfails : AlwaysFails (executable chain18 invalidEvm .rpc
      (chainState 30000).ctx (callEstimation 1000000 30000 1)) := executable_invalid rfl rfl
  refine ⟨prepareEstimation_lowered, ?_, ?_⟩
  · obtain ⟨fuel, hrun⟩ := hfails.binSearch_hi (b := (callEstimation 1000000 30000 1).bounds)
      (by decide) (by decide) (by decide)
    exact ⟨fuel, estimateGasInternal_of_search prepareEstimation_lowered hrun⟩
  · obtain ⟨rsp, hfailed⟩ := hfails 30000
    exact not_succeedsWith hfailed

end TacEvm
