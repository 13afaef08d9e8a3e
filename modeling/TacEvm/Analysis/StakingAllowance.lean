import TacEvm.Analysis.AbsentFields
import TacEvm.Analysis.Grants
import TacEvm.Model.Staking

/-!
# Changing the allowances of the staking precompile

`increaseAllowance` and `decreaseAllowance` are meant to be inverse. A nil coin is dereferenced, a
sum beyond 256 bits panics, and one message type is known to `decreaseAllowance` only; there are no
other exceptions (`allowanceChanges_iff`).
-/

namespace TacEvm.Staking

open FallibleState Authorization KeeperM

variable {Ω : Type} {env env' : Env} {cosmos : Cosmos Ω} {st st' : Store Ω} {grantee : Address}
  {T : AuthorizationType} {x : ℤ} {c c' : Frame} {a : StakeAuthorization} {expiration : Option ℤ}

theorem convertMsgToAuthz_msgTypeURL (T : AuthorizationType) :
    convertMsgToAuthz T.msgTypeURL = some T := by
  cases T <;> rfl

/-- A stake authorization under its own type, its limit unsigned. -/
structure Stored (st : Store Ω) (granter grantee : Address) (T : AuthorizationType)
    (a : StakeAuthorization) (expiration : Option ℤ) : Prop where
  grant : st.grants granter grantee T.msgTypeURL = some ⟨.stake a, expiration⟩
  type : a.authorizationType = T
  limit : ∀ limit, a.maxTokens = some limit → 0 ≤ limit.amount ∧ limit.amount < 2 ^ 256

/-- `CheckApprovalArgs` of an unsigned number and one message type. -/
theorem checkApprovalArgs_ok (hgrantee : grantee ≠ 0) (hx : 0 ≤ x) (denom : Denom) :
    checkApprovalArgs grantee x [T.msgTypeURL] denom = .ok (approvalCoin x denom) := by
  have hnonempty : "" ∉ [T.msgTypeURL] := by cases T <;> decide
  unfold checkApprovalArgs validateMsgTypes
  rw [if_neg hgrantee, if_neg (not_lt.mpr hx), if_neg (List.cons_ne_nil _ _), if_neg hnonempty]
  rfl

variable (env cosmos) in
/-- A call that comes to the authorization. -/
structure Reaches (st : Store Ω) (grantee : Address) (expiration : Option ℤ) : Prop where
  denom : ∃ denom, cosmos.bondDenom st = .ok denom
  grantee : grantee ≠ 0
  live : ¬ expiration.any (· < env.blockTime) = true

theorem Stored.getAuthorization (h : Stored st c.origin grantee T a expiration)
    (hreach : Reaches env cosmos st grantee expiration) :
    st.getAuthorization env grantee c.origin T.msgTypeURL = some (.stake a, expiration) :=
  Store.getAuthorization_eq_some.mpr ⟨h.grant, hreach.live⟩

theorem existingStakeAuthz_run {granter : Address} {typeURL : String}
    (h : st.getAuthorization env grantee granter typeURL = some (.stake a, expiration)) :
    (existingStakeAuthz env grantee granter typeURL).run st = .ok (a, expiration) st := by
  have hread : checkAuthzExists env grantee granter typeURL st = .ok (.stake a, expiration) := by
    unfold checkAuthzExists
    rw [h]
  unfold existingStakeAuthz
  rw [bind_run_of_ok (read_ok.mpr ⟨hread, rfl⟩)]
  rfl

/-! ## What the two methods come to -/

theorem forM_singleton {α : Type} (f : α → KeeperM Ω Unit) (b : α) : [b].forM f = f b :=
  bind_pure (f b)

section

variable (hreach : Reaches env cosmos st grantee expiration) (hx : 0 ≤ x)
include hreach hx

theorem checked_run (loop : Option Coin → KeeperM Ω BalanceChanges) :
    ∃ denom, (read cosmos.bondDenom >>= fun bondDenom =>
      check (checkApprovalArgs grantee x [T.msgTypeURL] bondDenom) >>= loop).run st =
        (loop (approvalCoin x denom)).run st := by
  obtain ⟨denom, hdenom⟩ := hreach.denom
  refine ⟨denom, ?_⟩
  rw [bind_run_of_ok (read_ok.mpr ⟨hdenom, rfl⟩),
    bind_run_of_ok (check_ok.mpr ⟨checkApprovalArgs_ok hreach.grantee hx denom, rfl⟩)]

theorem decreaseAllowance_run (h : Stored st c.origin grantee T a expiration) :
    ∃ denom, (decreaseAllowance env cosmos grantee x [T.msgTypeURL] c).run st =
      (decreaseAllowanceOf env grantee c.origin (approvalCoin x denom) a expiration >>=
        fun _ => pure []).run st := by
  obtain ⟨denom, hrun⟩ := checked_run hreach hx _
  refine ⟨denom, hrun.trans ?_⟩
  rw [forM_singleton, convertMsgToAuthz_msgTypeURL]
  rw [bind_assoc, bind_run_of_ok (existingStakeAuthz_run (h.getAuthorization hreach))]

theorem increaseAllowance_run (hT : T ≠ .cancelUnbondingDelegation) :
    ∃ denom, (increaseAllowance env cosmos grantee x [T.msgTypeURL] c).run st =
      (increaseAllowanceOf env grantee c.origin (approvalCoin x denom) T.msgTypeURL >>=
        fun _ => pure []).run st := by
  obtain ⟨denom, hrun⟩ := checked_run hreach hx _
  refine ⟨denom, hrun.trans ?_⟩
  rw [forM_singleton, convertMsgToAuthz_msgTypeURL]
  cases T with
  | cancelUnbondingDelegation => exact absurd rfl hT
  | _ => rfl

theorem increaseAllowance_cancel :
    (increaseAllowance env cosmos grantee x
      [AuthorizationType.cancelUnbondingDelegation.msgTypeURL] c).run st =
        .error (errInvalidMsgType AuthorizationType.cancelUnbondingDelegation.msgTypeURL) st := by
  obtain ⟨denom, hrun⟩ := checked_run hreach hx _
  refine hrun.trans ?_
  rw [forM_singleton, convertMsgToAuthz_msgTypeURL]
  rfl

end

/-- A limited authorization with another limit. -/
def limited (a : StakeAuthorization) (limit : Coin) (amount : ℤ) : StakeAuthorization :=
  { a with maxTokens := some { limit with amount := amount } }

variable (st grantee c) in
/-- The store in which an authorization was saved. -/
def saved (a : StakeAuthorization) (expiration : Option ℤ) : Store Ω :=
  st.setGrant c.origin grantee a.authorizationType.msgTypeURL (some ⟨.stake a, expiration⟩)

theorem approvalCoin_of_ne (hx : x ≠ maxUint256) (denom : Denom) :
    approvalCoin x denom = some { denom := denom, amount := x } := if_neg hx

theorem approvalCoin_max (denom : Denom) :
    approvalCoin maxUint256 denom = none := if_pos rfl

/-- A computation ends with an error value, and leaves the store. -/
def Fails {α : Type} (m : KeeperM Ω α) (st : Store Ω) : Prop :=
  ∃ err : Err, err.IsValue ∧ m.run st = .error err st

/-- **The ends of a change**, by its limit and what it refuses. -/
inductive Changes (env : Env) (st : Store Ω) (grantee : Address) (c : Frame)
    (a : StakeAuthorization) (expiration : Option ℤ) (x : ℤ) (amount : ℤ → ℤ)
    (refused : ℤ → Option Err)
    (result : EStateM.Result Err (Store Ω) BalanceChanges) : Prop
  | unlimited (hnone : a.maxTokens = none) (h : result = .ok [] st)
  | nilCoin (limit : Coin) (hlimit : a.maxTokens = some limit)
      (hx : x = maxUint256) (h : result = .error .nilDereference st)
  | refuses (limit : Coin) (hlimit : a.maxTokens = some limit)
      (hx : x ≠ maxUint256) (err : Err) (hrefused : refused limit.amount = some err)
      (h : result = .error err st)
  | expires (limit : Coin) (hlimit : a.maxTokens = some limit)
      (hx : x ≠ maxUint256) (hrefused : refused limit.amount = none)
      (hsave : expiration.any (· ≤ env.blockTime) = true) (err : Err) (herr : err.IsValue)
      (h : result = .error err st)
  | changed (limit : Coin) (hlimit : a.maxTokens = some limit)
      (hx : x ≠ maxUint256) (hrefused : refused limit.amount = none)
      (hsave : ¬ expiration.any (· ≤ env.blockTime) = true)
      (h : result = .ok [] (saved st grantee c (limited a limit (amount limit.amount)) expiration))

/-- What a decrease refuses. -/
def tooLarge (x limit : ℤ) : Option Err :=
  if limit < x then
    some (.errorf ("amount by which the allowance should be decreased is greater than " ++
      "the authorization limit: %s > %s") [.num x, .num limit])
  else none

/-- What an increase does not survive. -/
def overflows (x limit : ℤ) : Option Err :=
  if 2 ^ 256 ≤ |limit + x| then some (.panic "Int overflow") else none

theorem saveGrant_cases (b : StakeAuthorization) :
    (expiration.any (· ≤ env.blockTime) = true ∧
      Fails (Authz.saveGrant env grantee c.origin (.stake b) expiration >>= fun _ =>
        (pure [] : KeeperM Ω BalanceChanges)) st) ∨
    (¬ expiration.any (· ≤ env.blockTime) = true ∧
      (Authz.saveGrant env grantee c.origin (.stake b) expiration >>= fun _ =>
        (pure [] : KeeperM Ω BalanceChanges)).run st = .ok [] (saved st grantee c b expiration)) := by
  by_cases hsave : expiration.any (· ≤ env.blockTime) = true
  · left
    unfold Authz.saveGrant
    rw [if_pos hsave]
    exact ⟨hsave, Err.errorf _ _, Err.isValue_errorf _ _, rfl⟩
  · refine .inr ⟨hsave, ?_⟩
    unfold Authz.saveGrant
    rw [if_neg hsave]
    rfl

section

variable (h : Stored st c.origin grantee T a expiration)
  (hreach : Reaches env cosmos st grantee expiration) (hx : 0 ≤ x)
include h hreach hx

/-- The ends of a decrease. -/
theorem decreaseAllowance_changes :
    Changes env st grantee c a expiration x (· - x) (tooLarge x)
      ((decreaseAllowance env cosmos grantee x [T.msgTypeURL] c).run st) := by
  obtain ⟨denom, hrun⟩ := decreaseAllowance_run hreach hx h
  rw [hrun]
  unfold decreaseAllowanceOf
  cases hlimit : a.maxTokens with
  | none => exact .unlimited hlimit rfl
  | some limit =>
    by_cases hmax : x = maxUint256
    · subst hmax
      rw [approvalCoin_max]
      exact .nilCoin limit hlimit rfl rfl
    rw [approvalCoin_of_ne hmax]
    dsimp only
    by_cases hless : limit.amount < x
    · rw [if_pos hless]
      exact .refuses limit hlimit hmax _ (if_pos hless) rfl
    rw [if_neg hless]
    rcases saveGrant_cases (limited a limit (limit.amount - x)) with
      ⟨hsave, err, herr, hsaved⟩ | ⟨hsave, hsaved⟩
    · exact .expires limit hlimit hmax (if_neg hless) hsave err herr hsaved
    · exact .changed limit hlimit hmax (if_neg hless) hsave hsaved

/-- The ends of an increase. -/
theorem increaseAllowance_changes (hT : T ≠ .cancelUnbondingDelegation) :
    Changes env st grantee c a expiration x (· + x) (overflows x)
      ((increaseAllowance env cosmos grantee x [T.msgTypeURL] c).run st) := by
  obtain ⟨denom, hrun⟩ := increaseAllowance_run hreach hx hT
  rw [hrun]
  unfold increaseAllowanceOf
  rw [bind_assoc, bind_run_of_ok (existingStakeAuthz_run (h.getAuthorization hreach))]
  dsimp only
  cases hlimit : a.maxTokens with
  | none => exact .unlimited hlimit rfl
  | some limit =>
    by_cases hmax : x = maxUint256
    · subst hmax
      rw [approvalCoin_max]
      exact .nilCoin limit hlimit rfl rfl
    rw [approvalCoin_of_ne hmax]
    dsimp only
    by_cases hlarge : 2 ^ 256 ≤ |limit.amount + x|
    · rw [if_pos hlarge]
      exact .refuses limit hlimit hmax _ (if_pos hlarge) rfl
    rw [if_neg hlarge]
    rcases saveGrant_cases (limited a limit (limit.amount + x)) with
      ⟨hsave, err, herr, hsaved⟩ | ⟨hsave, hsaved⟩
    · exact .expires limit hlimit hmax (if_neg hlarge) hsave err herr hsaved
    · exact .changed limit hlimit hmax (if_neg hlarge) hsave hsaved

end

/-! ## Calls that do not come to the authorization -/

section

variable (hx : 0 ≤ x) (hdenom : ∀ err, cosmos.bondDenom st = .error err → err.IsValue)
  (hreach : ¬ Reaches env cosmos st grantee expiration)

include hx hdenom hreach in
theorem checked_error {loop : Option Coin → KeeperM Ω BalanceChanges}
    (hloop : expiration.any (· < env.blockTime) = true → ∀ coin, Fails (loop coin) st) :
    Fails (read cosmos.bondDenom >>= fun bondDenom =>
      check (checkApprovalArgs grantee x [T.msgTypeURL] bondDenom) >>= loop) st := by
  cases hbond : cosmos.bondDenom st with
  | error err =>
    exact ⟨err, hdenom err hbond, bind_run_of_error (read_run_of_error hbond)⟩
  | ok denom =>
    unfold Fails
    rw [bind_run_of_ok (read_ok.mpr ⟨hbond, rfl⟩)]
    by_cases hgrantee : grantee = 0
    · have hargs : checkApprovalArgs grantee x [T.msgTypeURL] denom =
          .error (.errorf "invalid granter address: %v" [.addr grantee]) := by
        unfold checkApprovalArgs
        rw [if_pos hgrantee]
        rfl
      exact ⟨_, Err.isValue_errorf _ _, bind_run_of_error (read_run_of_error hargs)⟩
    · rw [bind_run_of_ok (check_ok.mpr ⟨checkApprovalArgs_ok hgrantee hx denom, rfl⟩)]
      refine hloop ?_ _
      by_contra hlive
      exact hreach ⟨⟨denom, hbond⟩, hgrantee, hlive⟩

variable (h : Stored st c.origin grantee T a expiration)
include h

theorem existingStakeAuthz_expired (hexpired : expiration.any (· < env.blockTime) = true) :
    Fails (existingStakeAuthz env grantee c.origin T.msgTypeURL) st := by
  have hnone : st.getAuthorization env grantee c.origin T.msgTypeURL = none := by
    refine Store.getAuthorization_eq_none.mpr fun g hg => ?_
    rw [h.grant] at hg
    cases hg
    exact hexpired
  have hread : checkAuthzExists env grantee c.origin T.msgTypeURL st =
      .error (errAuthzDoesNotExistOrExpired (.str T.msgTypeURL) grantee) := by
    unfold checkAuthzExists
    rw [hnone]
  exact ⟨_, Err.isValue_errorf _ _, bind_run_of_error (read_run_of_error hread)⟩

include hx hdenom hreach

theorem decreaseAllowance_error :
    Fails (decreaseAllowance env cosmos grantee x [T.msgTypeURL] c) st := by
  refine checked_error hx hdenom hreach fun hexpired coin => ?_
  obtain ⟨err, herr, hrun⟩ := existingStakeAuthz_expired h hexpired
  rw [forM_singleton, convertMsgToAuthz_msgTypeURL]
  exact ⟨err, herr, bind_run_of_error (bind_run_of_error hrun)⟩

theorem increaseAllowance_error :
    Fails (increaseAllowance env cosmos grantee x [T.msgTypeURL] c) st := by
  refine checked_error hx hdenom hreach fun hexpired coin => ?_
  obtain ⟨err, herr, hrun⟩ := existingStakeAuthz_expired h hexpired
  rw [forM_singleton, convertMsgToAuthz_msgTypeURL]
  cases T with
  | cancelUnbondingDelegation => exact ⟨_, Err.isValue_errorf _ _, rfl⟩
  | _ => exact ⟨err, herr, bind_run_of_error (bind_run_of_error hrun)⟩

end

/-! ## What follows from the ends -/

section Ends

variable {amount : ℤ → ℤ} {refused : ℤ → Option Err}
  {result : EStateM.Result Err (Store Ω) BalanceChanges} {r : BalanceChanges}

variable (h : Changes env st grantee c a expiration x amount refused result)
include h

theorem Changes.isValue_iff :
    (∀ err st', result = .error err st' → err.IsValue) ↔
      ∀ limit, a.maxTokens = some limit → x ≠ maxUint256 ∧
        ∀ err, refused limit.amount = some err → err.IsValue := by
  cases h with
  | unlimited hnone h => simp [hnone, h]
  | nilCoin limit hlimit hx h =>
    rw [hlimit, h]
    constructor
    · intro hvalue
      exact absurd rfl (hvalue _ _ rfl _)
    · intro hlimits
      exact absurd hx (hlimits limit rfl).1
  | refuses limit hlimit hx err hrefused h => simp [hlimit, h, hx, hrefused]
  | expires limit hlimit hx hrefused hsave err herr h => simp [hlimit, h, hx, hrefused, herr]
  | changed limit hlimit hx hrefused hsave h => simp [hlimit, h, hx, hrefused]

theorem Changes.ok (hok : result = .ok r st') :
    (a.maxTokens = none ∧ st' = st) ∨
      ∃ limit, a.maxTokens = some limit ∧ refused limit.amount = none ∧
        ¬ expiration.any (· ≤ env.blockTime) = true ∧
        st' = saved st grantee c (limited a limit (amount limit.amount)) expiration := by
  cases h with
  | unlimited hnone h =>
    rw [h] at hok
    cases hok
    exact .inl ⟨hnone, rfl⟩
  | nilCoin limit hlimit hx h =>
    rw [h] at hok
    cases hok
  | refuses limit hlimit hx err hrefused h =>
    rw [h] at hok
    cases hok
  | expires limit hlimit hx hrefused hsave err herr h =>
    rw [h] at hok
    cases hok
  | changed limit hlimit hx hrefused hsave h =>
    rw [h] at hok
    cases hok
    exact .inr ⟨limit, hlimit, hrefused, hsave, rfl⟩

theorem Changes.succeeds
    (hlimits : ∀ limit, a.maxTokens = some limit → x ≠ maxUint256 ∧
      refused limit.amount = none ∧ ¬ expiration.any (· ≤ env.blockTime) = true) :
    ∃ st', result = .ok [] st' := by
  cases h with
  | unlimited hnone h => exact ⟨_, h⟩
  | nilCoin limit hlimit hx h => exact absurd hx (hlimits limit hlimit).1
  | refuses limit hlimit hx err hrefused h =>
    rw [(hlimits limit hlimit).2.1] at hrefused
    cases hrefused
  | expires limit hlimit hx hrefused hsave err herr h =>
    exact absurd hsave (hlimits limit hlimit).2.2
  | changed limit hlimit hx hrefused hsave h => exact ⟨_, h⟩

end Ends

variable {limit : ℤ}

theorem tooLarge_eq_none : tooLarge x limit = none ↔ x ≤ limit := by
  unfold tooLarge
  simp only [ite_eq_right_iff, reduceCtorEq, imp_false, not_lt]

theorem overflows_eq_none (hlimit : 0 ≤ limit) (hx : 0 ≤ x) :
    overflows x limit = none ↔ limit + x < 2 ^ 256 := by
  unfold overflows
  rw [abs_of_nonneg (add_nonneg hlimit hx)]
  simp only [ite_eq_right_iff, reduceCtorEq, imp_false, not_le]

theorem tooLarge_isValue {err : Err} (h : tooLarge x limit = some err) : err.IsValue := by
  unfold tooLarge at h
  split at h
  · cases h
    exact Err.isValue_errorf _ _
  · cases h

theorem overflows_isValue_iff (hlimit : 0 ≤ limit) (hx : 0 ≤ x) :
    (∀ err, overflows x limit = some err → err.IsValue) ↔ limit + x < 2 ^ 256 := by
  rw [← overflows_eq_none hlimit hx]
  unfold overflows
  split
  · exact iff_of_false (fun hvalue => absurd rfl (hvalue _ rfl _)) (Option.some_ne_none _)
  · simp

/-! ## The grants after a change -/

theorem Stored.saved {amount : ℤ} (h : Stored st c.origin grantee T a expiration) (limit : Coin)
    (hnonneg : 0 ≤ amount) (hlt : amount < 2 ^ 256) :
    Stored (saved st grantee c (limited a limit amount) expiration) c.origin grantee T
      (limited a limit amount) expiration where
  grant := by
    rw [← h.type]
    exact Store.setGrant_self
  type := h.type
  limit := by
    intro limit' heq
    cases heq
    exact ⟨hnonneg, hlt⟩

theorem Stored.allowanceChangeValues (h : Stored st c.origin grantee T a expiration)
    (hlive : ¬ expiration.any (· < env.blockTime) = true) :
    Answers (allowanceChangeValues env grantee c.origin [T.msgTypeURL] st) := by
  have hget := Store.getAuthorization_eq_some.mpr ⟨h.grant, hlive⟩
  have hvalues : Staking.allowanceChangeValues env grantee c.origin [T.msgTypeURL] st =
      .ok [a.maxTokens.elim maxUint256 Coin.amount] := by
    unfold Staking.allowanceChangeValues
    rw [List.mapM_cons, hget]
    rfl
  rw [hvalues]
  exact .ok _

/-- A method returns, and so does the log that it adds in the end. -/
structure Returns (env : Env) (method : KeeperM Ω BalanceChanges) (grantee : Address)
    (T : AuthorizationType) (c : Frame) (st : Store Ω) : Prop where
  isValue : ∀ err st', method.run st = .error err st' → err.IsValue
  log : ∀ r st', method.run st = .ok r st' →
    Answers (allowanceChangeValues env grantee c.origin [T.msgTypeURL] st')

/-- What is expected of the changes of an allowance by an amount. -/
structure AllowanceChanges (env : Env) (cosmos : Cosmos Ω) (st : Store Ω) (grantee : Address)
    (T : AuthorizationType) (x : ℤ) (c : Frame) : Prop where
  increase : Returns env (increaseAllowance env cosmos grantee x [T.msgTypeURL] c) grantee T c st
  decrease : Returns env (decreaseAllowance env cosmos grantee x [T.msgTypeURL] c) grantee T c st
  /-- An increase is undone by a decrease of its granter. -/
  inverse : ∀ (env' : Env) (c' : Frame), c'.origin = c.origin → ∀ r r' st₁ st₂,
    (increaseAllowance env cosmos grantee x [T.msgTypeURL] c).run st = .ok r st₁ →
    (decreaseAllowance env' cosmos grantee x [T.msgTypeURL] c').run st₁ = .ok r' st₂ → st₂ = st
  /-- What can be decreased can be increased. -/
  increasable : (∃ y r st', 0 ≤ y ∧ y ≤ maxUint256 ∧
      (decreaseAllowance env cosmos grantee y [T.msgTypeURL] c).run st = .ok r st') →
    ∃ y r st', 0 ≤ y ∧ y ≤ maxUint256 ∧
      (increaseAllowance env cosmos grantee y [T.msgTypeURL] c).run st = .ok r st'

/-- A limited authorization is not changed by the largest amount or beyond 256 bits, and one that
cannot be increased cannot be saved. -/
structure ChangesSafely (env : Env) (T : AuthorizationType) (x : ℤ) (a : StakeAuthorization)
    (expiration : Option ℤ) : Prop where
  limited : ∀ limit, a.maxTokens = some limit → x ≠ maxUint256 ∧
    (T ≠ .cancelUnbondingDelegation → limit.amount + x < 2 ^ 256)
  cancel : T = .cancelUnbondingDelegation →
    a.maxTokens ≠ none ∧ expiration.any (· ≤ env.blockTime) = true

theorem Changes.log {amount : ℤ → ℤ} {refused : ℤ → Option Err} {r : BalanceChanges}
    {result : EStateM.Result Err (Store Ω) BalanceChanges}
    (hchanges : Changes env st grantee c a expiration x amount refused result)
    (h : Stored st c.origin grantee T a expiration)
    (hreach : Reaches env cosmos st grantee expiration)
    (hamount : ∀ limit, a.maxTokens = some limit → refused limit.amount = none →
      0 ≤ amount limit.amount ∧ amount limit.amount < 2 ^ 256)
    (hok : result = .ok r st') :
    Answers (allowanceChangeValues env grantee c.origin [T.msgTypeURL] st') := by
  rcases hchanges.ok hok with ⟨-, rfl⟩ | ⟨limit, hlimit, hrefused, -, rfl⟩
  · exact h.allowanceChangeValues hreach.live
  · obtain ⟨hnonneg, hlt⟩ := hamount limit hlimit hrefused
    exact (h.saved _ hnonneg hlt).allowanceChangeValues hreach.live

theorem Fails.returns {method : KeeperM Ω BalanceChanges} (h : Fails method st) :
    Returns env method grantee T c st := by
  obtain ⟨err, herr, hrun⟩ := h
  refine ⟨fun err' st' herr' => ?_, fun r st' hok => ?_⟩
  · rw [hrun] at herr'
    cases herr'
    exact herr
  · rw [hrun] at hok
    cases hok

section

variable (h : Stored st c.origin grantee T a expiration)
  (hreach : Reaches env cosmos st grantee expiration) (hx : 0 ≤ x)
include h hreach hx

theorem decreaseAllowance_returns_iff :
    Returns env (decreaseAllowance env cosmos grantee x [T.msgTypeURL] c) grantee T c st ↔
      ∀ limit, a.maxTokens = some limit → x ≠ maxUint256 := by
  have hchanges := decreaseAllowance_changes h hreach hx
  constructor
  · intro hreturns limit hlimit
    exact (hchanges.isValue_iff.mp hreturns.isValue limit hlimit).1
  intro hlimits
  refine ⟨hchanges.isValue_iff.mpr fun limit hlimit =>
    ⟨hlimits limit hlimit, fun err => tooLarge_isValue⟩, fun r st' hok => ?_⟩
  refine hchanges.log h hreach (fun limit hlimit hrefused => ?_) hok
  have hle := tooLarge_eq_none.mp hrefused
  have hlt := (h.limit limit hlimit).2
  omega

/-- An increase returns unless its sum overflows. -/
theorem increaseAllowance_returns_iff :
    Returns env (increaseAllowance env cosmos grantee x [T.msgTypeURL] c) grantee T c st ↔
      (T ≠ .cancelUnbondingDelegation → ∀ limit, a.maxTokens = some limit →
        x ≠ maxUint256 ∧ limit.amount + x < 2 ^ 256) := by
  by_cases hT : T = .cancelUnbondingDelegation
  · subst hT
    refine ⟨fun _ hT => absurd rfl hT, fun _ => ?_⟩
    exact Fails.returns ⟨_, Err.isValue_errorf _ _, increaseAllowance_cancel hreach hx⟩
  have hchanges := increaseAllowance_changes h hreach hx hT
  constructor
  · intro hreturns _ limit hlimit
    obtain ⟨hmax, hvalue⟩ := hchanges.isValue_iff.mp hreturns.isValue limit hlimit
    exact ⟨hmax, (overflows_isValue_iff (h.limit limit hlimit).1 hx).mp hvalue⟩
  intro hlimits
  refine ⟨hchanges.isValue_iff.mpr fun limit hlimit => ?_, fun r st' hok => ?_⟩
  · obtain ⟨hmax, hlt⟩ := hlimits hT limit hlimit
    exact ⟨hmax, (overflows_isValue_iff (h.limit limit hlimit).1 hx).mpr hlt⟩
  · refine hchanges.log h hreach (fun limit hlimit hrefused => ?_) hok
    have hnonneg := (h.limit limit hlimit).1
    exact ⟨add_nonneg hnonneg hx, (overflows_eq_none hnonneg hx).mp hrefused⟩

end

section Main

variable (hdenom : ∀ st err, cosmos.bondDenom st = .error err → err.IsValue)
  (h : Stored st c.origin grantee T a expiration) (hx : 0 ≤ x)

include hdenom h hx

variable {r : BalanceChanges}

theorem decreaseAllowance_reaches
    (hrun : (decreaseAllowance env cosmos grantee x [T.msgTypeURL] c).run st = .ok r st') :
    Reaches env cosmos st grantee expiration := by
  by_contra hreach
  obtain ⟨err, -, herror⟩ := decreaseAllowance_error hx (hdenom st) hreach h
  rw [herror] at hrun
  cases hrun

theorem increaseAllowance_reaches
    (hrun : (increaseAllowance env cosmos grantee x [T.msgTypeURL] c).run st = .ok r st') :
    Reaches env cosmos st grantee expiration ∧ T ≠ .cancelUnbondingDelegation := by
  have hreach : Reaches env cosmos st grantee expiration := by
    by_contra hreach
    obtain ⟨err, -, herror⟩ := increaseAllowance_error hx (hdenom st) hreach h
    rw [herror] at hrun
    cases hrun
  refine ⟨hreach, ?_⟩
  rintro rfl
  rw [increaseAllowance_cancel hreach hx] at hrun
  cases hrun

/-- **An increase and a decrease** restore the store. -/
theorem decrease_of_increase {r' : BalanceChanges} {st₁ st₂ : Store Ω}
    (horigin : c'.origin = c.origin)
    (hinc : (increaseAllowance env cosmos grantee x [T.msgTypeURL] c).run st = .ok r st₁)
    (hdec : (decreaseAllowance env' cosmos grantee x [T.msgTypeURL] c').run st₁ = .ok r' st₂) :
    st₂ = st := by
  obtain ⟨hreach, hT⟩ := increaseAllowance_reaches hdenom h hx hinc
  rcases (increaseAllowance_changes h hreach hx hT).ok hinc with
    ⟨hnone, rfl⟩ | ⟨limit, hlimit, hrefused, -, rfl⟩
  · rw [← horigin] at h
    have hreach' := decreaseAllowance_reaches hdenom h hx hdec
    rcases (decreaseAllowance_changes h hreach' hx).ok hdec with ⟨-, hsame⟩ | ⟨limit, hlimit, -⟩
    · exact hsame
    · rw [hnone] at hlimit
      cases hlimit
  have hrange := h.limit limit hlimit
  have hlt := (overflows_eq_none hrange.1 hx).mp hrefused
  have h₁ := h.saved limit (add_nonneg hrange.1 hx) hlt
  rw [← horigin] at h₁
  have hreach' := decreaseAllowance_reaches hdenom h₁ hx hdec
  rcases (decreaseAllowance_changes h₁ hreach' hx).ok hdec with
    ⟨hnone, -⟩ | ⟨limit', hlimit', -, -, hst⟩
  · cases hnone
  cases hlimit'
  have hback : limited (limited a limit (limit.amount + x))
      { limit with amount := limit.amount + x } (limit.amount + x - x) = a := by
    unfold limited
    rw [add_sub_cancel_right, ← hlimit]
  rw [hst, hback]
  have hgrant := h.grant
  rw [← h.type] at hgrant
  unfold Staking.saved
  rw [horigin]
  exact Store.setGrant_setGrant.trans (Store.setGrant_eq_self hgrant)

end Main

section

variable (h : Stored st c.origin grantee T a expiration)
  (hreach : Reaches env cosmos st grantee expiration)
  (hsave : a.maxTokens = none ∨ ¬ expiration.any (· ≤ env.blockTime) = true)
include h hreach hsave

theorem decreaseAllowance_zero :
    ∃ st', (decreaseAllowance env cosmos grantee 0 [T.msgTypeURL] c).run st = .ok [] st' := by
  refine (decreaseAllowance_changes h hreach le_rfl).succeeds fun limit hlimit => ?_
  refine ⟨by decide, tooLarge_eq_none.mpr (h.limit limit hlimit).1, hsave.resolve_left ?_⟩
  rw [hlimit]
  exact Option.some_ne_none limit

theorem increaseAllowance_zero (hT : T ≠ .cancelUnbondingDelegation) :
    ∃ st', (increaseAllowance env cosmos grantee 0 [T.msgTypeURL] c).run st = .ok [] st' := by
  refine (increaseAllowance_changes h hreach le_rfl hT).succeeds fun limit hlimit => ?_
  obtain ⟨hnonneg, hlt⟩ := h.limit limit hlimit
  refine ⟨by decide, (overflows_eq_none hnonneg le_rfl).mpr ?_, hsave.resolve_left ?_⟩
  · rwa [add_zero]
  · rw [hlimit]
    exact Option.some_ne_none limit

end

/-- **Changes of an allowance** return, are inverse, and know the same types if and only if the
authorization is as in `ChangesSafely`. -/
theorem allowanceChanges_iff (env : Env) (cosmos : Cosmos Ω)
    (hdenom : ∀ st err, cosmos.bondDenom st = .error err → err.IsValue) {st : Store Ω}
    {grantee : Address} {T : AuthorizationType} {x : ℤ} {c : Frame} {a : StakeAuthorization}
    {expiration : Option ℤ} (h : Stored st c.origin grantee T a expiration) (hx : 0 ≤ x) :
    AllowanceChanges env cosmos st grantee T x c ↔
      (Reaches env cosmos st grantee expiration → ChangesSafely env T x a expiration) := by
  constructor
  · intro hchanges hreach
    refine ⟨fun limit hlimit => ?_, fun hT => ?_⟩
    · have hdec := (decreaseAllowance_returns_iff h hreach hx).mp hchanges.decrease
      have hinc := (increaseAllowance_returns_iff h hreach hx).mp hchanges.increase
      exact ⟨hdec limit hlimit, fun hT => (hinc hT limit hlimit).2⟩
    -- a decrease by nothing succeeds, and no increase does
    by_contra hsave
    obtain ⟨st', hrun⟩ := decreaseAllowance_zero h hreach (by tauto)
    obtain ⟨y, r, st'', hy, -, hinc⟩ :=
      hchanges.increasable ⟨0, [], st', le_rfl, by decide, hrun⟩
    exact (increaseAllowance_reaches hdenom h hy hinc).2 hT
  · intro hsafe
    refine ⟨?_, ?_, ?_, ?_⟩
    · by_cases hreach : Reaches env cosmos st grantee expiration
      · refine (increaseAllowance_returns_iff h hreach hx).mpr fun hT limit hlimit => ?_
        exact ⟨((hsafe hreach).limited limit hlimit).1, ((hsafe hreach).limited limit hlimit).2 hT⟩
      · exact (increaseAllowance_error hx (hdenom st) hreach h).returns
    · by_cases hreach : Reaches env cosmos st grantee expiration
      · refine (decreaseAllowance_returns_iff h hreach hx).mpr fun limit hlimit => ?_
        exact ((hsafe hreach).limited limit hlimit).1
      · exact (decreaseAllowance_error hx (hdenom st) hreach h).returns
    · intro env' c' horigin r r' st₁ st₂ hinc hdec
      exact decrease_of_increase hdenom h hx horigin hinc hdec
    · rintro ⟨y, r, st', hy, -, hrun⟩
      have hreach := decreaseAllowance_reaches hdenom h hy hrun
      have hsave : a.maxTokens = none ∨ ¬ expiration.any (· ≤ env.blockTime) = true := by
        rcases (decreaseAllowance_changes h hreach hy).ok hrun with
          ⟨hnone, -⟩ | ⟨-, -, -, hsave, -⟩
        · exact .inl hnone
        · exact .inr hsave
      have hT : T ≠ .cancelUnbondingDelegation := by
        intro hT
        obtain ⟨hlimited, hexpires⟩ := (hsafe hreach).cancel hT
        exact hsave.elim hlimited fun hlater => hlater hexpires
      obtain ⟨st'', hinc⟩ := increaseAllowance_zero h hreach hsave hT
      exact ⟨0, [], st'', le_rfl, by decide, hinc⟩

/-! ## Authorizations of the small chain -/

namespace Devnet

/-- The contract `0xC1` may use up to `limit` coins of `0xA1`. -/
def authorization (T : AuthorizationType) (limit : ℤ) : StakeAuthorization where
  maxTokens := some { denom := "utac", amount := limit }
  allowList := ["val"]
  denyList := []
  authorizationType := T

def authorized (T : AuthorizationType) (limit : ℤ) : Store Devnet.Delegations :=
  Devnet.stakingStore.setGrant 0xA1 0xC1 T.msgTypeURL
    (some ⟨.stake (authorization T limit), none⟩)

def stakingEnv : Env := Devnet.env18

def stakingCosmos : Cosmos Devnet.Delegations := Devnet.cosmos stakingEnv

theorem stored (T : AuthorizationType) {limit : ℤ} (hnonneg : 0 ≤ limit) (hlt : limit < 2 ^ 256) :
    Stored (authorized T limit) 0xA1 0xC1 T (authorization T limit) none where
  grant := Store.setGrant_self
  type := rfl
  limit := by
    intro coin heq
    cases heq
    exact ⟨hnonneg, hlt⟩

end Devnet

open Staking.Devnet

/-- An allowance of seven can be changed by three. -/
theorem allowanceChanges_devnet :
    AllowanceChanges stakingEnv stakingCosmos (authorized .delegate 7) 0xC1 .delegate 3
      (Devnet.frame 0xA1 []) := by
  refine (allowanceChanges_iff stakingEnv stakingCosmos (fun st err herr => ?_)
    (stored .delegate (by decide) (by decide)) (by decide)).mpr fun _ => ?_
  · cases herr
  · refine ⟨fun limit hlimit => ?_, fun hT => ?_⟩
    · cases hlimit
      exact ⟨by decide, fun _ => by decide⟩
    · cases hT

/-- **The three exceptions**: no limit, over 256 bits, decreases only. -/
theorem allowanceChanges_fail :
    (increaseAllowance stakingEnv stakingCosmos 0xC1 Authorization.maxUint256
      [AuthorizationType.delegate.msgTypeURL] (Devnet.frame 0xA1 [])).run
        (authorized .delegate 7) = .error .nilDereference (authorized .delegate 7) ∧
    (decreaseAllowance stakingEnv stakingCosmos 0xC1 Authorization.maxUint256
      [AuthorizationType.delegate.msgTypeURL] (Devnet.frame 0xA1 [])).run
        (authorized .delegate 7) = .error .nilDereference (authorized .delegate 7) ∧
    (increaseAllowance stakingEnv stakingCosmos 0xC1 (2 ^ 256 - 2)
      [AuthorizationType.delegate.msgTypeURL] (Devnet.frame 0xA1 [])).run
        (authorized .delegate 7) =
          .error (.panic "Int overflow") (authorized .delegate 7) ∧
    (∃ st', (decreaseAllowance stakingEnv stakingCosmos 0xC1 3
      [AuthorizationType.cancelUnbondingDelegation.msgTypeURL]
      (Devnet.frame 0xA1 [])).run (authorized .cancelUnbondingDelegation 7) = .ok [] st') ∧
    (increaseAllowance stakingEnv stakingCosmos 0xC1 3
      [AuthorizationType.cancelUnbondingDelegation.msgTypeURL]
      (Devnet.frame 0xA1 [])).run (authorized .cancelUnbondingDelegation 7) =
        .error (errInvalidMsgType AuthorizationType.cancelUnbondingDelegation.msgTypeURL)
          (authorized .cancelUnbondingDelegation 7) := by
  refine ⟨rfl, rfl, rfl, ⟨_, rfl⟩, rfl⟩

end TacEvm.Staking
