import TacEvm.Analysis.Erc20Allowance
import TacEvm.Model.Erc20Events

/-!
# The approvals in the logs

The precompiles have the owner right in the `Approval` of `transferFrom` only; in the other methods
it is the precompile. What the allowances are is a matter of the calls alone (`entriesAfter`), and
the stores and the logs of a run follow them (`Keeps.run`).
-/

namespace TacEvm.Erc20

open FallibleState SendAuthorization

/-- An amount, and when it expires. -/
structure Entry where
  amount : ℤ
  expiration : ℤ

def liveEntry (t : ℤ) (e : Option Entry) : Option Entry :=
  e.filter fun e => t ≤ e.expiration

/-- What an allowance is at a time. -/
def worth (t : ℤ) (e : Option Entry) : ℤ := (liveEntry t e).elim 0 Entry.amount

/-- An allowance keeps its expiration, and goes with its amount. -/
def setEntry (t : ℤ) (e : Option Entry) (x : ℤ) : Option Entry :=
  match liveEntry t e with
  | some live => if x = 0 then none else some { live with amount := x }
  | none => if x = 0 then e else some ⟨x, t + defaultExpirationDuration⟩

/-- A table with another value for a pair of accounts. -/
def setPair {β : Type} (table : Address → Address → β) (owner spender : Address) (b : β) :
    Address → Address → β :=
  fun o s => if o = owner ∧ s = spender then b else table o s

/-- The allowances of a token. -/
abbrev Entries := Address → Address → Option Entry

/-- The owner and the spender in the `Approval` of a call. -/
def Invocation.reported (i : Invocation) : Address × Address :=
  match i.call with
  | .transferFrom src _ _ => (src, i.frame.caller)
  | .approve spender _ => (i.pair.erc20Address, spender)
  | .increaseAllowance spender _ => (i.pair.erc20Address, spender)
  | .decreaseAllowance spender _ => (i.pair.erc20Address, spender)
  | _ => (i.pair.erc20Address, i.frame.caller)

/-- The allowances after a call. Who sends its own coins uses none. -/
def Invocation.record (b : Entries) (i : Invocation) : Entries :=
  match i.allowanceUse with
  | none => b
  | some u =>
    if u.owner = u.spender then b
    else
      match u.value (worth i.env.blockTime (b u.owner u.spender)) with
      | none => b
      | some x =>
        setPair b u.owner u.spender (setEntry i.env.blockTime (b u.owner u.spender) x)

/-- The allowances after some calls, from none. -/
def entriesAfter (calls : List Invocation) : Entries :=
  calls.foldl Invocation.record fun _ _ => none

/-- A transfer by the spender from the owner. -/
def Invocation.TransfersFrom (owner spender : Address) (i : Invocation) : Prop :=
  i.frame.caller = spender ∧ ∃ dst amount, i.call = .transferFrom owner dst amount

/-- A call of one of the three approval methods. -/
def Invocation.Approves (spender : Address) (i : Invocation) : Prop :=
  ∃ amount, i.call = .approve spender amount ∨ i.call = .increaseAllowance spender amount ∨
    i.call = .decreaseAllowance spender amount

/-- A call is the last one of a kind, with some calls before it. -/
def LastOf (kind : Invocation → Prop) (calls pre : List Invocation) (i : Invocation) : Prop :=
  kind i ∧ ∃ post, calls = pre ++ i :: post ∧ ∀ j ∈ post, ¬ kind j

/-- The last approval of a spender leaves no allowance. -/
def Revoked (calls : List Invocation) (spender : Address) : Prop :=
  ∀ pre i, LastOf (Invocation.Approves spender) calls pre i →
    worth i.env.blockTime (entriesAfter (pre ++ [i]) i.frame.caller spender) = 0

/-- The allowance is what the last transfer of the spender left, or nothing. -/
def Settled (calls : List Invocation) (t : ℤ) (owner spender : Address) : Prop :=
  ((∀ i ∈ calls, ¬ i.TransfersFrom owner spender) →
      worth t (entriesAfter calls owner spender) = 0) ∧
    ∀ pre i, LastOf (Invocation.TransfersFrom owner spender) calls pre i →
      worth t (entriesAfter calls owner spender) =
        worth i.env.blockTime (entriesAfter (pre ++ [i]) owner spender)

/-! ## Stores that follow the entries -/

section Ledger

variable {Ω : Type} {env : Env} {st st' : Store Ω} {owner spender : Address} {denom : Denom}
  {b : Entries} {x : ℤ}

/-- The authorization of an entry, for the one denom of the token. -/
def Entry.authorization (denom : Denom) (e : Entry) : SendAuthorization where
  spendLimit := [{ denom := denom, amount := e.amount }]
  allowList := []
  expiration := some e.expiration

/-- The grants are those of the entries. -/
structure Keeps (denom : Denom) (b : Entries) (st : Store Ω) : Prop where
  grants : ∀ o s, st.grants o s sendMsgURL = (b o s).map fun e => (e.authorization denom).grant
  range : ∀ o s e, b o s = some e → 0 < e.amount ∧ e.amount < 2 ^ 256

variable (env denom) in
theorem Entry.expired_iff (e : Entry) :
    (e.authorization denom).Expired env ↔ e.expiration < env.blockTime := by
  unfold SendAuthorization.Expired authorization
  rw [Option.any_some, decide_eq_true_eq]

/-- The live authorizations are those of the entries. -/
theorem Keeps.live (h : Keeps denom b st) (env : Env) (o s : Address) :
    liveAuthorization env o s st =
      (liveEntry env.blockTime (b o s)).map (Entry.authorization denom) := by
  have hgrant := h.grants o s
  cases hentry : b o s with
  | none =>
    rw [hentry] at hgrant
    refine liveAuthorization_of_none (Store.getAuthorization_eq_none.mpr fun g hg => ?_)
    rw [hgrant] at hg
    cases hg
  | some e =>
    rw [hentry] at hgrant
    by_cases hexpired : e.expiration < env.blockTime
    · have hnone : liveEntry env.blockTime (some e) = none := by simp [liveEntry, hexpired]
      rw [hnone]
      refine liveAuthorization_of_none (Store.getAuthorization_eq_none.mpr fun g hg => ?_)
      rw [hgrant] at hg
      cases hg
      exact (e.expired_iff env denom).mpr hexpired
    · have hsome : liveEntry env.blockTime (some e) = some e := by
        simp [liveEntry, not_lt.mp hexpired]
      rw [hsome]
      refine liveAuthorization_eq_some.mpr ⟨hgrant, fun hex => ?_⟩
      exact hexpired ((e.expired_iff env denom).mp hex)

theorem Entry.valid {e : Entry} (h : 0 < e.amount) : (e.authorization denom).spendLimit.Valid where
  increasing := List.pairwise_singleton _ _
  positive := List.forall_mem_singleton.mpr h

theorem Keeps.validLimits (h : Keeps denom b st) : ValidLimits st := by
  intro o s a ha
  rw [h.grants] at ha
  obtain ⟨e, he, heq⟩ := Option.map_eq_some_iff.mp ha
  rw [← grant_injective heq]
  exact Entry.valid (h.range o s e he).1

theorem Keeps.sendLimit_eq (h : Keeps denom b st) (env : Env) (o s : Address) :
    sendLimit env o s st denom = worth env.blockTime (b o s) := by
  unfold sendLimit worth
  rw [h.live]
  cases liveEntry env.blockTime (b o s) with
  | none => rfl
  | some e =>
    show Coins.amountOf [{ denom := denom, amount := e.amount }] denom = e.amount
    simp [Coins.amountOf]

theorem worth_lt {t : ℤ} {e : Option Entry} (h : ∀ e₁, e = some e₁ → e₁.amount < 2 ^ 256) :
    worth t e < 2 ^ 256 := by
  unfold worth
  cases hlive : liveEntry t e with
  | none => decide
  | some e₁ => exact h e₁ (Option.eq_some_of_filter_eq_some hlive)

theorem worth_some {t : ℤ} {e : Entry} (h : t ≤ e.expiration) : worth t (some e) = e.amount := by
  unfold worth liveEntry
  rw [Option.filter_some, if_pos (decide_eq_true h)]
  rfl

/-- What is set is what there is. -/
theorem worth_setEntry (t : ℤ) (e : Option Entry) (x : ℤ) : worth t (setEntry t e x) = x := by
  unfold setEntry
  cases hlive : liveEntry t e with
  | none =>
    dsimp only
    by_cases hx : x = 0
    · rw [if_pos hx, worth, hlive, hx]
      rfl
    · rw [if_neg hx]
      refine worth_some ?_
      show t ≤ t + defaultExpirationDuration
      unfold defaultExpirationDuration
      omega
  | some live =>
    have hlater := (Option.filter_eq_some_iff.mp hlive).2
    dsimp only
    by_cases hx : x = 0
    · rw [if_pos hx, hx]
      rfl
    · rw [if_neg hx]
      exact worth_some (e := { live with amount := x }) (of_decide_eq_true hlater)

theorem Entry.setLimit_authorization (e : Entry) (x : ℤ) :
    (e.authorization denom).setLimit denom x =
      if x = 0 then none else some (Entry.authorization denom { e with amount := x }) := by
  by_cases hx : x = 0
  · subst hx
    unfold setLimit
    rw [Coins.setAmount_zero, if_pos rfl, if_pos]
    simp [KeyedList.drop, authorization]
  · rw [if_neg hx]
    unfold setLimit
    rw [Coins.setAmount_of_ne hx, if_neg KeyedList.put_ne_nil]
    simp [KeyedList.put, authorization]

theorem setLimit_fresh (hx : x ≠ 0) :
    (fresh env).setLimit denom x =
      some (Entry.authorization denom ⟨x, env.blockTime + defaultExpirationDuration⟩) := by
  unfold setLimit
  rw [Coins.setAmount_of_ne hx, if_neg KeyedList.put_ne_nil]
  rfl

theorem Keeps.grant_set (h : Keeps denom b st)
    (hsets : SetsLimit env owner spender denom x st st') :
    st'.grants owner spender sendMsgURL =
      (setEntry env.blockTime (b owner spender) x).map fun e =>
        (e.authorization denom).grant := by
  have hlive := h.live env owner spender
  unfold setEntry
  cases hentry : liveEntry env.blockTime (b owner spender) with
  | none =>
    rw [hentry] at hlive
    cases hsets with
    | unchanged _ hzero hgrants => rw [if_pos hzero, hgrants, h.grants]
    | set hmade hgrants =>
      have hbase : baseAuthorization env owner spender st = .fresh env := by
        unfold baseAuthorization
        rw [hlive]
        rfl
      rw [if_neg (hmade hlive), hgrants, Store.setGrant_self, hbase, setLimit_fresh (hmade hlive)]
      rfl
  | some e =>
    rw [hentry] at hlive
    cases hsets with
    | unchanged hnone _ _ =>
      rw [hnone] at hlive
      cases hlive
    | set _ hgrants =>
      have hbase : baseAuthorization env owner spender st = e.authorization denom := by
        unfold baseAuthorization
        rw [hlive]
        rfl
      rw [hgrants, Store.setGrant_self, hbase, Entry.setLimit_authorization]
      split
      · rfl
      · rfl

theorem setEntry_range {t : ℤ} {e : Option Entry} {e' : Entry}
    (he : ∀ e₁, e = some e₁ → 0 < e₁.amount ∧ e₁.amount < 2 ^ 256) (hx : 0 ≤ x)
    (hlt : x < 2 ^ 256) (h : setEntry t e x = some e') : 0 < e'.amount ∧ e'.amount < 2 ^ 256 := by
  unfold setEntry at h
  split at h
  · split at h
    · cases h
    · rename_i hne
      cases h
      exact ⟨lt_of_le_of_ne hx (Ne.symm hne), hlt⟩
  · split at h
    · exact he e' h
    · rename_i hne
      cases h
      exact ⟨lt_of_le_of_ne hx (Ne.symm hne), hlt⟩

theorem Keeps.set (h : Keeps denom b st) (hsets : SetsLimit env owner spender denom x st st')
    (hx : 0 ≤ x) (hlt : x < 2 ^ 256) :
    Keeps denom (setPair b owner spender (setEntry env.blockTime (b owner spender) x)) st' where
  grants := by
    intro o s
    unfold setPair
    by_cases hpair : o = owner ∧ s = spender
    · rw [if_pos hpair, hpair.1, hpair.2]
      exact h.grant_set hsets
    · rw [if_neg hpair, hsets.grants_other fun heq => hpair ⟨heq.1, heq.2.1⟩]
      exact h.grants o s
  range := by
    intro o s e he
    unfold setPair at he
    by_cases hpair : o = owner ∧ s = spender
    · rw [if_pos hpair] at he
      exact setEntry_range (h.range owner spender) hx hlt he
    · rw [if_neg hpair] at he
      exact h.range o s e he

end Ledger

/-! ## Calls in the entries -/

section Records

variable {b : Entries} {i : Invocation} {u : AllowanceUse} {o s : Address} {x : ℤ}

theorem Invocation.record_self (hu : i.allowanceUse = some u) (hself : u.owner = u.spender) :
    i.record b = b := by
  unfold record
  rw [hu]
  exact if_pos hself

theorem setPair_self {β : Type} (table : Address → Address → β) (b : β) :
    setPair table o s b o s = b := if_pos ⟨rfl, rfl⟩

/-- A call sets the allowance it is about. -/
theorem Invocation.record_of_value (hu : i.allowanceUse = some u) (hself : u.owner ≠ u.spender)
    (hx : u.value (worth i.env.blockTime (b u.owner u.spender)) = some x) :
    i.record b =
      setPair b u.owner u.spender (setEntry i.env.blockTime (b u.owner u.spender) x) := by
  unfold record
  rw [hu]
  dsimp only
  rw [if_neg hself, hx]

/-- A call leaves the other allowances as they are. -/
theorem Invocation.record_other (hu : i.allowanceUse = some u)
    (hother : ¬ (u.owner = o ∧ u.spender = s)) : i.record b o s = b o s := by
  by_cases hself : u.owner = u.spender
  · rw [record_self hu hself]
  · cases hx : u.value (worth i.env.blockTime (b u.owner u.spender)) with
    | none =>
      unfold record
      rw [hu]
      dsimp only
      rw [if_neg hself, hx]
    | some x =>
      rw [record_of_value hu hself hx, setPair, if_neg]
      rintro ⟨rfl, rfl⟩
      exact hother ⟨rfl, rfl⟩

/-- There is a last call of a kind, or there is none. -/
theorem lastOf_or_none (kind : Invocation → Prop) (calls : List Invocation) :
    (∀ i ∈ calls, ¬ kind i) ∨ ∃ pre i, LastOf kind calls pre i := by
  induction calls with
  | nil => exact .inl (by simp)
  | cons j calls ih =>
    rcases ih with hnone | ⟨pre, i, hi, post, rfl, hpost⟩
    · by_cases hj : kind j
      · exact .inr ⟨[], j, hj, calls, rfl, hnone⟩
      · exact .inl (List.forall_mem_cons.mpr ⟨hj, hnone⟩)
    · exact .inr ⟨j :: pre, i, hi, post, rfl, hpost⟩

theorem LastOf.mem {kind : Invocation → Prop} {calls pre : List Invocation}
    (h : LastOf kind calls pre i) : i ∈ calls := by
  obtain ⟨-, post, rfl, -⟩ := h
  simp

/-- The last call of a kind, for two kinds of the same calls. -/
theorem LastOf.congr {kind kind' : Invocation → Prop} {calls pre : List Invocation}
    (h : LastOf kind calls pre i) (hiff : ∀ j ∈ calls, (kind' j ↔ kind j)) :
    LastOf kind' calls pre i := by
  obtain ⟨hi, post, rfl, hpost⟩ := h
  refine ⟨(hiff i (by simp)).mpr hi, post, rfl, fun j hj hkind => hpost j hj ?_⟩
  exact (hiff j (by simp [hj])).mp hkind

end Records

/-! ## Logs that follow the entries -/

section Logs

variable {Ω : Type} {env : Env} {pair : TokenPair} {keccak : Bytes → Hash}
  {owner spender o s : Address} {x : ℤ}

variable (keccak o s) in
/-- The amount of an `Approval` log of an owner and a spender. -/
def approvalOf (log : EmittedLog) : Option ℤ :=
  if log.2.1 = [keccak (ascii "Approval(address,address,uint256)".toList), makeTopic o,
    makeTopic s] then some (beNat log.2.2) else none

variable (keccak o s) in
/-- The amount of the last `Approval` of a pair, or else `before`. -/
def replayFrom (before : ℤ) (logs : List EmittedLog) : ℤ :=
  logs.foldl (fun amount log => (approvalOf keccak o s log).getD amount) before

theorem makeTopic_inj {a b : Address} : makeTopic a = makeTopic b ↔ a = b := by
  refine ⟨fun h => ?_, fun h => by rw [h]⟩
  have htrunc := congrArg (BitVec.setWidth 160) h
  simpa [makeTopic] using htrunc

theorem beNat_packUint256 (hx : 0 ≤ x) (hlt : x < 2 ^ 256) :
    (beNat (TokenAbi.packUint256 x) : ℤ) = x := by
  unfold TokenAbi.packUint256
  rw [beNat_beBytes, Int.emod_eq_of_lt hx hlt]
  have hnat : x.toNat < 256 ^ 32 := by
    have hpow : (256 : ℕ) ^ 32 = 2 ^ 256 := by norm_num
    rw [hpow]
    omega
  rw [Nat.mod_eq_of_lt hnat, Int.toNat_of_nonneg hx]

theorem approvalOf_approvalEvent (hkeccak : env.keccak256 = keccak) (hx : 0 ≤ x)
    (hlt : x < 2 ^ 256) :
    approvalOf keccak o s (approvalEvent env pair owner spender x) =
      if o = owner ∧ s = spender then some x else none := by
  unfold approvalOf approvalEvent eventLog
  rw [hkeccak, beNat_packUint256 hx hlt]
  simp only [List.cons.injEq, true_and, and_true, makeTopic_inj, eq_comm]

theorem approvalOf_transferEvent (hkeccak : env.keccak256 = keccak)
    (hsig : keccak (ascii "Transfer(address,address,uint256)".toList) ≠
      keccak (ascii "Approval(address,address,uint256)".toList)) :
    approvalOf keccak o s (transferEvent env pair owner spender x) = none := by
  unfold approvalOf transferEvent eventLog
  rw [hkeccak]
  refine if_neg fun h => ?_
  exact hsig (List.cons.inj h).1

theorem prevAllowance_eq {st : Store Ω} :
    prevAllowance env pair spender owner st = sendLimit env owner spender st pair.denom := by
  unfold prevAllowance sendLimit
  cases hlive : liveAuthorization env owner spender st with
  | none =>
    split
    · rename_i a limit hok
      rw [(getAuthzExpirationAndAllowance_ok.mp hok).1] at hlive
      cases hlive
    · rfl
  | some a =>
    rw [getAuthzExpirationAndAllowance_ok.mpr ⟨hlive, rfl⟩]
    rfl

end Logs

section Runs

variable {Ω : Type} {st st' : Store Ω} {pair : TokenPair} {keccak : Bytes → Hash}
  {cosmos : Cosmos Ω} {abi : Abi Ω Call.name} {b : Entries} {i : Invocation}

/-- The logs of a call that succeeds. -/
def Invocation.logs (i : Invocation) (st : Store Ω) : List EmittedLog :=
  emittedLogs i.env i.pair i.call i.frame st

variable (cosmos abi) in
/-- The calls with their logs. -/
def loggedRun : List Invocation → KeeperM Ω (List EmittedLog)
  | [] => pure []
  | i :: calls => do
    let st ← get
    i.exec cosmos abi
    let logs ← loggedRun calls
    return i.logs st ++ logs

/-- A call of a method of a token, with an unsigned amount. -/
structure Invocation.OnToken (i : Invocation) (keccak : Bytes → Hash) (pair : TokenPair) :
    Prop where
  pair_eq : i.pair = pair
  keccak_eq : i.env.keccak256 = keccak
  use : ∃ u, i.allowanceUse = some u
  amount_nonneg : 0 ≤ i.amount
  amount_lt : i.amount < 2 ^ 256

variable (i st) in
/-- The logs of a call end with its `Approval`, and have no other. -/
def Invocation.Reports (x : ℤ) : Prop :=
  i.logs st = [approvalEvent i.env i.pair i.reported.1 i.reported.2 x] ∨
    ∃ src dst y, i.logs st = [transferEvent i.env i.pair src dst y,
      approvalEvent i.env i.pair i.reported.1 i.reported.2 x]

variable {calls : List Invocation} {logs : List EmittedLog} {o s : Address}
  (hsig : keccak (ascii "Transfer(address,address,uint256)".toList) ≠
    keccak (ascii "Approval(address,address,uint256)".toList))

include hsig in
theorem Invocation.Reports.replay {x before : ℤ} (hlogs : i.Reports st x)
    (hi : i.OnToken keccak pair) (hx : 0 ≤ x) (hlt : x < 2 ^ 256) :
    replayFrom keccak o s before (i.logs st) =
      if o = i.reported.1 ∧ s = i.reported.2 then x else before := by
  have happroval : (approvalOf keccak o s
      (approvalEvent i.env i.pair i.reported.1 i.reported.2 x)).getD before =
        if o = i.reported.1 ∧ s = i.reported.2 then x else before := by
    rw [approvalOf_approvalEvent hi.keccak_eq hx hlt]
    split
    · rfl
    · rfl
  rcases hlogs with hlogs | ⟨src, dst, y, hlogs⟩
  · rw [hlogs]
    exact happroval
  · rw [hlogs]
    unfold replayFrom
    rw [List.foldl_cons, approvalOf_transferEvent hi.keccak_eq hsig]
    exact happroval

/-- The logs of a call report the value it sets. -/
theorem Invocation.reports_value {u : AllowanceUse} {x : ℤ} (hu : i.allowanceUse = some u)
    (hother : u.owner ≠ u.spender)
    (hx : u.value (sendLimit i.env u.owner u.spender st i.pair.denom) = some x) :
    i.Reports st x := by
  obtain ⟨env, pair, frame, call⟩ := i
  unfold Reports logs
  cases call with
  | approve spender y =>
    cases hu
    cases hx
    exact .inl rfl
  | increaseAllowance spender y =>
    cases hu
    dsimp only at hx
    split at hx
    · cases hx
      left
      dsimp only [emittedLogs]
      rw [prevAllowance_eq]
      rfl
    · cases hx
  | decreaseAllowance spender y =>
    cases hu
    dsimp only at hx
    split at hx
    · cases hx
      left
      have hnew : (if y < sendLimit env frame.caller spender st pair.denom then
          sendLimit env frame.caller spender st pair.denom - y else 0) =
            sendLimit env frame.caller spender st pair.denom - y := by
        split
        · rfl
        · omega
      dsimp only [emittedLogs]
      rw [prevAllowance_eq, hnew]
      rfl
    · cases hx
  | transferFrom src dst y =>
    cases hu
    dsimp only at hx hother
    split at hx
    · cases hx
      right
      refine ⟨src, dst, y, ?_⟩
      dsimp only [emittedLogs]
      rw [if_neg hother.symm, prevAllowance_eq]
      rfl
    · cases hx
  | _ => cases hu

theorem Invocation.value_lt {u : AllowanceUse} {x old : ℤ} (hi : i.OnToken keccak pair)
    (hu : i.allowanceUse = some u) (hold : old < 2 ^ 256) (hx : u.value old = some x) :
    x < 2 ^ 256 := by
  have hnonneg := hi.amount_nonneg
  have hlt := hi.amount_lt
  obtain ⟨env, pair, frame, call⟩ := i
  cases call with
  | approve spender y =>
    cases hu
    cases hx
    exact hlt
  | increaseAllowance spender y =>
    cases hu
    dsimp only at hx
    split at hx
    · cases hx
      assumption
    · cases hx
  | transfer dst y => cases hu
  | query name => cases hu
  | unknown name => cases hu
  | _ =>
    cases hu
    dsimp only [amount] at hx hnonneg
    split at hx
    · cases hx
      omega
    · cases hx

/-- A call for oneself changes no allowance. -/
theorem Invocation.exec_self {u : AllowanceUse} (hu : i.allowanceUse = some u)
    (hself : u.owner = u.spender) (h : (i.exec cosmos abi).run st = .ok () st') :
    st'.grants = st.grants ∧ i.Reports st Authorization.maxUint256 ∧
      i.reported.1 = i.reported.2 := by
  obtain ⟨r, hrun⟩ := discard_ok.mp h
  obtain ⟨env, pair, frame, call⟩ := i
  cases call with
  | transferFrom src dst y =>
    cases hu
    refine ⟨?_, .inr ⟨src, dst, y, ?_⟩, hself⟩
    · obtain ⟨_, st₁, hamount, h₁⟩ := bind_ok.mp hrun
      obtain ⟨-, rfl⟩ := Bank.validateAmount_ok hamount
      obtain ⟨_, st₂, hsend, h₂⟩ := bind_ok.mp h₁
      have hst : st' = st₂ := by
        split at h₂
        · cases h₂
          rfl
        · cases h₂
          rfl
      subst hst
      unfold sendCoin at hsend
      rw [if_pos hself.symm] at hsend
      exact send_grants (mapError_ok.mp hsend)
    · unfold logs
      dsimp only [emittedLogs]
      rw [if_pos hself.symm]
      rfl
  | transfer dst y => cases hu
  | query name => cases hu
  | unknown name => cases hu
  | _ =>
    cases hu
    exact absurd hself.symm (KeeperM.ensure_bind_ok.mp hrun).1

include hsig in
/-- **One call**: the store follows the entries, the log has the amount. -/
theorem Keeps.step (h : Keeps pair.denom b st) (hi : i.OnToken keccak pair)
    (haccept : SubtractsSpent cosmos) (hrun : (i.exec cosmos abi).run st = .ok () st') :
    Keeps pair.denom (i.record b) st' ∧ ∀ u, i.allowanceUse = some u → ∀ o s, o ≠ s →
      ∀ before, replayFrom keccak o s before (i.logs st) =
        if o = i.reported.1 ∧ s = i.reported.2 then
          worth i.env.blockTime (i.record b u.owner u.spender)
        else before := by
  obtain ⟨u, hu⟩ := hi.use
  have hpair := hi.pair_eq
  by_cases hself : u.owner = u.spender
  · rw [Invocation.record_self hu hself]
    obtain ⟨hgrants, hreports, hpair'⟩ := Invocation.exec_self hu hself hrun
    refine ⟨⟨fun o s => by rw [hgrants]; exact h.grants o s, h.range⟩,
      fun u' hu' o s hne before => ?_⟩
    have hnot : ¬ (o = i.reported.1 ∧ s = i.reported.2) := by
      rintro ⟨ho, hs⟩
      exact hne (ho.trans (hpair'.trans hs.symm))
    rw [hreports.replay hsig hi (by decide) (by decide), if_neg hnot, if_neg hnot]
  · have huses : i.Uses u := ⟨hu, hself, hi.amount_nonneg, hi.amount_lt⟩
    obtain ⟨x, hx, hnonneg, hsets⟩ := huses.sets haccept h.validLimits hrun
    rw [hpair] at hsets
    have hworth : sendLimit i.env u.owner u.spender st i.pair.denom =
        worth i.env.blockTime (b u.owner u.spender) := by
      rw [hpair]
      exact h.sendLimit_eq i.env u.owner u.spender
    have hold : worth i.env.blockTime (b u.owner u.spender) < 2 ^ 256 :=
      worth_lt fun e he => (h.range _ _ e he).2
    have hreports := Invocation.reports_value hu hself hx
    rw [hworth] at hx
    have hlt := Invocation.value_lt hi hu hold hx
    rw [Invocation.record_of_value hu hself hx]
    refine ⟨h.set hsets hnonneg hlt, fun u' hu' o s _ before => ?_⟩
    cases hu.symm.trans hu'
    rw [hreports.replay hsig hi hnonneg hlt, setPair_self, worth_setEntry]

variable (keccak) in
/-- The replay of some logs: the last call that reports a pair decides it. -/
structure Replays (b : Entries) (calls : List Invocation)
    (logs : List EmittedLog) (o s : Address) : Prop where
  unreported : (∀ j ∈ calls, ¬ (o = j.reported.1 ∧ s = j.reported.2)) →
    ∀ before, replayFrom keccak o s before logs = before
  reported : ∀ pre i, LastOf (fun j => o = j.reported.1 ∧ s = j.reported.2) calls pre i →
    ∀ u, i.allowanceUse = some u → ∀ before, replayFrom keccak o s before logs =
      worth i.env.blockTime ((pre ++ [i]).foldl Invocation.record b u.owner u.spender)

include hsig in
/-- **A run**: the store and the logs follow the entries. -/
theorem Keeps.run (h : Keeps pair.denom b st) (hcalls : ∀ i ∈ calls, i.OnToken keccak pair)
    (haccept : SubtractsSpent cosmos)
    (hrun : (loggedRun cosmos abi calls).run st = .ok logs st') :
    Keeps pair.denom (calls.foldl Invocation.record b) st' ∧
      ∀ o s, o ≠ s → Replays keccak b calls logs o s := by
  induction calls generalizing b st logs with
  | nil =>
    cases hrun
    refine ⟨h, fun o s _ => ⟨fun _ _ => rfl, ?_⟩⟩
    rintro pre i ⟨-, post, hsplit, -⟩
    simp at hsplit
  | cons j calls ih =>
    obtain ⟨hj, hrest⟩ := List.forall_mem_cons.mp hcalls
    unfold loggedRun at hrun
    rw [run_get_bind] at hrun
    obtain ⟨_, st₁, hexec, h₁⟩ := bind_ok.mp hrun
    obtain ⟨more, st₂, hmore, hreturn⟩ := bind_ok.mp h₁
    cases hreturn
    obtain ⟨hkeeps, hstep⟩ := h.step hsig hj haccept hexec
    obtain ⟨hkeeps', hreplays⟩ := ih hkeeps hrest hmore
    refine ⟨hkeeps', fun o s hne => ?_⟩
    obtain ⟨w, hw⟩ := hj.use
    have happend (before : ℤ) : replayFrom keccak o s before (j.logs st ++ more) =
        replayFrom keccak o s (replayFrom keccak o s before (j.logs st)) more := List.foldl_append
    constructor
    · intro hnone before
      obtain ⟨hfirst, hlater⟩ := List.forall_mem_cons.mp hnone
      rw [happend, (hreplays o s hne).unreported hlater, hstep w hw o s hne, if_neg hfirst]
    · rintro pre i ⟨hkind, post, hsplit, hpost⟩ u hu before
      rw [happend]
      cases pre with
      | nil =>
        cases hsplit
        rw [(hreplays o s hne).unreported hpost, hstep u hu o s hne, if_pos hkind]
        rfl
      | cons k pre =>
        cases hsplit
        exact (hreplays o s hne).reported pre i ⟨hkind, post, rfl, hpost⟩ u hu _

theorem Invocation.Approves.use (h : i.Approves s) :
    ∃ u, i.allowanceUse = some u ∧ u.owner = i.frame.caller ∧ u.spender = s := by
  obtain ⟨amount, hcall⟩ := h
  unfold Invocation.allowanceUse
  rcases hcall with hcall | hcall | hcall <;> rw [hcall] <;> exact ⟨_, rfl, rfl, rfl⟩

theorem Invocation.TransfersFrom.use (h : i.TransfersFrom o s) :
    ∃ u, i.allowanceUse = some u ∧ u.owner = o ∧ u.spender = s := by
  obtain ⟨rfl, dst, amount, hcall⟩ := h
  unfold Invocation.allowanceUse
  rw [hcall]
  exact ⟨_, rfl, rfl, rfl⟩

/-- What is transferred is positive. -/
theorem Invocation.TransfersFrom.amount_pos (h : i.TransfersFrom o s)
    (hrun : (i.exec cosmos abi).run st = .ok () st') : 0 < i.amount := by
  obtain ⟨r, hrun⟩ := discard_ok.mp hrun
  obtain ⟨env, pair, frame, call⟩ := i
  obtain ⟨-, dst, amount, rfl⟩ := h
  obtain ⟨_, st₁, hamount, -⟩ := bind_ok.mp hrun
  exact (Bank.validateAmount_ok hamount).1

include hsig in
/-- **The precompile has given no allowance.** -/
theorem loggedRun_precompile (h : Keeps pair.denom b st)
    (hcalls : ∀ i ∈ calls, i.OnToken keccak pair) (haccept : SubtractsSpent cosmos)
    (hcaller : ∀ i ∈ calls, i.frame.caller ≠ pair.erc20Address)
    (hrun : (loggedRun cosmos abi calls).run st = .ok logs st')
    (hnone : b pair.erc20Address s = none) :
    calls.foldl Invocation.record b pair.erc20Address s = none ∧
      ∀ i ∈ calls, ¬ i.TransfersFrom pair.erc20Address s := by
  induction calls generalizing b st logs with
  | nil => exact ⟨hnone, by simp⟩
  | cons i calls ih =>
    obtain ⟨hi, hrest⟩ := List.forall_mem_cons.mp hcalls
    obtain ⟨hfirst, hcaller⟩ := List.forall_mem_cons.mp hcaller
    unfold loggedRun at hrun
    rw [run_get_bind] at hrun
    obtain ⟨_, st₁, hexec, h₁⟩ := bind_ok.mp hrun
    obtain ⟨more, st₂, hmore, hreturn⟩ := bind_ok.mp h₁
    cases hreturn
    have hkeeps := (h.step hsig hi haccept hexec).1
    have hnot : ¬ i.TransfersFrom pair.erc20Address s := by
      intro htransfer
      have hpos := htransfer.amount_pos hexec
      obtain ⟨u, hu⟩ := hi.use
      obtain ⟨rfl, dst, amount, hcall⟩ := htransfer
      have huse : i.Uses u := by
        refine ⟨hu, ?_, hi.amount_nonneg, hi.amount_lt⟩
        unfold Invocation.allowanceUse at hu
        rw [hcall] at hu
        cases hu
        exact hfirst.symm
      obtain ⟨x, hx, -, -⟩ := huse.sets haccept h.validLimits hexec
      unfold Invocation.allowanceUse at hu
      rw [hcall] at hu
      cases hu
      dsimp only at hx
      rw [hi.pair_eq, h.sendLimit_eq, hnone] at hx
      unfold Invocation.amount at hpos
      rw [hcall] at hpos
      rw [if_neg (show ¬ amount ≤ worth _ none from not_le.mpr hpos)] at hx
      cases hx
    have hkept : i.record b pair.erc20Address s = none := by
      obtain ⟨u, hu⟩ := hi.use
      rw [Invocation.record_other hu, hnone]
      -- such an allowance would be of a call of the precompile or of a transfer from it
      rintro ⟨howner, hspender⟩
      unfold Invocation.allowanceUse at hu
      cases hcall : i.call <;> rw [hcall] at hu <;> cases hu
      case transferFrom src dst amount =>
        subst howner
        exact hnot ⟨hspender, dst, amount, hcall⟩
      all_goals exact hfirst howner
    obtain ⟨hend, hlater⟩ := ih hkeeps hrest hcaller hmore hkept
    exact ⟨hend, List.forall_mem_cons.mpr ⟨hnot, hlater⟩⟩

/-- The calls that report under an owner and a spender. -/
theorem Invocation.OnToken.reported_iff (hi : i.OnToken keccak pair) :
    o = i.reported.1 ∧ s = i.reported.2 ↔
      i.TransfersFrom o s ∨ o = pair.erc20Address ∧ i.Approves s := by
  obtain ⟨u, hu⟩ := hi.use
  unfold Invocation.TransfersFrom Invocation.Approves Invocation.reported
  unfold Invocation.allowanceUse at hu
  rw [hi.pair_eq]
  cases hcall : i.call with
  | transferFrom src dst amount =>
    simp only [Call.transferFrom.injEq, exists_and_left, exists_eq', and_true, reduceCtorEq,
      or_self, exists_const, and_false, or_false]
    rw [and_comm, eq_comm, @eq_comm _ o]
  | approve spender amount => simp [eq_comm]
  | increaseAllowance spender amount => simp [eq_comm]
  | decreaseAllowance spender amount => simp [eq_comm]
  | _ =>
    rw [hcall] at hu
    cases hu

/-- The precompile's replay is zero just if the last approval revokes. -/
theorem Replays.under_precompile
    (h : Replays keccak (fun _ _ => none) calls logs pair.erc20Address s)
    (hcalls : ∀ i ∈ calls, i.OnToken keccak pair)
    (hnone : ∀ i ∈ calls, ¬ i.TransfersFrom pair.erc20Address s) :
    replayFrom keccak pair.erc20Address s 0 logs = 0 ↔ Revoked calls s := by
  have hkind (j : Invocation) (hj : j ∈ calls) :
      pair.erc20Address = j.reported.1 ∧ s = j.reported.2 ↔ j.Approves s := by
    rw [(hcalls j hj).reported_iff, or_iff_right (hnone j hj), and_iff_right rfl]
  have hreplay {pre : List Invocation} {i : Invocation} (hi : LastOf (·.Approves s) calls pre i) :
      replayFrom keccak pair.erc20Address s 0 logs =
        worth i.env.blockTime (entriesAfter (pre ++ [i]) i.frame.caller s) := by
    obtain ⟨u, hu, howner, hspender⟩ := hi.1.use
    rw [h.reported pre i (hi.congr hkind) u hu, howner, hspender]
    rfl
  rcases lastOf_or_none (·.Approves s) calls with hno | ⟨pre, i, hi⟩
  · refine iff_of_true (h.unreported (fun j hj hreported => ?_) 0) fun pre i hi => ?_
    · exact hno j hj ((hkind j hj).mp hreported)
    · exact absurd hi.1 (hno i hi.mem)
  · refine ⟨fun hzero pre' i' hi' => ?_, fun hrevoked => ?_⟩
    · rw [← hreplay hi', hzero]
    · rw [hreplay hi]
      exact hrevoked pre i hi

/-- The owner's replay is the allowance just if it is settled. -/
theorem Replays.of_transfers {t : ℤ} (h : Replays keccak (fun _ _ => none) calls logs o s)
    (hcalls : ∀ i ∈ calls, i.OnToken keccak pair) (howner : o ≠ pair.erc20Address) :
    replayFrom keccak o s 0 logs = worth t (entriesAfter calls o s) ↔ Settled calls t o s := by
  have hkind (j : Invocation) (hj : j ∈ calls) :
      o = j.reported.1 ∧ s = j.reported.2 ↔ j.TransfersFrom o s := by
    rw [(hcalls j hj).reported_iff]
    exact or_iff_left fun hself => howner hself.1
  have hreplay {pre : List Invocation} {i : Invocation}
      (hi : LastOf (·.TransfersFrom o s) calls pre i) : replayFrom keccak o s 0 logs =
        worth i.env.blockTime (entriesAfter (pre ++ [i]) o s) := by
    obtain ⟨u, hu, huo, hus⟩ := hi.1.use
    rw [h.reported pre i (hi.congr hkind) u hu, huo, hus]
    rfl
  rcases lastOf_or_none (·.TransfersFrom o s) calls with hno | ⟨pre, i, hi⟩
  · rw [h.unreported fun j hj hreported => hno j hj ((hkind j hj).mp hreported)]
    refine ⟨fun hzero => ⟨fun _ => hzero.symm, fun pre i hi => ?_⟩, fun hs => (hs.1 hno).symm⟩
    exact absurd hi.1 (hno i hi.mem)
  · refine ⟨fun hequal => ⟨fun hno => ?_, fun pre' i' hi' => ?_⟩, fun hsettled => ?_⟩
    · exact absurd hi.1 (hno i hi.mem)
    · rw [← hequal, hreplay hi']
    · rw [hreplay hi, hsettled.2 pre i hi]

/-- **Replaying the approvals** gives every allowance if and only if the last approval of each
spender revokes it, and what a spender has of an owner is what its last transfer left. -/
theorem approvalLogs_replay_iff {keccak : Bytes → Hash}
    (hsig : keccak (ascii "Transfer(address,address,uint256)".toList) ≠
      keccak (ascii "Approval(address,address,uint256)".toList))
    {cosmos : Cosmos Ω} (abi : Abi Ω Call.name) (haccept : SubtractsSpent cosmos)
    {pair : TokenPair} {calls : List Invocation} (hcalls : ∀ i ∈ calls, i.OnToken keccak pair)
    (hcaller : ∀ i ∈ calls, i.frame.caller ≠ pair.erc20Address)
    (hnone : ∀ o s, st.grants o s sendMsgURL = none)
    {logs : List EmittedLog}
    (hrun : (loggedRun cosmos abi calls).run st = .ok logs st') (env : Env) :
    (∀ owner spender, owner ≠ spender →
      replayFrom keccak owner spender 0 logs = allowance env pair owner spender st') ↔
    (∀ spender, spender ≠ pair.erc20Address → Revoked calls spender) ∧
      ∀ owner spender, owner ≠ spender → owner ≠ pair.erc20Address →
        Settled calls env.blockTime owner spender := by
  have hempty : Keeps pair.denom (fun _ _ => none) st := by
    refine ⟨fun o s => ?_, fun o s e he => ?_⟩
    · rw [hnone]
      rfl
    · cases he
  obtain ⟨hkeeps, hreplays⟩ := hempty.run hsig hcalls haccept hrun
  have hallowance {o s : Address} (hne : o ≠ s) :
      allowance env pair o s st' = worth env.blockTime (entriesAfter calls o s) := by
    rw [allowance_eq pair hne]
    exact hkeeps.sendLimit_eq env o s
  have hprecompile (s : Address) :=
    loggedRun_precompile hsig hempty hcalls haccept hcaller hrun (s := s) rfl
  have hunder {s : Address} (hne : s ≠ pair.erc20Address) :=
    (hreplays _ s hne.symm).under_precompile hcalls fun j hj => (hprecompile s).2 j hj
  have htransfers {o s : Address} (hne : o ≠ s) (howner : o ≠ pair.erc20Address) :=
    (hreplays o s hne).of_transfers hcalls howner (t := env.blockTime)
  constructor
  · intro h
    refine ⟨fun spender hne => ?_, fun owner spender hne howner => ?_⟩
    · rw [← hunder hne, h _ _ hne.symm, hallowance hne.symm]
      exact congrArg (worth env.blockTime) (hprecompile spender).1
    · rw [← htransfers hne howner, h owner spender hne, hallowance hne]
  · rintro ⟨hrevoked, hsettled⟩ owner spender hne
    rw [hallowance hne]
    by_cases howner : owner = pair.erc20Address
    · subst howner
      rw [(hunder hne.symm).mpr (hrevoked spender hne.symm)]
      exact (congrArg (worth env.blockTime) (hprecompile spender).1).symm
    · exact (htransfers hne howner).mpr (hsettled owner spender hne howner)

end Runs

/-! ## A token of the small chain -/

namespace Devnet

theorem signatures_ne :
    Devnet.keccak256 (ascii "Transfer(address,address,uint256)".toList) ≠
      Devnet.keccak256 (ascii "Approval(address,address,uint256)".toList) := by
  decide +kernel

/-- An allowance of four coins is used up, and reset once more. -/
def settled : List Invocation :=
  [invocation 0xA1 (.approve 0xB2 4), invocation 0xB2 (.transferFrom 0xA1 0xD3 4),
    invocation 0xA1 (.approve 0xB2 0)]

theorem settled_onToken : ∀ i ∈ settled, i.OnToken Devnet.keccak256 pair := by
  intro i hi
  simp only [settled, List.mem_cons, List.not_mem_nil, or_false] at hi
  rcases hi with rfl | rfl | rfl
  all_goals exact ⟨rfl, rfl, ⟨_, rfl⟩, by decide, by decide⟩

theorem settled_entries (o s : Address) : entriesAfter settled o s = none := by
  have hentries : ∃ e, entriesAfter settled =
      setPair (setPair (setPair (fun _ _ => none) 0xA1 0xB2 (some e)) 0xA1 0xB2 none)
        0xA1 0xB2 none := ⟨_, rfl⟩
  obtain ⟨e, hentries⟩ := hentries
  rw [hentries]
  unfold setPair
  split_ifs <;> rfl

theorem settled_revoked (s : Address) : Revoked settled s := by
  rintro pre i ⟨⟨amount, hi⟩, post, hsplit, hpost⟩
  have hlength := congrArg List.length hsplit
  rcases pre with _ | ⟨a, _ | ⟨b, _ | ⟨c, pre⟩⟩⟩
  rotate_right
  · simp [settled] at hlength
  all_goals cases hsplit
  · -- the first approval is not the last of its spender
    refine absurd ?_ (hpost (invocation 0xA1 (.approve 0xB2 0)) (by simp))
    rcases hi with hi | hi | hi <;> cases hi
    exact ⟨0, .inl rfl⟩
  · rcases hi with hi | hi | hi <;> cases hi
  · exact congrArg (worth 0) (settled_entries 0xA1 s)

theorem settled_settled (o s : Address) : Settled settled 0 o s := by
  refine ⟨fun _ => congrArg (worth 0) (settled_entries o s), ?_⟩
  rintro pre i ⟨⟨hcaller, dst, amount, hi⟩, post, hsplit, hpost⟩
  rw [settled_entries]
  have hlength := congrArg List.length hsplit
  rcases pre with _ | ⟨a, _ | ⟨b, _ | ⟨c, pre⟩⟩⟩
  rotate_right
  · simp [settled] at hlength
  all_goals cases hsplit
  · cases hi
  · cases hi
    cases hcaller
    decide
  · cases hi

end Devnet

/-- The logs of an allowance that was used up replay to it. -/
theorem approvalLogs_replay_settled : ∃ (logs : List EmittedLog)
    (st' : Store Devnet.Delegations),
    (loggedRun Devnet.cosmos (Devnet.abi Call.name []) Devnet.settled).run
        Devnet.stakingStore = .ok logs st' ∧
      ∀ owner spender, owner ≠ spender →
        replayFrom Devnet.keccak256 owner spender 0 logs =
          allowance Devnet.env18 Devnet.pair owner spender st' := by
  obtain ⟨logs, st', hrun, -⟩ := Devnet.exists_of_okWith
    (r := (loggedRun Devnet.cosmos (Devnet.abi Call.name []) Devnet.settled).run
      Devnet.stakingStore)
    (p := fun _ _ => True) (by decide +kernel)
  refine ⟨logs, st', hrun, ?_⟩
  exact (approvalLogs_replay_iff Devnet.signatures_ne _ Devnet.subtractsSpent
    Devnet.settled_onToken (by decide) (fun o s => rfl) hrun
      Devnet.env18).mpr
        ⟨fun s _ => Devnet.settled_revoked s, fun o s _ _ => Devnet.settled_settled o s⟩

/-- **One approval** is reported of the precompile, not of the owner. -/
theorem approvalLogs_approve : ∃ (logs : List EmittedLog)
    (st' : Store Devnet.Delegations),
    (loggedRun Devnet.cosmos (Devnet.abi Call.name [])
        [Devnet.invocation 0xA1 (.approve 0xB2 10)]).run Devnet.stakingStore = .ok logs st' ∧
      replayFrom Devnet.keccak256 0xA1 0xB2 0 logs = 0 ∧
      allowance Devnet.env18 Devnet.pair 0xA1 0xB2 st' = 10 ∧
      replayFrom Devnet.keccak256 Devnet.pair.erc20Address 0xB2 0 logs = 10 ∧
      allowance Devnet.env18 Devnet.pair Devnet.pair.erc20Address 0xB2
        st' = 0 := Devnet.exists_of_okWith (by decide +kernel)

end TacEvm.Erc20
