import TacEvm.Analysis.GasEstimation

/-!
# Estimations with absent fields

The bound by the funds of the sender follows `from` without a look, if the message has a fee cap.
That is the only place where a nil pointer of the arguments is followed.
-/

namespace TacEvm

open Devnet

/-- A result or an error value, and not a panic. -/
def Answers {α : Type} (r : Except Err α) : Prop := ∀ err, r = .error err → err.IsValue

namespace Answers

variable {α β : Type}

/-- A result is an answer. -/
theorem ok (a : α) : Answers (.ok a : Except Err α) := by
  intro err h
  cases h

/-- So is an error value. -/
theorem error {err : Err} (h : err.IsValue) : Answers (.error err : Except Err α) := by
  intro err' h'
  cases h'
  exact h

/-- Answers can be chained. -/
theorem bind {r : Except Err α} {f : α → Except Err β} (h : Answers r) (hf : ∀ a, Answers (f a)) :
    Answers (r.bind f) := by
  cases r with
  | ok a => exact hf a
  | error err => exact error (h err rfl)

end Answers

section Search

variable {executable : Executable}

/-- The search ends with a bound or with what the call returns. -/
theorem searchStep_answers (hcall : ∀ gas, Answers (executable gas)) {b : Bounds}
    {result : Except Err UInt64} (h : searchStep executable b = .inr result) : Answers result := by
  rcases searchStep_exit h with ⟨-, rfl⟩ | ⟨-, err, hrun, rfl⟩
  · exact .ok _
  · exact .error (hcall b.mid err hrun)

/-- What follows the search adds error values only. -/
theorem finishEstimation_answers (hcall : ∀ gas, Answers (executable gas)) (gasCap hi : UInt64) :
    Answers (finishEstimation executable gasCap hi) := by
  unfold finishEstimation
  split
  · split
    · rename_i err hrun
      exact .error (hcall hi err hrun)
    · exact .ok _
    · exact .error (Err.isValue_errorf _ _)
    · split
      · split
        · exact .ok _
        · exact .error (Err.isValue_errorf _ _)
      · exact .error (Err.isValue_errorf _ _)
  · exact .ok _

end Search

section Absent

/-- Both kinds of prices are given, which `ToMessage` refuses. -/
def TransactionArgs.MixesPrices (args : TransactionArgs) : Prop :=
  args.gasPrice.isSome ∧ (args.maxFeePerGas.isSome ∨ args.maxPriorityFeePerGas.isSome)

variable (chain : Chain) {Ω : Type}

/-- The request asks for the funds of an absent sender. -/
structure DereferencesSender (req : EthCallRequest) (args : TransactionArgs) : Prop where
  sender : args.sender = none
  gasCap : txGas ≤ req.gasCap
  coinbase : ∃ a, chain.coinbase = .ok a
  prices : ¬ args.MixesPrices
  feeCap : (args.messagePrices chain.getBaseFee).2.1 ≠ 0

variable {chain} {st : Store Ω} {req : EthCallRequest} {args : TransactionArgs}

/-- Unmixed prices give a message. -/
theorem toMessage_ok (globalGasCap : UInt64) (baseFee : Option ℤ) (h : ¬ args.MixesPrices) :
    ∃ msg, args.toMessage globalGasCap baseFee = .ok msg ∧
      msg.gasFeeCap = (args.messagePrices baseFee).2.1 := by
  unfold TransactionArgs.MixesPrices at h
  unfold TransactionArgs.toMessage
  rw [if_neg h]
  exact ⟨_, rfl, rfl⟩

/-- Mixed ones an error value. -/
theorem toMessage_error (globalGasCap : UInt64) (baseFee : Option ℤ) (h : args.MixesPrices) :
    ∃ err, args.toMessage globalGasCap baseFee = .error err ∧
      (statusError "Internal" err).IsValue := by
  unfold TransactionArgs.MixesPrices at h
  unfold TransactionArgs.toMessage
  rw [if_pos h]
  exact ⟨_, rfl, Err.isValue_errorf _ _⟩

/-- The bound by the funds panics for an absent sender only. -/
theorem capByFunds_answers {gasFeeCap : ℤ} {hi : UInt64}
    (h : args.sender = none → gasFeeCap = 0) :
    Answers (capByFunds chain st args gasFeeCap hi) := by
  unfold capByFunds
  split
  · exact .ok _
  rename_i hcap
  cases hsender : args.sender with
  | none => exact absurd (h hsender) hcap
  | some sender =>
    refine .bind ?_ fun available => ?_
    · unfold availableFunds
      split
      · exact .ok _
      · split
        · exact .error (Err.isValue_errorf _ _)
        · exact .ok _
    · dsimp only
      split
      · split
        · exact .error (Err.isValue_errorf _ _)
        · exact .ok _
      · exact .ok _

/-- The arguments of a request with the nonce of their sender. -/
def withNonce (st : Store Ω) (args : TransactionArgs) : TransactionArgs :=
  { args with nonce := some (st.getNonce args.getFrom) }

/-- The steps of an estimation that is not refused at once. -/
theorem prepareEstimation_eq (hargs : req.args = .ok args) (hcap : txGas ≤ req.gasCap)
    {coinbase : Address} (hcoinbase : chain.coinbase = .ok coinbase) :
    prepareEstimation chain st req =
      (((withNonce st args).toMessage req.gasCap chain.getBaseFee).mapError
        (statusError "Internal")).bind fun msg =>
          (capByFunds chain st (withNonce st args) msg.gasFeeCap (highestGas chain req args)).bind
            fun hi => .ok
              { bounds := ⟨txGas - 1, hi⟩
                gasCap := highestGas chain req args
                msg := msg
                nonce := st.getNonce args.getFrom } := by
  unfold prepareEstimation
  rw [if_neg (UInt64.not_lt.2 hcap), hargs, hcoinbase]
  rfl

/-- Outside that case the steps before the search do not panic. -/
theorem prepareEstimation_answers (hargs : req.args = .ok args)
    (h : ¬ DereferencesSender chain req args) : Answers (prepareEstimation chain st req) := by
  by_cases hcap : req.gasCap < txGas
  · unfold prepareEstimation
    rw [if_pos hcap]
    exact .error (Err.isValue_errorf _ _)
  cases hcoinbase : chain.coinbase with
  | error err =>
    unfold prepareEstimation
    rw [if_neg hcap, hargs, hcoinbase]
    exact .error (Err.isValue_errorf _ _)
  | ok coinbase =>
    rw [prepareEstimation_eq hargs (UInt64.not_lt.1 hcap) hcoinbase]
    by_cases hprices : args.MixesPrices
    · have hmixed : (withNonce st args).MixesPrices := hprices
      obtain ⟨err, herr, hvalue⟩ := toMessage_error req.gasCap chain.getBaseFee hmixed
      rw [herr]
      exact .error hvalue
    · have hplain : ¬ (withNonce st args).MixesPrices := hprices
      obtain ⟨msg, hmsg, hfee⟩ := toMessage_ok req.gasCap chain.getBaseFee hplain
      rw [hmsg]
      show Answers ((capByFunds chain st (withNonce st args) msg.gasFeeCap _).bind _)
      refine .bind (capByFunds_answers fun hsender => ?_) fun hi => .ok _
      by_contra hne
      rw [hfee] at hne
      exact h ⟨hsender, UInt64.not_lt.1 hcap, ⟨coinbase, hcoinbase⟩, hprices, hne⟩

/-- In that case they do. -/
theorem DereferencesSender.prepareEstimation_error (h : DereferencesSender chain req args)
    (hargs : req.args = .ok args) :
    prepareEstimation chain st req = .error .nilDereference := by
  obtain ⟨coinbase, hcoinbase⟩ := h.coinbase
  have hplain : ¬ (withNonce st args).MixesPrices := h.prices
  obtain ⟨msg, hmsg, hfee⟩ := toMessage_ok req.gasCap chain.getBaseFee hplain
  have hne : msg.gasFeeCap ≠ 0 := by
    rw [hfee]
    exact h.feeCap
  have hsender : (withNonce st args).sender = none := h.sender
  have hfunds : capByFunds chain st (withNonce st args) msg.gasFeeCap
      (highestGas chain req args) = .error .nilDereference := by
    unfold capByFunds
    rw [if_neg hne, hsender]
  rw [prepareEstimation_eq hargs h.gasCap hcoinbase, hmsg]
  show Except.bind (capByFunds _ _ _ _ _) _ = _
  rw [hfunds]
  rfl

/-- An estimation refused before the search returns the error. -/
theorem estimateGasInternal_of_error {evm : Evm Ω} {fuel : ℕ} {fromType : CallType}
    {ctx : Context Ω} {err : Err} (h : prepareEstimation chain ctx.store req = .error err) :
    estimateGasInternal chain evm fuel fromType ctx req = some (.error err) := by
  unfold estimateGasInternal
  rw [h]

/-- A search that returns ends in an answer, if the calls do. -/
theorem estimateGasInternal_answers {evm : Evm Ω} {fuel : ℕ} {fromType : CallType}
    {ctx : Context Ω} {e : Estimation} {result : Except Err EstimateGasResponse}
    (hprepare : prepareEstimation chain ctx.store req = .ok e)
    (hcall : ∀ gas, Answers (executable chain evm fromType ctx e gas))
    (h : estimateGasInternal chain evm fuel fromType ctx req = some result) : Answers result := by
  unfold estimateGasInternal at h
  rw [hprepare] at h
  obtain ⟨found, hsearch, rfl⟩ := Option.map_eq_some_iff.1 h
  obtain ⟨c, -, hexit⟩ := Loop.exit_of_run hsearch
  exact (searchStep_answers hcall hexit).bind (finishEstimation_answers hcall e.gasCap)

/-- An estimation returns just when its search does. -/
theorem estimateGasInternal_returns_iff {evm : Evm Ω} {fromType : CallType} {ctx : Context Ω}
    {e : Estimation} (hprepare : prepareEstimation chain ctx.store req = .ok e) :
    (∃ fuel result, estimateGasInternal chain evm fuel fromType ctx req = some result) ↔
      (2 ^ 63 < e.bounds.hi.toNat →
        ∃ k, ¬ (executable chain evm fromType ctx e).Fails (e.bounds.climb k).mid) := by
  rw [← binSearch_returns_iff (prepareEstimation_ok hprepare).lo_small]
  constructor
  · rintro ⟨fuel, result, h⟩
    unfold estimateGasInternal at h
    rw [hprepare] at h
    obtain ⟨found, hsearch, -⟩ := Option.map_eq_some_iff.1 h
    exact ⟨fuel, found, hsearch⟩
  · rintro ⟨fuel, found, hsearch⟩
    exact ⟨fuel, _, estimateGasInternal_of_search hprepare hsearch⟩

/-- **Requests with absent fields** are answered just if they do not ask for the funds of an absent
sender, and the search ends. -/
theorem estimateGas_answers_iff (chain : Chain) {Ω : Type} (evm : Evm Ω) (fromType : CallType)
    (ctx : Context Ω) (req : EthCallRequest) (args : TransactionArgs) (hargs : req.args = .ok args)
    (hcall : ∀ e, prepareEstimation chain ctx.store req = .ok e →
      ∀ gas, Answers (executable chain evm fromType ctx e gas)) :
    ((∀ fuel result, estimateGasInternal chain evm fuel fromType ctx req = some result →
        Answers result) ↔ ¬ DereferencesSender chain req args) ∧
    ((∃ fuel result, estimateGasInternal chain evm fuel fromType ctx req = some result ∧
        Answers result) ↔
      ¬ DereferencesSender chain req args ∧
        ∀ e, prepareEstimation chain ctx.store req = .ok e → 2 ^ 63 < e.bounds.hi.toNat →
          ∃ k, ¬ (executable chain evm fromType ctx e).Fails (e.bounds.climb k).mid) ∧
    (DereferencesSender chain req args → ∀ fuel,
      estimateGasInternal chain evm fuel fromType ctx req = some (.error .nilDereference)) := by
  have hnil (h : DereferencesSender chain req args) (fuel : ℕ) :
      estimateGasInternal chain evm fuel fromType ctx req = some (.error .nilDereference) :=
    estimateGasInternal_of_error (h.prepareEstimation_error hargs)
  have hpanics : ¬ Answers (.error .nilDereference : Except Err EstimateGasResponse) :=
    fun hvalue => hvalue _ rfl _ rfl
  have hvalues (hderef : ¬ DereferencesSender chain req args) (fuel : ℕ)
      (result : Except Err EstimateGasResponse)
      (h : estimateGasInternal chain evm fuel fromType ctx req = some result) :
      Answers result := by
    cases hprepare : prepareEstimation chain ctx.store req with
    | error err =>
      rw [estimateGasInternal_of_error hprepare] at h
      cases h
      exact .error (prepareEstimation_answers hargs hderef err hprepare)
    | ok e => exact estimateGasInternal_answers hprepare (hcall e hprepare) h
  refine ⟨⟨fun h hderef => hpanics (h 0 _ (hnil hderef 0)), hvalues⟩, ⟨?_, ?_⟩, hnil⟩
  · rintro ⟨fuel, result, hrun, hvalue⟩
    refine ⟨fun hderef => ?_, fun e hprepare =>
      (estimateGasInternal_returns_iff hprepare).1 ⟨fuel, result, hrun⟩⟩
    rw [hnil hderef] at hrun
    cases hrun
    exact hpanics hvalue
  · rintro ⟨hderef, hends⟩
    cases hprepare : prepareEstimation chain ctx.store req with
    | error err =>
      have hrun : estimateGasInternal chain evm 0 fromType ctx req = some (.error err) :=
        estimateGasInternal_of_error hprepare
      exact ⟨0, _, hrun, hvalues hderef 0 _ hrun⟩
    | ok e =>
      obtain ⟨fuel, result, hrun⟩ :=
        (estimateGasInternal_returns_iff hprepare).2 (hends e hprepare)
      exact ⟨fuel, result, hrun, hvalues hderef fuel result hrun⟩

end Absent

/-- A call by `0xA1` without value, data, nonce and prices. -/
theorem estimateGas_answers_devnet :
    ∃ fuel result, estimateGasInternal chain18 invalidEvm fuel .rpc
      (chainState 0).ctx (callRequest 25000000 0) = some result ∧ Answers result := by
  have hprepare : prepareEstimation chain18 (chainState 0).ctx.store
      (callRequest 25000000 0) = .ok (callEstimation 25000000 25000000 0) := rfl
  have hfails : AlwaysFails (executable chain18 invalidEvm .rpc
      (chainState 0).ctx (callEstimation 25000000 25000000 0)) := executable_invalid rfl rfl
  refine (estimateGas_answers_iff chain18 invalidEvm .rpc (chainState 0).ctx
    (callRequest 25000000 0) (callArgs 25000000 0) rfl ?_).2.1.2
    ⟨fun h => h.feeCap rfl, fun e he hhi => ?_⟩
  · intro e he gas
    cases hprepare.symm.trans he
    obtain ⟨rsp, hrun⟩ := hfails gas
    rw [hrun]
    exact .ok _
  · cases hprepare.symm.trans he
    exact absurd hhi (by decide)

/-- A call of `0xC1` by nobody. -/
def anonymousRequest (maxFeePerGas : ℕ) : EthCallRequest where
  args := .ok { callArgs 25000000 maxFeePerGas with sender := none }
  gasCap := 25000000

/-- **A fee cap without a sender** panics. -/
theorem estimateGas_absentSender :
    (∀ fuel, estimateGasInternal chain18 evm fuel .rpc (chainState 0).ctx (anonymousRequest 1) =
        some (.error .nilDereference)) ∧
      ¬ Answers (.error .nilDereference : Except Err EstimateGasResponse) :=
  ⟨fun _ => estimateGasInternal_of_error rfl, fun hvalue => hvalue _ rfl _ rfl⟩

end TacEvm
