import TacEvm.Analysis.AbsentFields
import TacEvm.Analysis.EscrowBacking
import TacEvm.Model.MsgServer

/-!
# The check for approvals

Both conversions ask every log of the transfer for its first topic, which a log of `LOG0` does not
have. They panic exactly if such a log comes before an approval.
-/

namespace TacEvm.Erc20Keeper

open FallibleState

section Logs

variable (chain : Chain)

def approvalSignature : Hash :=
  chain.env.keccak256 (ascii "Approval(address,address,uint256)".toList)

/-- The first topic is the signature of approvals. -/
def IsApproval (log : Log) : Prop := log.topics.head? = some (approvalSignature chain)

/-- A log without topics, with no approval before it. -/
def ReachesBareLog (logs : List Log) : Prop :=
  ∃ checked log rest, logs = checked ++ log :: rest ∧ log.topics = [] ∧
    ∀ l ∈ checked, ¬ IsApproval chain l

def unexpectedApproval : Err := errUnexpectedEvent.wrapf "unexpected Approval event" []

def indexOutOfRange : Err := .panic "runtime error: index out of range [0] with length 0"

variable {chain} {log : Log} {logs : List Log}

theorem isApproval_iff_text :
    (newLogFromEth chain.env log).topics.head? = some (hashHex (approvalSignature chain)) ↔
      IsApproval chain log := by
  unfold IsApproval newLogFromEth
  rw [List.head?_map]
  constructor
  · intro h
    obtain ⟨topic, htopic, htext⟩ := Option.map_eq_some_iff.mp h
    rw [htopic, Function.LeftInverse.injective hexToHash_hashHex htext]
  · intro h
    rw [h]
    rfl

theorem reachesBareLog_cons : ReachesBareLog chain (log :: logs) ↔
    log.topics = [] ∨ (¬ IsApproval chain log ∧ ReachesBareLog chain logs) := by
  constructor
  · rintro ⟨checked, bare, rest, hsplit, hbare, hchecked⟩
    cases checked with
    | nil =>
      cases hsplit
      exact .inl hbare
    | cons first checked =>
      cases hsplit
      obtain ⟨hfirst, hothers⟩ := List.forall_mem_cons.mp hchecked
      exact .inr ⟨hfirst, checked, bare, rest, rfl, hbare, hothers⟩
  · rintro (hbare | ⟨hlog, checked, bare, rest, rfl, hbare, hchecked⟩)
    · exact ⟨[], log, logs, rfl, hbare, List.forall_mem_nil _⟩
    · exact ⟨log :: checked, bare, rest, rfl, hbare, List.forall_mem_cons.mpr ⟨hlog, hchecked⟩⟩

theorem monitorApprovalLog_bare (h : log.topics = []) :
    monitorApprovalLog chain log = .error indexOutOfRange := by
  unfold monitorApprovalLog
  rw [h]
  rfl

theorem monitorApprovalLog_approval (h : IsApproval chain log) :
    monitorApprovalLog chain log = .error unexpectedApproval := by
  obtain ⟨others, htopics⟩ := List.head?_eq_some_iff.mp h
  unfold monitorApprovalLog
  rw [htopics]
  exact if_pos rfl

theorem monitorApprovalLog_other (hbare : log.topics ≠ []) (h : ¬ IsApproval chain log) :
    monitorApprovalLog chain log = .ok () := by
  obtain ⟨topic, others, htopics⟩ := List.exists_cons_of_ne_nil hbare
  unfold IsApproval at h
  unfold monitorApprovalLog
  rw [htopics] at h ⊢
  exact if_neg fun htopic => h (congrArg some htopic)

variable (chain logs) in
/-- The three ends of the monitoring. -/
theorem monitorLogs_outcome :
    (ReachesBareLog chain logs ∧ logs.forM (monitorApprovalLog chain) = .error indexOutOfRange) ∨
    (¬ ReachesBareLog chain logs ∧ (∃ log ∈ logs, IsApproval chain log) ∧
      logs.forM (monitorApprovalLog chain) = .error unexpectedApproval) ∨
    (¬ ReachesBareLog chain logs ∧ (¬ ∃ log ∈ logs, IsApproval chain log) ∧
      logs.forM (monitorApprovalLog chain) = .ok ()) := by
  induction logs with
  | nil =>
    refine .inr (.inr ⟨?_, ?_, rfl⟩)
    · rintro ⟨checked, bare, rest, hsplit, -, -⟩
      simp at hsplit
    · rintro ⟨log, hmem, -⟩
      cases hmem
  | cons log logs ih =>
    have hforM : (log :: logs).forM (monitorApprovalLog chain) =
        monitorApprovalLog chain log >>= fun _ => logs.forM (monitorApprovalLog chain) := rfl
    rw [hforM, reachesBareLog_cons, List.exists_mem_cons_iff]
    by_cases hbare : log.topics = []
    · rw [monitorApprovalLog_bare hbare]
      exact .inl ⟨.inl hbare, rfl⟩
    by_cases happroval : IsApproval chain log
    · rw [monitorApprovalLog_approval happroval]
      refine .inr (.inl ⟨?_, .inl happroval, rfl⟩)
      rintro (hnone | ⟨hno, -⟩)
      · exact hbare hnone
      · exact hno happroval
    · -- the check goes on with the other logs
      rw [monitorApprovalLog_other hbare happroval, or_iff_right hbare, and_iff_right happroval,
        or_iff_right happroval]
      exact ih

end Logs

/-- Code that does not end with a panic. -/
def Survives {α : Type} (x : ContextM Erc20Store α) (ctx : Context Erc20Store) : Prop :=
  ∀ err ctx', x.run ctx = .error err ctx' → err.IsValue

section Survival

variable {chain : Chain} {res : MsgEthereumTxResponse}

/-- The check fails for an approval and for nothing else. -/
structure Monitors (chain : Chain) (res : MsgEthereumTxResponse) : Prop where
  answers : Answers (monitorApprovalEvent chain res)
  reports : (∃ err, monitorApprovalEvent chain res = .error err) ↔
    ∃ log ∈ res.logs.map (newLogFromEth chain.env),
      log.topics.head? = some (hashHex (approvalSignature chain))

theorem not_isValue_indexOutOfRange : ¬ indexOutOfRange.IsValue := fun h => h _ rfl

theorem isValue_unexpectedApproval : unexpectedApproval.IsValue :=
  (Err.isValue_errorf _ _).wrapf _ _

theorem answers_monitor_iff :
    Answers (monitorApprovalEvent chain res) ↔ ¬ ReachesBareLog chain res.logs := by
  unfold monitorApprovalEvent
  rcases monitorLogs_outcome chain res.logs with ⟨hbare, hrun⟩ | ⟨hbare, -, hrun⟩ | ⟨hbare, -, hrun⟩
  · rw [hrun]
    exact ⟨fun h => absurd (h _ rfl) not_isValue_indexOutOfRange, fun h => absurd hbare h⟩
  · rw [hrun]
    exact ⟨fun _ => hbare, fun _ => .error isValue_unexpectedApproval⟩
  · rw [hrun]
    exact ⟨fun _ => hbare, fun _ => .ok ()⟩

theorem reports_of_answers (h : ¬ ReachesBareLog chain res.logs) :
    (∃ err, monitorApprovalEvent chain res = .error err) ↔
      ∃ log ∈ res.logs, IsApproval chain log := by
  unfold monitorApprovalEvent
  rcases monitorLogs_outcome chain res.logs with ⟨hbare, -⟩ | ⟨-, hsome, hrun⟩ | ⟨-, hnone, hrun⟩
  · exact absurd hbare h
  · rw [hrun]
    exact ⟨fun _ => hsome, fun _ => ⟨_, rfl⟩⟩
  · rw [hrun]
    refine ⟨?_, fun hsome => absurd hsome hnone⟩
    rintro ⟨err, herr⟩
    cases herr

/-- A conversion survives just if the monitor answers. -/
theorem survives_iff_answers {x : ContextM Erc20Store MsgEthereumTxResponse}
    {ctx ctx₁ : Context Erc20Store} (hx : x.run ctx = .ok res ctx₁)
    {finish : Unit → ContextM Erc20Store Unit}
    (hfinish : ∀ ctx, ∃ ctx', (finish ()).run ctx = .ok () ctx') :
    Survives (x >>= fun res => fromExcept (monitorApprovalEvent chain res) >>= finish) ctx ↔
      Answers (monitorApprovalEvent chain res) := by
  unfold Survives
  rw [bind_run_of_ok hx]
  cases hcheck : monitorApprovalEvent chain res with
  | ok done =>
    obtain ⟨ctx', hend⟩ := hfinish ctx₁
    refine ⟨fun _ => .ok done, fun _ err ctx'' herr => ?_⟩
    have hrun : (fromExcept (.ok done) >>= finish : ContextM Erc20Store Unit).run ctx₁ =
        .ok () ctx' := hend
    rw [hrun] at herr
    cases herr
  | error err =>
    have hrun : (fromExcept (.error err) >>= finish : ContextM Erc20Store Unit).run ctx₁ =
        .error err ctx₁ := rfl
    rw [hrun]
    refine ⟨fun h => .error (h err ctx₁ rfl), fun h err' ctx' herr => ?_⟩
    cases herr
    exact h err rfl

end Survival

/-- **The check for approvals**, and the conversions, are right if and only if no log without topics
comes before an approval. -/
theorem monitorApprovalEvent_iff (chain : Chain) (res : MsgEthereumTxResponse) :
    (Monitors chain res ↔ ¬ ReachesBareLog chain res.logs) ∧
    ∀ (evm : Evm Erc20Store) (cfg : ConversionConfig) (pair : TokenPair) (receiver sender : Address)
      (ctx ctx₁ : Context Erc20Store),
      (∀ msg, (escrowTokens chain evm cfg pair msg receiver sender).run ctx = .ok res ctx₁ →
        (Survives (convertERC20IntoCoinsForNativeToken chain evm cfg pair msg receiver sender) ctx ↔
          ¬ ReachesBareLog chain res.logs)) ∧
      (∀ amount, 0 < amount →
        (unescrowTokens chain evm cfg pair amount receiver sender).run ctx = .ok res ctx₁ →
        (Survives (convertCoinNativeERC20 chain evm cfg pair amount receiver sender) ctx ↔
          ¬ ReachesBareLog chain res.logs)) := by
  refine ⟨⟨fun h => answers_monitor_iff.mp h.answers, fun h => ⟨answers_monitor_iff.mpr h, ?_⟩⟩, ?_⟩
  · rw [reports_of_answers h]
    simp only [List.mem_map, exists_exists_and_eq_and, isApproval_iff_text]
  intro evm cfg pair receiver sender ctx ctx₁
  constructor
  · intro msg htransfer
    rw [← answers_monitor_iff]
    exact survives_iff_answers htransfer fun ctx => ⟨_, rfl⟩
  · intro amount hpos htransfer
    have hfinish (ctx : Context Erc20Store) :
        ∃ ctx', (pure () : ContextM Erc20Store Unit).run ctx = .ok () ctx' := ⟨ctx, rfl⟩
    rw [← answers_monitor_iff, ← survives_iff_answers htransfer hfinish]
    unfold convertCoinNativeERC20
    rw [if_neg (not_not.mpr hpos)]
    simp only [bind_pure]

/-! ## A token with a bare log -/

namespace Devnet

/-- The token, with a log without topics for every transfer. -/
def bareLogEvm : Evm Erc20Store where
  create := nativeEvm.create
  call := fun msg gas db =>
    let outcome := nativeEvm.call msg gas db
    if msg.data.take 4 = TokenAbi.transferSelector then
      { outcome with
        actions := outcome.actions ++ [.op (.write (.addLog nativePair.getERC20Contract [] []))] }
    else outcome

/-- Seven tokens of the account `0xA1` are to become coins. -/
def conversion : MsgConvertERC20 where
  contractAddress := address
  amount := 7
  receiver := ""
  sender := ascii "0x00000000000000000000000000000000000000a1".toList

/-- The state in which they are coins. -/
def converted : Context Erc20Store :=
  Operation.apply tokenChain nativeEvm conversionConfig nativePair (Devnet.ctx tokenStore)
    (.convertERC20 conversion)

end Devnet

open Erc20Keeper.Devnet

/-- The error that code ends with. -/
def failure {α : Type} (x : ContextM Erc20Store α) (ctx : Context Erc20Store) : Option Err :=
  match x.run ctx with
  | .ok _ _ => none
  | .error err _ => some err

/-- **A transfer with a log of `LOG0`**: without it both conversions succeed. -/
theorem convertERC20_bareLog :
    failure (convertERC20 tokenChain bareLogEvm conversionConfig
      conversion) (Devnet.ctx tokenStore) = some indexOutOfRange ∧
    failure (convertERC20 tokenChain nativeEvm conversionConfig
      conversion) (Devnet.ctx tokenStore) = none ∧
    failure (convertCoinNativeERC20 tokenChain bareLogEvm conversionConfig
      nativePair 3 0xA1 0xA1) converted = some indexOutOfRange ∧
    failure (convertCoinNativeERC20 tokenChain nativeEvm conversionConfig
      nativePair 3 0xA1 0xA1) converted = none := by
  decide +kernel

end TacEvm.Erc20Keeper
