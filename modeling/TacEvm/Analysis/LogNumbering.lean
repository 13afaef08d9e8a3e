import TacEvm.Analysis.CallFrames
import TacEvm.Analysis.TransitionSpec
import TacEvm.Model.Devnet

/-!
# Logs and transactions of a block are numbered in order

`Stamped` says that the logs of a `StateDB` carry the numbers they were given; reverts only drop
logs at the end. `blockCalls_numbered` follows the stamps through all calls of a block.
-/

namespace TacEvm

open FallibleState StateDB

variable {Ω : Type} {env : Env}

/-! ## What leaves the logs alone -/

structure SameLogs (s s' : StateDB Ω) : Prop where
  logs : s'.logs = s.logs
  txConfig : s'.txConfig = s.txConfig

namespace SameLogs

theorem refl (s : StateDB Ω) : SameLogs s s := ⟨rfl, rfl⟩

variable {s : StateDB Ω}

variable {s' : StateDB Ω}

theorem trans {s'' : StateDB Ω} (h : SameLogs s s') (h' : SameLogs s' s'') : SameLogs s s'' :=
  ⟨h'.logs.trans h.logs, h'.txConfig.trans h.txConfig⟩

theorem plainSteps (h : PlainSteps env s s') : SameLogs s s' := by
  induction h with
  | refl => exact refl s
  | tail _ hstep ih =>
    cases hstep with
    | value h => cases h <;> exact ih.trans ⟨rfl, rfl⟩
    | _ => exact ih.trans ⟨rfl, rfl⟩

theorem createAccount (s : StateDB Ω) (a : Address) : SameLogs s (s.createAccount env a) := by
  unfold StateDB.createAccount StateDB.createObject
  rw [StateDB.getStateObject_eq]
  cases s.object env a with
  | none => exact ⟨rfl, rfl⟩
  | some o => exact ⟨rfl, rfl⟩

theorem setNonce (s : StateDB Ω) (a : Address) (nonce : UInt64) :
    SameLogs s (s.setNonce env a nonce) := by
  have hnew := plainSteps (s.getOrNew_value env a).1.plain
  exact hnew.trans ⟨rfl, rfl⟩

theorem suicide (s : StateDB Ω) (a : Address) : SameLogs s (s.suicide env a).2 := by
  unfold StateDB.suicide
  rw [StateDB.getStateObject_eq]
  cases s.object env a with
  | none => exact refl s
  | some o => exact ⟨rfl, rfl⟩

end SameLogs

/-- The logs for the transaction `tx` carry their numbers. -/
structure Stamped (tx : TxConfig) (s : StateDB Ω) : Prop where
  txConfig : s.txConfig = tx
  index : s.logs.map Log.index = List.range' tx.logIndex s.logs.length
  txIndex : ∀ log ∈ s.logs, log.txIndex = tx.txIndex

variable {tx : TxConfig}

namespace Stamped

theorem new (ctx : Context Ω) (tx : TxConfig) : Stamped tx (StateDB.new ctx tx) :=
  ⟨rfl, rfl, by simp [StateDB.new]⟩

variable {s s' : StateDB Ω}

variable (h : Stamped tx s)
include h

theorem sameLogs (hsame : SameLogs s s') : Stamped tx s' := by
  refine ⟨hsame.txConfig.trans h.txConfig, ?_, ?_⟩
  · rw [hsame.logs]
    exact h.index
  · rw [hsame.logs]
    exact h.txIndex

theorem addLog (address : Address) (topics : List Hash) (data : Bytes) :
    Stamped tx (s.addLog address topics data) := by
  refine ⟨h.txConfig, ?_, ?_⟩
  · show (s.logs ++ [_]).map Log.index = List.range' tx.logIndex (s.logs ++ [_]).length
    rw [List.map_append, h.index, List.length_append, List.length_singleton,
      List.range'_concat, h.txConfig]
    simp
  · intro log hlog
    rcases List.mem_append.mp hlog with hold | hnew
    · exact h.txIndex log hold
    · rw [List.mem_singleton.mp hnew]
      exact congrArg TxConfig.txIndex h.txConfig

theorem addLogs (logs : List EmittedLog) :
    Stamped tx (logs.foldl (fun s log => s.addLog log.1 log.2.1 log.2.2) s) := by
  induction logs generalizing s with
  | nil => exact h
  | cons log logs ih => exact ih (h.addLog log.1 log.2.1 log.2.2)

theorem dropLast (hlogs : s'.logs = s.logs.dropLast) (hconfig : s'.txConfig = s.txConfig) :
    Stamped tx s' := by
  refine ⟨hconfig.trans h.txConfig, ?_, ?_⟩
  · rw [hlogs, List.map_dropLast, h.index, List.length_dropLast]
    cases s.logs.length with
    | zero => rfl
    | succ n =>
      rw [List.range'_concat, List.dropLast_concat]
      rfl
  · intro log hlog
    rw [hlogs] at hlog
    exact h.txIndex log (List.mem_of_mem_dropLast hlog)

theorem revert {entry : JournalEntry Ω} (hrevert : entry.revert env s = some s') :
    Stamped tx s' := by
  cases JournalEntry.undone hrevert with
  | log => exact h.dropLast rfl rfl
  | _ => exact h.sameLogs ⟨rfl, rfl⟩

theorem revertToSnapshot {revid : ℕ} (hrevert : s.revertToSnapshot env revid = some s') :
    Stamped tx s' := by
  obtain ⟨idx, r, s₁, -, -, hroll, rfl⟩ := revertToSnapshot_cases hrevert
  have hback : Stamped tx s₁ := by
    refine @Rollback.rollback_invariant _ _ _ (fun s _ => Stamped tx s) ?_ [] _ _ _ h hroll
    intro _ entry s₂ s₃ hs₂ hundo
    obtain ⟨s₄, hentry, rfl⟩ := Option.map_eq_some_iff.mp hundo
    exact (hs₂.revert hentry).sameLogs ⟨rfl, rfl⟩
  exact hback.sameLogs ⟨rfl, rfl⟩

theorem op {o : Op} (hstep : o.step env s = some s') : Stamped tx s' := by
  refine Op.invariant (Stamped tx) (fun _ _ hsteps h => h.sameLogs (.plainSteps hsteps)) ?_
    (fun h => h.sameLogs ⟨rfl, rfl⟩) (fun _ _ _ hback h => h.revertToSnapshot hback) h hstep
  intro w _ hplain hwrite
  cases w with
  | addLog address topics data =>
    cases hwrite
    exact h.addLog address topics data
  | createAccount addr =>
    cases hwrite
    exact h.sameLogs (.createAccount s addr)
  | setNonce addr nonce =>
    cases hwrite
    exact h.sameLogs (.setNonce s addr nonce)
  | suicide addr =>
    cases hwrite
    exact h.sameLogs (.suicide s addr)
  | _ => cases hplain

theorem callPrecompile {c : PrecompileCall Ω} {err : Option Err}
    (hcall : s.callPrecompile env c = some (err, s')) : Stamped tx s' := by
  have hvalue : ∀ s₁ s₂ : StateDB Ω, ValueSteps env s₁ s₂ → Stamped tx s₁ → Stamped tx s₂ :=
    fun _ _ hsteps h => h.sameLogs (.plainSteps hsteps.plain)
  have hcan := hvalue _ _ (s.canTransfer_value env c) h
  have hentered : Stamped tx (s.entered env c) :=
    hvalue _ _ (enterCall_value env _ c) (hcan.sameLogs ⟨rfl, rfl⟩)
  have hflushed : Stamped tx ((s.entered env c).flush env).2 := by
    obtain ⟨st, hflush⟩ := (s.entered env c).flush_eq env
    rw [hflush]
    exact hentered.sameLogs ⟨rfl, rfl⟩
  have hbody : Stamped tx ((s.entered env c).runBody env c.precompile c.frame).2 := by
    refine runBody_invariant (Stamped tx) hentered hflushed fun handler _ => ?_
    apply addLogs
    exact hflushed.sameLogs ⟨rfl, rfl⟩
  exact callPrecompile_invariant (Stamped tx) hcan hbody hvalue
    (fun _ h => h.sameLogs ⟨rfl, rfl⟩) (fun _ _ _ hback h => h.revertToSnapshot hback) hcall

/-- **The logs of a run are stamped.** -/
theorem run {as : List (Action Ω)} (hrun : s.run env as = some s') : Stamped tx s' := by
  refine run_invariant (Stamped tx) (fun a _ s s' hstep h => ?_) h hrun
  cases a with
  | op o => exact h.op hstep
  | call c =>
    obtain ⟨⟨err, s₂⟩, hcall, rfl⟩ := Option.map_eq_some_iff.mp hstep
    exact h.callPrecompile hcall

end Stamped

variable {chain : Chain} {evm : Evm Ω}

theorem execute_stamped {msg : Message} {gas : UInt64} {s db : StateDB Ω} {outcome : Outcome Ω}
    (hs : Stamped tx s) (h : execute chain evm msg gas s = some (db, outcome)) :
    Stamped tx db := by
  obtain ⟨s₁, hprepare, hrest⟩ := execute_cases h
  have hs₁ := hs.run hprepare
  rcases hrest with ⟨-, s₂, -, hrun, rfl⟩ | ⟨-, -, hrun⟩
  · exact ((hs₁.sameLogs (.setNonce s₁ _ _)).run hrun).sameLogs (.setNonce s₂ _ _)
  · exact hs₁.run hrun

variable {s : ChainState Ω}

variable {txData : TxData} {res : MsgEthereumTxResponse} {s' : ChainState Ω}

theorem Applied.stamps {sender : Address} {tmpCtx : Context Ω}
    (h : Applied chain evm txData sender res tmpCtx s s') :
    res.logs.map Log.index = List.range' s.transient.logSize res.logs.length ∧
      ∀ log ∈ res.logs, log.txIndex = s.transient.txIndex := by
  obtain ⟨db, outcome, hexecuted⟩ := h.message
  obtain ⟨_, -, hrun⟩ := hexecuted.run
  have hstamped := execute_stamped (Stamped.new _ _) hrun
  rw [hexecuted.logs]
  exact ⟨hstamped.index, hstamped.txIndex⟩

theorem foldl_lor {α : Type} (g : α → ℕ) (l : List α) (a b : ℕ) :
    l.foldl (fun bin x => bin ||| g x) (a ||| b) = a ||| l.foldl (fun bin x => bin ||| g x) b := by
  induction l generalizing b with
  | nil => rfl
  | cons x l ih => rw [List.foldl_cons, List.foldl_cons, Nat.or_assoc, ih]

/-- The union of the blooms of some logs. -/
def bloomUnion (env : Env) (logs : List Log) : ℕ :=
  logs.foldl (fun bin log => bin ||| log.bloom env) 0

theorem bloomUnion_append (env : Env) (logs logs' : List Log) :
    bloomUnion env (logs ++ logs') = bloomUnion env logs ||| bloomUnion env logs' := by
  unfold bloomUnion
  rw [List.foldl_append, ← foldl_lor, Nat.or_zero]

theorem logsBloom_eq (env : Env) (logs : List Log) : logsBloom env logs = bloomUnion env logs := by
  unfold logsBloom bloomUnion
  congr 1
  funext bin log
  exact foldl_lor (fun topic => bloomValues env (hashBytes topic)) log.topics bin _

/-- The states of a block after calls of `ApplyTransaction`; one with an error is discarded. -/
inductive BlockCalls (chain : Chain) (evm : Evm Ω) :
    List MsgEthereumTxResponse → ChainState Ω → Prop
  | start {s : ChainState Ω} (hbloom : s.transient.bloom = 0) (htx : s.transient.txIndex = 0)
      (hlog : s.transient.logSize = 0) : BlockCalls chain evm [] s
  | applied {rs : List MsgEthereumTxResponse} {s s' : ChainState Ω} {txData : TxData}
      {res : MsgEthereumTxResponse} (run : BlockCalls chain evm rs s)
      (h : (applyTransaction chain evm txData).run s = .ok res s') :
      BlockCalls chain evm (rs ++ [res]) s'
  | failed {rs : List MsgEthereumTxResponse} {s s' : ChainState Ω} {txData : TxData} {e : Err}
      (run : BlockCalls chain evm rs s)
      (h : (applyTransaction chain evm txData).run s = .error e s') : BlockCalls chain evm rs s
  | other {rs : List MsgEthereumTxResponse} {s s' : ChainState Ω}
      (run : BlockCalls chain evm rs s) (hbloom : s'.transient.bloom = s.transient.bloom)
      (htx : s'.transient.txIndex = s.transient.txIndex)
      (hlog : s'.transient.logSize = s.transient.logSize) : BlockCalls chain evm rs s'

/-- The logs that a block returned. -/
def blockLogs (rs : List MsgEthereumTxResponse) : List Log := rs.flatMap fun res => res.logs

/-- The numbering of a block. -/
structure NumberedBlock (chain : Chain) (rs : List MsgEthereumTxResponse) (s : ChainState Ω) :
    Prop where
  index : (blockLogs rs).map Log.index = List.range (blockLogs rs).length
  txIndex : ∀ (i : ℕ) (res : MsgEthereumTxResponse), rs[i]? = some res →
    ∀ log ∈ res.logs, log.txIndex = i
  bloom : s.transient.bloom = bloomUnion chain.env (blockLogs rs)

structure CountedBlock (chain : Chain) (rs : List MsgEthereumTxResponse) (s : ChainState Ω) : Prop
    extends NumberedBlock chain rs s where
  txCount : s.transient.txIndex = rs.length
  logCount : s.transient.logSize = (blockLogs rs).length

variable {rs : List MsgEthereumTxResponse}

/-- One more transaction is counted in the block. -/
theorem CountedBlock.applied (h : CountedBlock chain rs s)
    (hrun : (applyTransaction chain evm txData).run s = .ok res s') :
    CountedBlock chain (rs ++ [res]) s' := by
  obtain ⟨sender, tmpCtx, happlied⟩ := applyTransaction_ok hrun
  obtain ⟨hindex, htxIndex⟩ := happlied.stamps
  have hlogs : blockLogs (rs ++ [res]) = blockLogs rs ++ res.logs := by
    simp [blockLogs]
  rw [h.logCount] at hindex
  rw [h.txCount] at htxIndex
  have hcounted := happlied.counted
  refine ⟨⟨?_, ?_, ?_⟩, ?_, ?_⟩
  · rw [hlogs, List.map_append, h.index, hindex, List.length_append, List.range_eq_range',
      List.range_eq_range', ← List.range'_append_1, Nat.zero_add]
  · intro i res' hres'
    rcases Nat.lt_trichotomy i rs.length with hlt | rfl | hgt
    · rw [List.getElem?_append_left hlt] at hres'
      exact h.txIndex i res' hres'
    · rw [List.getElem?_concat_length] at hres'
      cases hres'
      exact htxIndex
    · rw [List.getElem?_eq_none (by simp; omega)] at hres'
      cases hres'
  · rw [hlogs, bloomUnion_append, ← h.bloom, ← logsBloom_eq, hcounted]
    show (if res.logs = [] then _ else _) = _
    split
    · rename_i hnone
      rw [hnone]
      exact (Nat.or_zero _).symm
    · rfl
  · rw [hcounted, List.length_append, List.length_singleton, ← h.txCount]
    rfl
  · rw [hcounted, hlogs, List.length_append, ← h.logCount]
    show (if res.logs = [] then _ else _) = _
    split
    · rename_i hnone
      rw [hnone]
      rfl
    · rfl

theorem BlockCalls.counted (h : BlockCalls chain evm rs s) : CountedBlock chain rs s := by
  induction h with
  | start hbloom htx hlog =>
    exact ⟨⟨rfl, by simp, hbloom⟩, htx, hlog⟩
  | applied run h ih => exact ih.applied h
  | failed run h ih => exact ih
  | other run hbloom htx hlog ih =>
    exact ⟨⟨ih.index, ih.txIndex, hbloom.trans ih.bloom⟩, htx.trans ih.txCount,
      hlog.trans ih.logCount⟩

/-- **The logs of a block are numbered in order** over all calls without an error; each has the
number of calls before its own. -/
theorem blockCalls_numbered {rs : List MsgEthereumTxResponse} {s : ChainState Ω}
    (h : BlockCalls chain evm rs s) : NumberedBlock chain rs s :=
  h.counted.toNumberedBlock

/-- Two transactions with a log each, and one that fails. -/
theorem blockCalls_numbered_devnet :
    ∃ (rs : List MsgEthereumTxResponse) (s : ChainState Unit),
      (blockLogs rs).length = 2 ∧ NumberedBlock Devnet.chain18 rs s := by
  obtain ⟨⟨res₁, res₂⟩, s, hrun, htwo⟩ := Devnet.exists_of_okWith
    (p := fun (rs : MsgEthereumTxResponse × MsgEthereumTxResponse) (_ : ChainState Unit) =>
      (blockLogs [rs.1, rs.2]).length = 2)
    (r := (do
      let res₁ ← applyTransaction Devnet.chain18 Devnet.loggingEvm (Devnet.legacyTx 0 21000 [1])
      let res₂ ← applyTransaction Devnet.chain18 Devnet.loggingEvm (Devnet.legacyTx 1 21000 [1])
      return (res₁, res₂)).run (Devnet.chainState 0))
    (by decide +kernel)
  obtain ⟨_, s₁, hfirst, hrest⟩ := bind_ok.mp hrun
  obtain ⟨_, s₂, hsecond, hreturn⟩ := bind_ok.mp hrest
  cases hreturn
  -- a gas limit below the intrinsic gas
  have hfails : ∃ e s', (applyTransaction Devnet.chain18 Devnet.loggingEvm
      (Devnet.legacyTx 1 7 [1])).run s₁ = .error e s' := ⟨_, _, rfl⟩
  obtain ⟨e, s', hfails⟩ := hfails
  exact ⟨[res₁, res₂], s, htwo,
    blockCalls_numbered (.applied (.failed (.applied (.start rfl rfl rfl) hfirst) hfails) hsecond)⟩

end TacEvm
