import TacEvm.Model.GasEstimate

/-!
# Tracing transactions

`TraceTx` executes the messages before a transaction and traces that one, `TraceBlock` traces all of
a block. A tracer does not change what is executed; what it traces is kept in its place.

SOURCE: x/vm/keeper/grpc_query.go:443-693
-/

namespace TacEvm

variable (chain : Chain) {Ω : Type} (evm : Evm Ω) (baseFee : Option ℤ)

/-- The state a transaction is executed on, and its configuration. -/
structure Traced (Ω : Type) where
  ctx : Context Ω
  txConfig : TxConfig
  baseFee : Option ℤ

/-- The index of the next log, and the context that is left.
grpc_query.go:605-693 -/
def traceTx (ctx : Context Ω) (txConfig : TxConfig) (tx : TxData) (commitMessage : Bool) :
    Except Err ℕ × Context Ω :=
  match chain.sender tx with
  | .error e => (.error (statusError "Internal" e), ctx)
  | .ok sender =>
    match (applyMessageWithConfig chain evm (tx.asMessage sender baseFee) commitMessage
      txConfig).run ctx with
    | .error e ctx => (.error (statusError "Internal" e), ctx)
    | .ok res ctx => (.ok (txConfig.logIndex + res.logs.length), ctx)

/-- The loop over the predecessors, from an index on.
grpc_query.go:489-507 -/
def runPredecessors (ctx : Context Ω) (txConfig : TxConfig) (i : ℕ) :
    List TxData → Context Ω × TxConfig
  | [] => (ctx, txConfig)
  | tx :: txs =>
    match chain.sender tx with
    | .error _ => runPredecessors ctx txConfig (i + 1) txs
    | .ok sender =>
      let txConfig := { txConfig with txHash := chain.txHash tx, txIndex := i }
      match (applyMessageWithConfig chain evm (tx.asMessage sender baseFee) true txConfig).run
        ctx with
      | .error _ ctx => runPredecessors ctx txConfig (i + 1) txs
      | .ok rsp ctx =>
        runPredecessors ctx { txConfig with logIndex := txConfig.logIndex + rsp.logs.length }
          (i + 1) txs

/-- `TraceTx`: what the message is traced with.
grpc_query.go:478-525 -/
def traceAfter (ctx : Context Ω) (calculated : Option ℤ) (predecessors : List TxData)
    (tx : TxData) : Traced Ω :=
  let baseFee := calculated.or chain.getBaseFee
  let (ctx, txConfig) := runPredecessors chain evm baseFee ctx (emptyTxConfig chain) 0 predecessors
  { ctx := ctx
    txConfig := { txConfig with
      txHash := chain.txHash tx
      txIndex := if predecessors = [] then txConfig.txIndex else txConfig.txIndex + 1 }
    baseFee := baseFee }

/-- The loop of `TraceBlock`, from an index on. grpc_query.go:575-592 -/
def traceTxs (ctx : Context Ω) (txConfig : TxConfig) (i : ℕ) : List TxData → List (Traced Ω)
  | [] => []
  | tx :: txs =>
    let txConfig := { txConfig with txHash := chain.txHash tx, txIndex := i }
    let (result, ctx') := traceTx chain evm baseFee ctx txConfig tx true
    let next := match result with
      | .error _ => txConfig
      | .ok logIndex => { txConfig with logIndex := logIndex }
    { ctx := ctx, txConfig := txConfig, baseFee := baseFee } :: traceTxs ctx' next (i + 1) txs

/-- grpc_query.go:563-592 -/
def traceBlock (ctx : Context Ω) (calculated : Option ℤ) (txs : List TxData) : List (Traced Ω) :=
  traceTxs chain evm (calculated.or chain.getBaseFee) ctx (emptyTxConfig chain) 0 txs

end TacEvm
