import TacEvm.Model.RpcEvents

/-!
# Log filters of the JSON-RPC server

`Filter.Logs` goes through a range of blocks and skips those whose bloom rules a match out. A filter
of `eth_newFilter` collects logs from events until it is polled.

SOURCE: rpc/namespaces/ethereum/eth/filters (filters.go, utils.go, api.go)
-/

namespace TacEvm.Filters

/-- A log with the number of its block. -/
structure BlockLog where
  log : Log
  blockNumber : ℕ
  deriving DecidableEq

/-- Block numbers are those of the JSON-RPC, with negative tags. -/
structure FilterCriteria where
  blockHash : Option Hash
  fromBlock : Option ℤ
  toBlock : Option ℤ
  addresses : List Address
  topics : List (List Hash)

/-- The body of the loop of `FilterLogs`: whether a log is kept. -/
def FilterCriteria.keeps (c : FilterCriteria) (l : BlockLog) : Bool :=
  if c.fromBlock.any fun n => decide (0 ≤ n ∧ (l.blockNumber : ℤ) < n) then false
  else if c.toBlock.any fun n => decide (0 ≤ n ∧ n < (l.blockNumber : ℤ)) then false
  else if c.addresses ≠ [] ∧ l.log.address ∉ c.addresses then false
  else if l.log.topics.length < c.topics.length then false
  else c.topics.zipIdx.all fun sub =>
    sub.1.isEmpty || sub.1.any fun topic => l.log.topics[sub.2]? = some topic

/-- rpc/namespaces/ethereum/eth/filters/utils.go:10-48 -/
def filterLogs (logs : List BlockLog) (c : FilterCriteria) : List BlockLog := logs.filter c.keeps

/-- A bloom, by what is found in it. -/
abbrev Bloom := Bytes → Bool

/-- rpc/namespaces/ethereum/eth/filters/utils.go:61-88 -/
def bloomFilter (bloom : Bloom) (addresses : List Address) (topics : List (List Hash)) : Bool :=
  (addresses.isEmpty || addresses.any fun addr => bloom (addressBytes addr)) &&
    topics.all fun sub => sub.isEmpty || sub.any fun topic => bloom (hashBytes topic)

/-- `ResultBlockResults`: the events of its transactions. -/
structure BlockResults where
  height : ℤ
  txsResults : List (List Event)

/-- What a filter asks of the backend, and the codec of a log. -/
structure Backend where
  tendermintBlockByHash : Hash → Except Err ℤ
  tendermintBlockResultByNumber : ℤ → Except Err BlockResults
  blockBloom : BlockResults → Except Err Bloom
  latestHeader : Except Err (Option ℤ)
  unmarshal : String → Except Err BlockLog

variable (b : Backend) (c : FilterCriteria)

/-- rpc/backend/utils.go:212-264 -/
def allTxLogsFromEvents (events : List Event) : Except Err (List (List BlockLog)) :=
  (events.filter fun event => event.kind = eventTypeTxLog).mapM fun event =>
    (event.attributes.filter fun attr => attr.1 = "txLog").mapM fun attr => b.unmarshal attr.2

/-- rpc/backend/utils.go:272-284 -/
def getLogsFromBlockResults (blockRes : BlockResults) : Except Err (List (List BlockLog)) :=
  (blockRes.txsResults.mapM (allTxLogsFromEvents b)).map List.flatten

/-- rpc/namespaces/ethereum/eth/filters/filters.go:185-206 -/
def blockLogs (blockRes : BlockResults) (bloom : Bloom) : Except Err (List BlockLog) :=
  if bloomFilter bloom c.addresses c.topics = false then .ok []
  else do
    let logsList ← (getLogsFromBlockResults b blockRes).mapError
      (.wrapf "failed to fetch logs block number %d" [.num blockRes.height])
    return filterLogs logsList.flatten { c with fromBlock := none, toBlock := none }

/-- The loop of `Logs`. A block that cannot be fetched ends it. filters.go:157-181 -/
def collectLogs (logLimit : ℕ) : ℤ → ℕ → List BlockLog → Except Err (List BlockLog)
  | _, 0, logs => .ok logs
  | height, n + 1, logs =>
    match b.tendermintBlockResultByNumber height with
    | .error _ => .ok []
    | .ok blockRes => do
      let bloom ← b.blockBloom blockRes
      let filtered ← (blockLogs b c blockRes bloom).mapError
        (.wrapf "failed to fetch block by number %d" [.num height])
      if logLimit < logs.length + filtered.length then
        .error (.errorf "query returned more than %d results" [.num logLimit])
      else collectLogs logLimit (height + 1) n (logs ++ filtered)

/-- A negative bound is the head, zero is the first block. -/
def resolveBound (head n : ℤ) : ℤ := if n < 0 then head else if n = 0 then 1 else n

/-- filters.go:90-182 -/
def logs (logLimit : ℕ) (blockLimit : ℤ) : Except Err (List BlockLog) :=
  match c.blockHash.filter (· ≠ 0) with
  | some hash => do
    let height ← (b.tendermintBlockByHash hash).mapError
      (Err.quote (.errorf "failed to fetch header by hash %s" [.hash hash]) "")
    match b.tendermintBlockResultByNumber height with
    | .error _ => .ok []
    | .ok blockRes => do
      let bloom ← b.blockBloom blockRes
      blockLogs b c blockRes bloom
  | none => do
    let header ← b.latestHeader.mapError
      (Err.quote (.new "failed to fetch header by number (latest)") "")
    match header with
    | none => .ok []
    | some head => do
      let fromBlock := resolveBound head (← deref c.fromBlock)
      let toBlock := resolveBound head (← deref c.toBlock)
      if blockLimit < toBlock - fromBlock then
        .error (.errorf "maximum [from, to] blocks distance: %d" [.num blockLimit])
      else if head < fromBlock then .ok []
      else collectLogs b c logLimit fromBlock (min toBlock (head + 600) + 1 - fromBlock).toNat []

/-- The codec of transaction data (`α`) and responses (`β`). -/
structure ResponseCodec (α β : Type) where
  marshalTxMsgData : List β → α
  unmarshalTxMsgData : α → Except Err (List β)
  unmarshal_txMsgData : ∀ responses, unmarshalTxMsgData (marshalTxMsgData responses) = .ok responses
  marshalResponse : List BlockLog → β
  unmarshalResponse : β → Except Err (List BlockLog)
  unmarshal_response : ∀ logs, unmarshalResponse (marshalResponse logs) = .ok logs

variable {α β : Type} (codec : ResponseCodec α β)

/-- `DecodeTxResponse`, the logs of it.
x/vm/types/utils.go:35-52 -/
def decodeTxResponse (bz : α) : Except Err (List BlockLog) :=
  codec.unmarshalTxMsgData bz >>= fun
    | [] => .ok []
    | first :: _ => (codec.unmarshalResponse first).mapError
        (.wrapf "failed to unmarshal tx response message data" [])

/-- A filter of `NewFilter`: whether it is served, and the logs left. -/
structure LogFilter where
  running : Bool
  logs : List BlockLog

/-- An event, with the data of a transaction if it is about one, or a poll. -/
inductive FilterStep (α : Type)
  | deliver (data : Option α)
  | poll

/-- One round of the goroutine of `NewFilter`, or a poll.
rpc/namespaces/ethereum/eth/filters/api.go:469-501, 603-639 -/
def LogFilter.step (f : LogFilter) : FilterStep α → List BlockLog × LogFilter
  | .poll => (f.logs, { f with logs := [] })
  | .deliver none => ([], f)
  | .deliver (some data) =>
    if f.running then
      match decodeTxResponse codec data with
      | .error _ => ([], { f with running := false })
      | .ok logs => ([], { f with logs := f.logs ++ filterLogs logs c })
    else ([], f)

/-- What the polls have returned, and the filter in the end. -/
def LogFilter.run (f : LogFilter) : List (FilterStep α) → List BlockLog × LogFilter
  | [] => ([], f)
  | s :: steps =>
    let (polled, f) := f.step c codec s
    let (rest, f) := f.run steps
    (polled ++ rest, f)

end TacEvm.Filters
