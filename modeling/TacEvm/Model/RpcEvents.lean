import TacEvm.Model.BaseApp

/-!
# How the JSON-RPC server reads the events of a transaction

`ParseTxResult` makes one entry for each Ethereum message. From the number of attributes of the
first event it guesses whether the events of the ante handler are there, fills the entries in and
corrects them afterwards. `TxLogsFromEvents` finds the logs of a message by counting events.

SOURCE: rpc/types (events.go, utils.go:274-287), rpc/backend/utils.go:231-264
-/

namespace TacEvm

/-- The digits of `strconv.ParseUint`, with the number read so far. -/
def parseDigits (maxVal : ℕ) : ℕ → List Char → Except Err ℕ
  | n, [] => .ok n
  | n, c :: cs =>
    if c.isDigit then
      let n := 10 * n + (c.toNat - '0'.toNat)
      if maxVal < n then .error (.new "value out of range") else parseDigits maxVal n cs
    else .error (.new "invalid syntax")

/-- `strconv.ParseUint` to the base ten; only the cause of an error is kept. -/
def parseUint (s : String) (bitSize : ℕ) : Except Err ℕ :=
  if s = "" then .error (.new "invalid syntax") else parseDigits (2 ^ bitSize - 1) 0 s.toList

/-- `ParsedTx`; the index is `-1` before it is known. -/
structure ParsedTx where
  msgIndex : ℕ
  hash : Hash
  ethTxIndex : ℤ
  gasUsed : UInt64
  failed : Bool
  deriving DecidableEq

def newParsedTx (msgIndex : ℕ) : ParsedTx where
  msgIndex := msgIndex
  hash := 0
  ethTxIndex := -1
  gasUsed := 0
  failed := false

structure ParsedTxs where
  txs : List ParsedTx
  txHashes : Hash → Option ℕ

def fillTxAttribute (tx : ParsedTx) (attr : String × String) : Except Err ParsedTx :=
  if attr.1 = "ethereumTxHash" then .ok { tx with hash := hexToHash (ascii attr.2.toList) }
  else if attr.1 = "txIndex" then
    (parseUint attr.2 31).map fun (txIndex : ℕ) => { tx with ethTxIndex := txIndex }
  else if attr.1 = "txGasUsed" then
    (parseUint attr.2 64).map fun gasUsed => { tx with gasUsed := UInt64.ofNat gasUsed }
  else if attr.1 = "ethereumTxFailed" then .ok { tx with failed := attr.2 ≠ "" }
  else .ok tx

def fillTxAttributes (tx : ParsedTx) (attrs : List (String × String)) : Except Err ParsedTx :=
  attrs.foldlM fillTxAttribute tx

namespace ParsedTxs

def empty : ParsedTxs where
  txs := []
  txHashes := fun _ => none

variable (p : ParsedTxs)

def newTx (attrs : List (String × String)) : Except Err ParsedTxs := do
  let msgIndex := p.txs.length
  let tx ← fillTxAttributes (newParsedTx msgIndex) attrs
  return {
    txs := p.txs ++ [tx]
    txHashes := Function.update p.txHashes tx.hash (some msgIndex) }

def updateTx (eventIndex : ℕ) (attrs : List (String × String)) : Except Err ParsedTxs := do
  let tx ← fillTxAttributes (newParsedTx eventIndex) attrs
  match p.txs[eventIndex]? with
  | none => .error (.panic "runtime error: index out of range")
  | some old => return {
      txs := p.txs.set eventIndex tx
      txHashes :=
        if tx.hash ≠ old.hash then Function.update p.txHashes tx.hash (some eventIndex)
        else p.txHashes }

def getTxByMsgIndex (i : ℤ) : Option ParsedTx :=
  if i < 0 ∨ p.txs.length ≤ i then none else p.txs[i.toNat]?

def getTxByHash (hash : Hash) : Option ParsedTx := (p.txHashes hash).bind fun i => p.txs[i]?

def getTxByTxIndex (txIndex : ℤ) : Option ParsedTx :=
  match p.txs with
  | [] => none
  | first :: _ => p.getTxByMsgIndex (txIndex - first.ethTxIndex)

def accumulativeGasUsed (msgIndex : ℕ) : UInt64 :=
  (p.txs.take (msgIndex + 1)).foldl (fun gasUsed tx => gasUsed + tx.gasUsed) 0

end ParsedTxs

/-- `EventFormat`, once it is known. -/
inductive EventFormat
  | format1
  | format2
  deriving DecidableEq

/-- What the loop of `ParseTxResult` carries; `eventIndex` is one more than in the source. -/
structure ParseState where
  format : Option EventFormat
  eventIndex : ℕ
  parsed : ParsedTxs

/-- The body of the loop of `ParseTxResult`.
events.go:88-122 -/
def parseEvent (st : ParseState) (event : Event) : Except Err ParseState :=
  if event.kind ≠ eventTypeEthereumTx then .ok st
  else
    let format := st.format.getD (if 2 < event.attributes.length then .format1 else .format2)
    if event.attributes.length = 2 then
      (st.parsed.newTx event.attributes).map fun p =>
        { st with format := some format, parsed := p }
    else
      match format with
      | .format1 => (st.parsed.newTx event.attributes).map fun p =>
          { format := some format, eventIndex := st.eventIndex + 1, parsed := p }
      | .format2 => (st.parsed.updateTx st.eventIndex event.attributes).map fun p =>
          { format := some format, eventIndex := st.eventIndex + 1, parsed := p }

def MsgEthereumTx.getGas (msg : MsgEthereumTx) : UInt64 :=
  match msg.data with
  | .ok txData => txData.getGas
  | .error _ => 0

/-- The gas limit of the message at a place. -/
def gasLimitAt (tx : AppTx) (i : ℕ) : Except Err UInt64 :=
  match tx.msgs[i]? with
  | some (.ethereumTx msg) => .ok msg.getGas
  | some _ => .error (.panic "interface conversion")
  | none => .error (.panic "runtime error: index out of range")

/-- The entries of a failed transaction, from `i` on. -/
def failedTxs (tx : AppTx) (i : ℕ) : List ParsedTx → Except Err (List ParsedTx)
  | [] => .ok []
  | p :: ps => do
    let gasLimit ← gasLimitAt tx i
    let rest ← failedTxs tx (i + 1) ps
    return { p with failed := true, gasUsed := gasLimit } :: rest

/-- events.go:80-141 -/
def parseTxResult (result : ExecTxResult) (tx : Option AppTx) : Except Err ParsedTxs := do
  let st ← result.events.foldlM parseEvent
    { format := none, eventIndex := 0, parsed := ParsedTxs.empty }
  let p := st.parsed
  let p :=
    match p.txs with
    | [first] => { p with txs := [{ first with gasUsed := result.gasUsed }] }
    | _ => p
  match tx with
  | none => return p
  | some tx =>
    if result.code = 0 then return p
    else
      let txs ← failedTxs tx 0 p.txs
      return { p with txs := txs }

structure TxResult where
  height : ℤ
  txIndex : ℕ
  msgIndex : ℕ
  ethTxIndex : ℤ
  failed : Bool
  gasUsed : UInt64
  cumulativeGasUsed : UInt64
  deriving DecidableEq

/-- `ParseTxIndexerResult`, for a transaction of a block. events.go:144-164 -/
def parseTxIndexerResult (height : ℤ) (txIndex : ℕ) (result : ExecTxResult) (tx : Option AppTx)
    (getter : ParsedTxs → Option ParsedTx) : Except Err TxResult := do
  let txs ← (parseTxResult result tx).mapError fun e => Err.quote
    (.errorf "failed to parse tx events: block %d, index %d" [.num height, .num txIndex]) "" e
  match getter txs with
  | none => .error (.errorf "ethereum tx not found in msgs: block %d, index %d"
      [.num height, .num txIndex])
  | some parsedTx => return {
      height := height
      txIndex := txIndex
      msgIndex := parsedTx.msgIndex
      ethTxIndex := parsedTx.ethTxIndex
      failed := parsedTx.failed
      gasUsed := parsedTx.gasUsed
      cumulativeGasUsed := txs.accumulativeGasUsed parsedTx.msgIndex }

/-- rpc/backend/utils.go:249-264 -/
def parseTxLogsFromEvent (codec : LogCodec) (event : Event) : Except Err (List Log) :=
  (event.attributes.filter fun attr => attr.1 = "txLog").mapM fun attr =>
    (codec.unmarshal attr.2).map TextLog.toEthereum

/-- rpc/backend/utils.go:231-246 -/
def txLogsFromEvents (codec : LogCodec) : List Event → ℕ → Except Err (List Log)
  | [], msgIndex =>
    .error (.errorf "eth tx logs not found for message index %d" [.num msgIndex])
  | event :: events, msgIndex =>
    if event.kind ≠ eventTypeTxLog then txLogsFromEvents codec events msgIndex
    else
      match msgIndex with
      | msgIndex + 1 => txLogsFromEvents codec events msgIndex
      | 0 => parseTxLogsFromEvent codec event

/-! ## Failures that are expected -/

/-- `strings.Contains`. -/
def containsText (s substr : String) : Bool := decide (substr.toList <:+: s.toList)

def exceedBlockGasLimitError : String := "out of gas in location: block gas meter; gasWanted:"
def stateDBCommitError : String := "failed to commit stateDB"

def txExceedBlockGasLimit (res : ExecTxResult) : Bool :=
  containsText res.log exceedBlockGasLimitError

def txStateDBCommitError (res : ExecTxResult) : Bool := containsText res.log stateDBCommitError

def txSucessOrExpectedFailure (res : ExecTxResult) : Bool :=
  res.code = 0 || txExceedBlockGasLimit res || txStateDBCommitError res

end TacEvm
