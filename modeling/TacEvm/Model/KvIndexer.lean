import TacEvm.Library.KeyValue
import TacEvm.Model.RpcEvents

/-!
# The indexer of Ethereum transactions

`IndexBlock` saves one result for each Ethereum message, under its hash and under its height and
index; the index is a counter of the indexer. The encoding of the results is left open: what is
saved can be read back, and it is not empty.

SOURCE: indexer/kv_indexer.go, rpc/backend/blocks.go:242-279
-/

namespace TacEvm

/-- The number of messages of a transaction, if it can be decoded. -/
def messageCount : Except Err AppTx → ℕ
  | .ok tx => tx.msgs.length
  | .error _ => 0

/-- Its height and decoded transactions. CometBFT has no blocks of more than 100 MiB. -/
structure Block where
  height : ℤ
  txs : List (Except Err AppTx)
  height_pos : 0 < height
  height_lt : height < 2 ^ 63
  size : txs.length + (txs.map messageCount).sum < 2 ^ 31

def isEthTx (tx : AppTx) : Bool := decide (tx.extensionOptions = [extensionOptionsEthereumTx])

/-- What is saved of a message, besides its place. kv_indexer.go:93-109 -/
def indexedOutcome (result : ExecTxResult) (txs : ParsedTxs) (ethMsg : MsgEthereumTx)
    (msgIndex : ℕ) : Option (UInt64 × Bool) :=
  if result.code ≠ 0 then some (ethMsg.getGas, true)
  else (txs.getTxByMsgIndex msgIndex).map fun parsedTx => (parsedTx.gasUsed, parsedTx.failed)

/-- The loop over the messages: what is saved, and the next counter, 32 bits wide.
kv_indexer.go:82-118 -/
def indexMsgs (height : ℤ) (txIndex : ℕ) (result : ExecTxResult) (txs : ParsedTxs) :
    List SdkMsg → ℕ → UInt64 → ℤ → Except Err (List (Hash × TxResult) × ℤ)
  | [], _, _, ethTxIndex => .ok ([], ethTxIndex)
  | .ethereumTx ethMsg :: msgs, msgIndex, cumulativeGasUsed, ethTxIndex =>
    match indexedOutcome result txs ethMsg msgIndex with
    | none => indexMsgs height txIndex result txs msgs (msgIndex + 1) cumulativeGasUsed ethTxIndex
    | some (gasUsed, failed) =>
      (indexMsgs height txIndex result txs msgs (msgIndex + 1) (cumulativeGasUsed + gasUsed)
        ((ethTxIndex + 1).bmod (2 ^ 32))).map fun rest =>
          ((hexToHash (ascii ethMsg.hash.toList),
            { height := height
              txIndex := txIndex % 2 ^ 32
              msgIndex := msgIndex % 2 ^ 32
              ethTxIndex := ethTxIndex
              failed := failed
              gasUsed := gasUsed
              cumulativeGasUsed := cumulativeGasUsed + gasUsed }) :: rest.1, rest.2)
  | _ :: _, _, _, _ => .error (.panic "interface conversion")

/-- One round of the loop over the transactions.
kv_indexer.go:60-119 -/
def indexTx (height : ℤ) (txIndex : ℕ) (raw : Except Err AppTx) (result : ExecTxResult)
    (ethTxIndex : ℤ) : Except Err (List (Hash × TxResult) × ℤ) :=
  if txSucessOrExpectedFailure result = false then .ok ([], ethTxIndex)
  else
    match raw with
    | .error _ => .ok ([], ethTxIndex)
    | .ok tx =>
      if isEthTx tx = false then .ok ([], ethTxIndex)
      else
        match parseTxResult result (some tx) with
        | .error (.panic text) => .error (.panic text)
        | .error _ => .ok ([], ethTxIndex)
        | .ok txs => indexMsgs height txIndex result txs tx.msgs 0 0 ethTxIndex

/-- The loop over the transactions, from the place `txIndex` on. -/
def indexTxs (height : ℤ) : List (Except Err AppTx) → List ExecTxResult → ℕ → ℤ →
    Except Err (List (Hash × TxResult))
  | [], _, _, _ => .ok []
  | _ :: _, [], _, _ => .error (.panic "runtime error: index out of range")
  | raw :: txs, result :: results, txIndex, ethTxIndex => do
    let (saved, ethTxIndex) ← indexTx height txIndex raw result ethTxIndex
    let rest ← indexTxs height txs results (txIndex + 1) ethTxIndex
    return saved ++ rest

/-- `bytes.Compare`, as the order of keys. -/
def bytesLe : Bytes → Bytes → Bool
  | [], _ => true
  | _ :: _, [] => false
  | a :: as, b :: bs => decide (a < b) || (decide (a = b) && bytesLe as bs)

/-- `codec.Codec`, for results. -/
structure ResultCodec where
  marshal : TxResult → Bytes
  unmarshal : Bytes → Except Err TxResult
  unmarshal_marshal : ∀ r, unmarshal (marshal r) = .ok r
  marshal_ne_nil : ∀ r, r.height ≠ 0 → marshal r ≠ []

abbrev IndexDb := KeyValue.Db Bytes Bytes

def keyPrefixTxHash : UInt8 := 1
def keyPrefixTxIndex : UInt8 := 2

def txHashKey (hash : Hash) : Bytes := keyPrefixTxHash :: hashBytes hash

/-- `sdk.Uint64ToBigEndian` of a number that is converted to 64 bits. -/
def uint64BigEndian (n : ℤ) : Bytes := beBytes 8 (n % 2 ^ 64).toNat

/-- kv_indexer.go:170-174 -/
def txIndexKey (blockNumber txIndex : ℤ) : Bytes :=
  keyPrefixTxIndex :: (uint64BigEndian blockNumber ++ uint64BigEndian txIndex)

section

variable (codec : ResultCodec)

/-- kv_indexer.go:216-225 -/
def saveTxResult (db : IndexDb) (saved : Hash × TxResult) : IndexDb :=
  KeyValue.set (KeyValue.set db (txHashKey saved.1) (codec.marshal saved.2))
    (txIndexKey saved.2.height saved.2.ethTxIndex) (hashBytes saved.1)

/-- kv_indexer.go:52-124 -/
def indexBlock (db : IndexDb) (block : Block) (txResults : List ExecTxResult) :
    Except Err IndexDb :=
  (indexTxs block.height block.txs txResults 0 0).map fun saved =>
    saved.foldl (saveTxResult codec) db

/-- kv_indexer.go:137-150 -/
def getByTxHash (db : IndexDb) (hash : Hash) : Except Err TxResult :=
  match (KeyValue.get db (txHashKey hash)).getD [] with
  | [] => .error (.errorf "tx not found, hash: %s" [.hash hash])
  | bz => (codec.unmarshal bz).mapError (.wrapf "GetByTxHash %s" [.hash hash])

/-- kv_indexer.go:153-162 -/
def getByBlockAndIndex (db : IndexDb) (blockNumber txIndex : ℤ) : Except Err TxResult :=
  match (KeyValue.get db (txIndexKey blockNumber txIndex)).getD [] with
  | [] => .error (.errorf "tx not found, block: %d, eth-index: %d"
      [.num blockNumber, .num txIndex])
  | bz => getByTxHash codec db (bytesToHash bz)

/-- kv_indexer.go:227-233 -/
def parseBlockNumberFromKey (key : Bytes) : Except Err ℤ :=
  if key.length ≠ 17 then
    .error (.errorf "wrong tx index key length, expect: %d, got: %d" [.num 17, .num key.length])
  else .ok ((beNat ((key.drop 1).take 8) : ℤ).bmod (2 ^ 64))

/-- The block of the key an iterator begins with. -/
def loadBlock (key : Option Bytes) : Except Err ℤ :=
  match key with
  | none => .ok (-1)
  | some key => parseBlockNumberFromKey key

def loadFirstBlock (db : IndexDb) : Except Err ℤ :=
  loadBlock (KeyValue.first (fun a b => bytesLe a b = true) db [keyPrefixTxIndex]
    [keyPrefixTxIndex + 1])

def loadLastBlock (db : IndexDb) : Except Err ℤ :=
  loadBlock (KeyValue.last (fun a b => bytesLe a b = true) db [keyPrefixTxIndex]
    [keyPrefixTxIndex + 1])

end

/-! ## Enumerating the messages of a block -/

/-- The Ethereum messages of a transaction, with their hashes. -/
def ethMsgsOf (txHash : TxData → Hash) : List SdkMsg → Except Err (List MsgEthereumTx)
  | [] => .ok []
  | .ethereumTx ethMsg :: msgs => do
    let txData ← ethMsg.data.mapError fun _ => .nilDereference
    let rest ← ethMsgsOf txHash msgs
    return { ethMsg with hash := quote (hashHex (txHash txData)) } :: rest
  | _ :: msgs => ethMsgsOf txHash msgs

/-- blocks.go:242-279 -/
def ethMsgsFromTendermintBlock (txHash : TxData → Hash) :
    List (Except Err AppTx) → List ExecTxResult → Except Err (List MsgEthereumTx)
  | [], _ => .ok []
  | _ :: _, [] => .error (.panic "runtime error: index out of range")
  | raw :: txs, result :: results =>
    if txSucessOrExpectedFailure result = false then ethMsgsFromTendermintBlock txHash txs results
    else
      match raw with
      | .error _ => ethMsgsFromTendermintBlock txHash txs results
      | .ok tx => do
        let msgs ← ethMsgsOf txHash tx.msgs
        let rest ← ethMsgsFromTendermintBlock txHash txs results
        return msgs ++ rest

end TacEvm
