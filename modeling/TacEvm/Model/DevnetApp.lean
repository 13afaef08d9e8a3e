import TacEvm.Model.BaseApp
import TacEvm.Model.Devnet

/-!
# The application of the small chain

Transactions of `0xA1` as the application takes them, and a way of writing logs that can be
read back: the fields in hex or as numbers, with commas between them, the topics last.
-/

namespace TacEvm.Devnet

/-- The fields of a log. -/
def logFields (log : TextLog) : List (List Char) :=
  [(quote (encodeHex log.address)).toList, (quote (encodeHex log.data)).toList,
    (quote (encodeHex log.txHash)).toList, Nat.toDigits 10 log.txIndex,
    (quote (encodeHex log.blockHash)).toList, Nat.toDigits 10 log.index] ++
  log.topics.map fun topic => (quote (encodeHex topic)).toList

/-- A log from its fields. -/
def logOfFields : List (List Char) → Except Err TextLog
  | address :: data :: txHash :: txIndex :: blockHash :: index :: topics => .ok
    { address := decodeHex (ascii address)
      topics := topics.map fun topic => decodeHex (ascii topic)
      data := decodeHex (ascii data)
      txHash := decodeHex (ascii txHash)
      txIndex := Nat.ofDigitChars 10 txIndex 0
      blockHash := decodeHex (ascii blockHash)
      index := Nat.ofDigitChars 10 index 0 }
  | _ => .error (.new "unexpected end of JSON input")

theorem logOfFields_logFields (log : TextLog) : logOfFields (logFields log) = .ok log := by
  have hbytes : ∀ bz : Bytes, decodeHex (ascii (quote (encodeHex bz)).toList) = bz := by
    intro bz
    rw [ascii_quote, decodeHex_encodeHex]
  have hnumber : ∀ n : ℕ, Nat.ofDigitChars 10 (Nat.toDigits 10 n) 0 = n :=
    fun n => Nat.ofDigitChars_toDigits (by decide) (by decide)
  have htopics : (log.topics.map fun topic => (quote (encodeHex topic)).toList).map
      (fun topic => decodeHex (ascii topic)) = log.topics := by
    rw [List.map_map]
    exact (List.map_congr_left fun topic _ => hbytes topic).trans (List.map_id _)
  simp only [logFields, List.cons_append, List.nil_append, logOfFields, hbytes, hnumber, htopics]

theorem comma_not_mem_logFields (log : TextLog) : ∀ field ∈ logFields log, ',' ∉ field := by
  have hbytes : ∀ bz : Bytes, ',' ∉ (quote (encodeHex bz)).toList := by
    intro bz hmem
    rw [quote, String.toList_ofList] at hmem
    obtain ⟨b, hb, heq⟩ := List.mem_map.mp hmem
    obtain ⟨n, hn, rfl⟩ := mem_encodeHex bz b hb
    have hdigits : ∀ n < 16, Char.ofNat (lowerDigit n).toNat ≠ ',' := by decide
    exact hdigits n hn heq
  have hnumber : ∀ n : ℕ, ',' ∉ Nat.toDigits 10 n := by
    intro n hmem
    have hdigit := Nat.isDigit_of_mem_toDigits (by decide) (by decide) hmem
    cases hdigit
  intro field hfield
  simp only [logFields, List.mem_append, List.mem_cons, List.not_mem_nil, or_false,
    List.mem_map] at hfield
  rcases hfield with (rfl | rfl | rfl | rfl | rfl | rfl) | ⟨topic, -, rfl⟩
  · exact hbytes _
  · exact hbytes _
  · exact hbytes _
  · exact hnumber _
  · exact hbytes _
  · exact hnumber _
  · exact hbytes _

def logCodec : LogCodec where
  marshal := fun log => String.ofList (List.intercalate [','] (logFields log))
  unmarshal := fun text => logOfFields (text.toList.splitOn ',')
  unmarshal_marshal := by
    intro log
    rw [String.toList_ofList, List.splitOn_intercalate ',' (comma_not_mem_logFields log)
      (by simp [logFields]), logOfFields_logFields]

/-- The text of the address `0xC1`. -/
def contractHex : Bytes := ascii "0x00000000000000000000000000000000000000c1".toList

/-- A transaction of `0xA1` that sends `value`. -/
def signedTx (nonce : UInt64) (value : ℤ) (recipient : Bytes) : TxData :=
  .legacy
    { nonce := nonce
      gasPrice := some 1
      gasLimit := 21000
      recipient := recipient
      amount := some value
      data := []
      v := [37]
      r := []
      s := [] }

/-- The message of a transaction, with its hash. -/
def ethereumMsg (txData : TxData) : MsgEthereumTx where
  data := .ok txData
  sender := []
  hash := quote (hashHex (chain18.txHash txData))

/-- A transaction of the application with these messages. -/
def ethereumAppTx (msgs : List MsgEthereumTx) : AppTx where
  memo := ""
  timeoutHeight := 0
  extensionOptions := [extensionOptionsEthereumTx]
  nonCriticalExtensionOptions := 0
  signerInfos := 0
  signatures := 0
  fee :=
    { amount := [{ denom := "utac", amount := 21000 * msgs.length }]
      gasLimit := 21000 * UInt64.ofNat msgs.length
      payer := ""
      granter := "" }
  msgs := msgs.map .ethereumTx

/-- The application around an EVM, without any other messages. -/
def app (evm : Evm Unit) : App Unit where
  evm := evm
  decorators := fun _ _ => pure 0
  validateOther := fun _ => .ok ()
  handleOther := fun _ => pure ()
  codec := logCodec
  cometHash := fun _ => none

/-- An EVM in which a call with a value pays its recipient. -/
def payingEvm : Evm Unit where
  create := evm.create
  call := fun msg gas _ =>
    let recipient := msg.recipient.getD 0
    { actions :=
        if msg.value = 0 then []
        else
          [.op (.read (.exist recipient)), .op .snapshot, .op (.write (.createAccount recipient)),
            .op (.write (.subBalance msg.sender msg.value)),
            .op (.write (.addBalance recipient msg.value))]
      leftoverGas := gas
      vmErr := none
      ret := [] }

/-- The chain with a bank that does not let `0xC1` receive coins. -/
def blockingChain : Chain :=
  { chain18 with
    env := { env18 with blockedAddr := fun a => a = 0xC1 } }

/-- A transaction of one message that sends `value` to `0xC1`. -/
def payment (nonce : UInt64) (value : ℤ) : AppTx :=
  ethereumAppTx [ethereumMsg (signedTx nonce value contractHex)]

end TacEvm.Devnet
