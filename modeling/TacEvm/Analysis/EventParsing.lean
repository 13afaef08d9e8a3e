import TacEvm.Model.RpcEvents

/-!
# The parser of events reads what is emitted

The events of a transaction that went through are an `EventStream`: first one event with two
attributes for each message, then one with more. The parser makes the entries from the first half,
and the second half replaces them one by one.
-/

namespace TacEvm

open FallibleState

theorem le_ofDigitChars (cs : List Char) (n : ℕ) : n ≤ Nat.ofDigitChars 10 cs n := by
  rw [Nat.ofDigitChars_eq_ofDigitChars_zero]
  have hpow : 0 < 10 ^ cs.length := Nat.pos_of_ne_zero (by positivity)
  exact Nat.le_add_right_of_le (Nat.le_mul_of_pos_left n hpow)

theorem parseDigits_eq {maxVal : ℕ} {cs : List Char} (hdigits : ∀ c ∈ cs, c.isDigit = true)
    {n : ℕ} (hn : n ≤ maxVal) :
    parseDigits maxVal n cs =
      if Nat.ofDigitChars 10 cs n ≤ maxVal then .ok (Nat.ofDigitChars 10 cs n)
      else .error (.new "value out of range") := by
  induction cs generalizing n with
  | nil => rw [parseDigits, Nat.ofDigitChars_nil, if_pos hn]
  | cons c cs ih =>
    have hrest : ∀ c' ∈ cs, c'.isDigit = true :=
      fun c' hc' => hdigits c' (List.mem_cons_of_mem c hc')
    rw [parseDigits, if_pos (hdigits c List.mem_cons_self), Nat.ofDigitChars_cons]
    dsimp only
    split
    · have hle := le_ofDigitChars cs (10 * n + (c.toNat - '0'.toNat))
      rw [if_neg (by omega)]
    · rename_i hge
      exact ih hrest (Nat.not_lt.mp hge)

/-- **A number is read back** if it has no more bits than are asked for. -/
theorem parseUint_toString (n bitSize : ℕ) :
    parseUint (toString n) bitSize =
      if n < 2 ^ bitSize then .ok n else .error (.new "value out of range") := by
  have htext : (toString n : String) = String.ofList (Nat.toDigits 10 n) :=
    Nat.toString_eq_ofList_toDigits
  have hne : (toString n : String) ≠ "" := by
    rw [htext]
    intro hempty
    have hnil := congrArg String.toList hempty
    rw [String.toList_ofList] at hnil
    exact Nat.toDigits_ne_nil hnil
  have hpow : 0 < 2 ^ bitSize := by positivity
  rw [parseUint, if_neg hne, htext, String.toList_ofList,
    parseDigits_eq (fun c hc => Nat.isDigit_of_mem_toDigits (by decide) (by decide) hc)
      (Nat.zero_le _), Nat.ofDigitChars_toDigits (by decide) (by decide)]
  by_cases hlt : n < 2 ^ bitSize
  · rw [if_pos hlt, if_pos (by omega)]
  · rw [if_neg hlt, if_neg (by omega)]

/-! ## What the parser looks at -/

/-- The events of a type. -/
def Event.ofKind (kind : String) (events : List Event) : List Event :=
  events.filter fun event => event.kind = kind

theorem foldlM_parseEvent (events : List Event) (st : ParseState) :
    events.foldlM parseEvent st =
      (Event.ofKind eventTypeEthereumTx events).foldlM parseEvent st := by
  induction events generalizing st with
  | nil => rfl
  | cons event events ih =>
    by_cases hkind : event.kind = eventTypeEthereumTx
    · have hfilter : Event.ofKind eventTypeEthereumTx (event :: events) =
          event :: Event.ofKind eventTypeEthereumTx events := by
        simp [Event.ofKind, hkind]
      rw [hfilter, List.foldlM_cons, List.foldlM_cons]
      exact congrArg _ (funext fun st' => ih st')
    · have hfilter : Event.ofKind eventTypeEthereumTx (event :: events) =
          Event.ofKind eventTypeEthereumTx events := by
        simp [Event.ofKind, hkind]
      rw [hfilter, List.foldlM_cons, parseEvent, if_pos hkind]
      exact ih st

section Logs

variable {codec : LogCodec} {event : Event} {events : List Event}

theorem txLogsFromEvents_other (h : event.kind ≠ eventTypeTxLog) (i : ℕ) :
    txLogsFromEvents codec (event :: events) i = txLogsFromEvents codec events i := by
  rw [txLogsFromEvents.eq_def]
  dsimp only
  rw [if_pos h]

theorem txLogsFromEvents_zero (h : event.kind = eventTypeTxLog) :
    txLogsFromEvents codec (event :: events) 0 = parseTxLogsFromEvent codec event := by
  unfold txLogsFromEvents
  rw [if_neg (not_not.mpr h)]

theorem txLogsFromEvents_succ (h : event.kind = eventTypeTxLog) (i : ℕ) :
    txLogsFromEvents codec (event :: events) (i + 1) = txLogsFromEvents codec events i := by
  rw [txLogsFromEvents.eq_def]
  dsimp only
  rw [if_neg (not_not.mpr h)]

theorem txLogsFromEvents_eq (events : List Event) (i : ℕ) :
    txLogsFromEvents codec events i =
      txLogsFromEvents codec (Event.ofKind eventTypeTxLog events) i := by
  induction events generalizing i with
  | nil => rfl
  | cons event events ih =>
    by_cases hkind : event.kind = eventTypeTxLog
    · have hfilter : Event.ofKind eventTypeTxLog (event :: events) =
          event :: Event.ofKind eventTypeTxLog events := by
        simp [Event.ofKind, hkind]
      rw [hfilter]
      cases i with
      | zero => rw [txLogsFromEvents_zero hkind, txLogsFromEvents_zero hkind]
      | succ i => rw [txLogsFromEvents_succ hkind, txLogsFromEvents_succ hkind, ih]
    · have hfilter : Event.ofKind eventTypeTxLog (event :: events) =
          Event.ofKind eventTypeTxLog events := by
        simp [Event.ofKind, hkind]
      rw [hfilter, txLogsFromEvents_other hkind, ih]

theorem txLogsFromEvents_getElem {i : ℕ} (hkind : ∀ e ∈ events, e.kind = eventTypeTxLog)
    (h : events[i]? = some event) :
    txLogsFromEvents codec events i = parseTxLogsFromEvent codec event := by
  induction events generalizing i with
  | nil => cases h
  | cons e events ih =>
    have hhead : e.kind = eventTypeTxLog := hkind e List.mem_cons_self
    cases i with
    | zero =>
      cases h
      exact txLogsFromEvents_zero hhead
    | succ i =>
      rw [txLogsFromEvents_succ hhead]
      exact ih (fun e' he' => hkind e' (List.mem_cons_of_mem e he')) h

end Logs

/-- What is reported of a message. -/
structure Report where
  hash : Hash
  txIndex : ℕ
  gasUsed : UInt64
  failed : Bool

/-- The entry of a message. -/
def Report.entry (r : Report) (msgIndex : ℕ) : ParsedTx where
  msgIndex := msgIndex
  hash := r.hash
  ethTxIndex := r.txIndex
  gasUsed := r.gasUsed
  failed := r.failed

/-- The entry the event of the ante handler gives. -/
def Report.firstEntry (r : Report) (msgIndex : ℕ) : ParsedTx :=
  { r.entry msgIndex with gasUsed := 0, failed := false }

/-- The two events of a message, as the parser reads them. -/
structure Reports (r : Report) (first second : Event) : Prop where
  firstKind : first.kind = eventTypeEthereumTx
  firstLength : first.attributes.length = 2
  firstReads : ∀ i, fillTxAttributes (newParsedTx i) first.attributes = .ok (r.firstEntry i)
  secondKind : second.kind = eventTypeEthereumTx
  secondLength : second.attributes.length ≠ 2
  secondReads : ∀ i, fillTxAttributes (newParsedTx i) second.attributes = .ok (r.entry i)

/-- The entries of a list of messages, from a place on. -/
def entriesFrom : ℕ → List Report → List ParsedTx
  | _, [] => []
  | i, r :: rs => r.entry i :: entriesFrom (i + 1) rs

/-- The entries before the second events. -/
def firstEntriesFrom : ℕ → List Report → List ParsedTx
  | _, [] => []
  | i, r :: rs => r.firstEntry i :: firstEntriesFrom (i + 1) rs

@[simp]
theorem length_firstEntriesFrom (i : ℕ) (rs : List Report) :
    (firstEntriesFrom i rs).length = rs.length := by
  induction rs generalizing i with
  | nil => rfl
  | cons r rs ih => rw [firstEntriesFrom, List.length_cons, List.length_cons, ih]

@[simp]
theorem length_entriesFrom (i : ℕ) (rs : List Report) : (entriesFrom i rs).length = rs.length := by
  induction rs generalizing i with
  | nil => rfl
  | cons r rs ih => rw [entriesFrom, List.length_cons, List.length_cons, ih]

theorem getElem?_entriesFrom (i j : ℕ) (rs : List Report) :
    (entriesFrom i rs)[j]? = rs[j]?.map fun r => r.entry (i + j) := by
  induction rs generalizing i j with
  | nil => rfl
  | cons r rs ih =>
    cases j with
    | zero => rfl
    | succ j =>
      rw [entriesFrom, List.getElem?_cons_succ, List.getElem?_cons_succ, ih, Nat.add_right_comm,
        Nat.add_assoc]

/-- The table of hashes of a list of messages, from a place on. -/
def hashTable : (Hash → Option ℕ) → ℕ → List Report → Hash → Option ℕ
  | table, _, [] => table
  | table, i, r :: rs => hashTable (Function.update table r.hash (some i)) (i + 1) rs

/-- What the table of the hashes has. -/
theorem hashTable_eq_some_iff {table : Hash → Option ℕ} {i : ℕ} {rs : List Report} {hash : Hash}
    {j : ℕ} (hnodup : (rs.map Report.hash).Nodup) :
    hashTable table i rs hash = some j ↔
      (∃ r, i ≤ j ∧ rs[j - i]? = some r ∧ r.hash = hash) ∨
        (hash ∉ rs.map Report.hash ∧ table hash = some j) := by
  induction rs generalizing table i with
  | nil => simp [hashTable]
  | cons r rs ih =>
    obtain ⟨hhead, htail⟩ := List.nodup_cons.mp hnodup
    rw [hashTable, ih htail]
    constructor
    · rintro (⟨r', hle, hget, hhash⟩ | ⟨hnot, hupdate⟩)
      · refine .inl ⟨r', by omega, ?_, hhash⟩
        have hsucc : j - i = (j - (i + 1)) + 1 := by omega
        rw [hsucc, List.getElem?_cons_succ]
        exact hget
      · by_cases heq : hash = r.hash
        · subst heq
          rw [Function.update_self] at hupdate
          cases hupdate
          exact .inl ⟨r, Nat.le_refl _, by simp, rfl⟩
        · rw [Function.update_of_ne heq] at hupdate
          refine .inr ⟨?_, hupdate⟩
          rw [List.map_cons, List.mem_cons, not_or]
          exact ⟨heq, hnot⟩
    · rintro (⟨r', hle, hget, hhash⟩ | ⟨hnot, htable⟩)
      · by_cases hij : j = i
        · subst hij
          rw [Nat.sub_self, List.getElem?_cons_zero] at hget
          cases hget
          subst hhash
          exact .inr ⟨hhead, Function.update_self ..⟩
        · have hsucc : j - i = (j - (i + 1)) + 1 := by omega
          rw [hsucc, List.getElem?_cons_succ] at hget
          exact .inl ⟨r', by omega, hget, hhash⟩
      · rw [List.map_cons, List.mem_cons, not_or] at hnot
        refine .inr ⟨hnot.2, ?_⟩
        rw [Function.update_of_ne hnot.1]
        exact htable

theorem ParsedTxs.updateTx_ok {p : ParsedTxs} {i : ℕ} {attrs : List (String × String)}
    {tx old : ParsedTx} (hreads : fillTxAttributes (newParsedTx i) attrs = .ok tx)
    (hold : p.txs[i]? = some old) (hsame : tx.hash = old.hash) :
    p.updateTx i attrs = .ok { txs := p.txs.set i tx, txHashes := p.txHashes } := by
  refine except_bind_ok.mpr ⟨tx, hreads, ?_⟩
  rw [hold]
  dsimp only
  rw [if_neg (not_not.mpr hsame)]
  rfl

/-- A message with its two events. -/
structure Reported where
  report : Report
  first : Event
  second : Event
  reads : Reports report first second

namespace Reported

/-- The events of the first kind open the entries. -/
theorem foldlM_first (ms : List Reported) {st : ParseState} (hformat : st.format ≠ some .format1) :
    (ms.map first).foldlM parseEvent st = .ok
      { format := if ms = [] then st.format else some .format2
        eventIndex := st.eventIndex
        parsed :=
          { txs := st.parsed.txs ++ firstEntriesFrom st.parsed.txs.length (ms.map report)
            txHashes := hashTable st.parsed.txHashes st.parsed.txs.length (ms.map report) } } := by
  induction ms generalizing st with
  | nil =>
    simp only [List.map_nil, List.foldlM_nil, firstEntriesFrom, hashTable, List.append_nil, if_true]
    rfl
  | cons m ms ih =>
    obtain ⟨r, e, e', hreads⟩ := m
    -- the format is guessed from an event with two attributes
    have hguess : st.format.getD (if 2 < e.attributes.length then .format1 else .format2) =
        EventFormat.format2 := by
      cases hst : st.format with
      | none => simp [hreads.firstLength]
      | some format =>
        cases format with
        | format1 => exact absurd hst hformat
        | format2 => rfl
    have hstep : parseEvent st e = .ok
        { format := some .format2
          eventIndex := st.eventIndex
          parsed :=
            { txs := st.parsed.txs ++ [r.firstEntry st.parsed.txs.length]
              txHashes := Function.update st.parsed.txHashes r.hash
                (some st.parsed.txs.length) } } := by
      unfold parseEvent
      rw [if_neg (not_not.mpr hreads.firstKind), hguess]
      rw [if_pos hreads.firstLength, ParsedTxs.newTx, hreads.firstReads]
      rfl
    have hrest := @ih ⟨some .format2, st.eventIndex,
      ⟨st.parsed.txs ++ [r.firstEntry st.parsed.txs.length],
        Function.update st.parsed.txHashes r.hash (some st.parsed.txs.length)⟩⟩ (by simp)
    simp only [List.length_append, List.length_singleton, List.append_assoc,
      List.singleton_append, ite_self] at hrest
    simp only [List.map_cons, List.foldlM_cons, hstep]
    exact hrest

/-- The events of the second kind complete the entries. -/
theorem foldlM_second (ms : List Reported) {format : Option EventFormat}
    (hformat : ms ≠ [] → format = some .format2) (done : List ParsedTx)
    (table : Hash → Option ℕ) :
    (ms.map second).foldlM parseEvent
        { format := format
          eventIndex := done.length
          parsed :=
            { txs := done ++ firstEntriesFrom done.length (ms.map report)
              txHashes := table } } = .ok
      { format := format
        eventIndex := done.length + ms.length
        parsed :=
          { txs := done ++ entriesFrom done.length (ms.map report)
            txHashes := table } } := by
  induction ms generalizing done with
  | nil => rfl
  | cons m ms ih =>
    obtain ⟨r, e, e', hreads⟩ := m
    have hf : format = some .format2 := hformat (List.cons_ne_nil _ _)
    have hstep : parseEvent
        { format := format
          eventIndex := done.length
          parsed :=
            { txs := done ++ r.firstEntry done.length ::
                firstEntriesFrom (done.length + 1) (ms.map report)
              txHashes := table } } e' = .ok
        { format := format
          eventIndex := done.length + 1
          parsed :=
            { txs := done ++ r.entry done.length ::
                firstEntriesFrom (done.length + 1) (ms.map report)
              txHashes := table } } := by
      have hold : (done ++ r.firstEntry done.length ::
          firstEntriesFrom (done.length + 1) (ms.map report))[done.length]? =
          some (r.firstEntry done.length) := by
        simp
      have hset : (done ++ r.firstEntry done.length ::
          firstEntriesFrom (done.length + 1) (ms.map report)).set done.length
            (r.entry done.length) =
          done ++ r.entry done.length :: firstEntriesFrom (done.length + 1) (ms.map report) := by
        simp
      unfold parseEvent
      rw [if_neg (not_not.mpr hreads.secondKind), hf]
      rw [if_neg hreads.secondLength, ParsedTxs.updateTx_ok (hreads.secondReads _) hold
        (show (r.entry done.length).hash = (r.firstEntry done.length).hash from rfl), hset]
      rfl
    have hrest := ih (fun _ => hf) (done ++ [r.entry done.length])
    simp only [List.length_append, List.length_singleton, List.append_assoc,
      List.singleton_append] at hrest
    simp only [List.map_cons, List.foldlM_cons, firstEntriesFrom, entriesFrom, hstep,
      List.length_cons]
    rw [Nat.add_comm ms.length 1, ← Nat.add_assoc]
    exact hrest

/-- **Both halves.** -/
theorem foldlM_parseEvent_ok (ms : List Reported) :
    ∃ st, (ms.map first ++ ms.map second).foldlM parseEvent
        { format := none, eventIndex := 0, parsed := ParsedTxs.empty } = .ok st ∧
      st.parsed = { txs := entriesFrom 0 (ms.map report)
                    txHashes := hashTable (fun _ => none) 0 (ms.map report) } := by
  have hfirst := @foldlM_first ms ⟨none, 0, ParsedTxs.empty⟩ (by simp)
  have hsecond := @foldlM_second ms (if ms = [] then none else some .format2)
    (fun hne => if_neg hne) [] (hashTable (fun _ => none) 0 (ms.map report))
  refine ⟨⟨if ms = [] then none else some .format2, 0 + ms.length, _⟩, ?_, rfl⟩
  rw [List.foldlM_append, hfirst]
  exact hsecond

/-- **The parser** on a transaction that succeeded. -/
theorem parseTxResult_ok (ms : List Reported) {result : ExecTxResult} (hcode : result.code = 0)
    (hevents : Event.ofKind eventTypeEthereumTx result.events = ms.map first ++ ms.map second)
    (hgas : ∀ m, ms = [m] → result.gasUsed = m.report.gasUsed) (tx : Option AppTx) :
    parseTxResult result tx = .ok
      { txs := entriesFrom 0 (ms.map report)
        txHashes := hashTable (fun _ => none) 0 (ms.map report) } := by
  obtain ⟨st, hfold, hparsed⟩ := foldlM_parseEvent_ok ms
  -- a transaction with one message takes the gas of the result, which is the same
  have hparse : parseTxResult result none = .ok
      { txs := entriesFrom 0 (ms.map report)
        txHashes := hashTable (fun _ => none) 0 (ms.map report) } := by
    refine except_bind_ok.mpr ⟨st, ?_, ?_⟩
    · rw [foldlM_parseEvent, hevents]
      exact hfold
    rw [hparsed]
    rcases ms with - | ⟨m, - | ⟨m', ms⟩⟩
    · rfl
    · simp only [List.map_cons, List.map_nil, entriesFrom, hgas m rfl]
      rfl
    · rfl
  cases tx with
  | none => exact hparse
  | some tx =>
    have hsame : parseTxResult result (some tx) = parseTxResult result none := by
      unfold parseTxResult
      simp only [hcode, if_true]
    rw [hsame, hparse]

end Reported

section Lookup

variable {rs : List Report}

/-- **By hash.** -/
theorem getTxByHash_hashTable (hnodup : (rs.map Report.hash).Nodup) (hash : Hash)
    (entry : ParsedTx) :
    ParsedTxs.getTxByHash ⟨entriesFrom 0 rs, hashTable (fun _ => none) 0 rs⟩ hash = some entry ↔
      ∃ (i : ℕ) (r : Report), rs[i]? = some r ∧ r.hash = hash ∧ entry = r.entry i := by
  unfold ParsedTxs.getTxByHash
  rw [Option.bind_eq_some_iff]
  constructor
  · rintro ⟨i, htable, hentry⟩
    rw [hashTable_eq_some_iff hnodup] at htable
    rcases htable with ⟨r, -, hget, hhash⟩ | ⟨-, hnone⟩
    · rw [Nat.sub_zero] at hget
      rw [getElem?_entriesFrom, hget, Nat.zero_add] at hentry
      exact ⟨i, r, hget, hhash, (Option.some.inj hentry).symm⟩
    · cases hnone
  · rintro ⟨i, r, hget, hhash, rfl⟩
    refine ⟨i, (hashTable_eq_some_iff hnodup).mpr (.inl ⟨r, Nat.zero_le i, hget, hhash⟩), ?_⟩
    rw [getElem?_entriesFrom, hget, Nat.zero_add]
    rfl

theorem getTxByMsgIndex_natCast (parsed : ParsedTxs) (i : ℕ) :
    parsed.getTxByMsgIndex i = parsed.txs[i]? := by
  unfold ParsedTxs.getTxByMsgIndex
  split
  · rw [List.getElem?_eq_none (by omega)]
  · rw [Int.toNat_natCast]

/-- **By index**, where the indices are consecutive. -/
theorem getTxByTxIndex_entries {start : ℕ}
    (hindex : ∀ (i : ℕ) (r : Report), rs[i]? = some r → r.txIndex = start + i)
    (table : Hash → Option ℕ) (k : ℤ) (entry : ParsedTx) :
    ParsedTxs.getTxByTxIndex ⟨entriesFrom 0 rs, table⟩ k = some entry ↔
      ∃ (i : ℕ) (r : Report), rs[i]? = some r ∧ k = start + i ∧ entry = r.entry i := by
  cases rs with
  | nil => simp [ParsedTxs.getTxByTxIndex, entriesFrom]
  | cons r₀ rs =>
    have hstart : r₀.txIndex = start := hindex 0 r₀ rfl
    have hlookup : ParsedTxs.getTxByTxIndex ⟨entriesFrom 0 (r₀ :: rs), table⟩ k =
        ParsedTxs.getTxByMsgIndex ⟨entriesFrom 0 (r₀ :: rs), table⟩ (k - start) := by
      rw [← hstart]
      rfl
    rw [hlookup, ParsedTxs.getTxByMsgIndex]
    rw [length_entriesFrom, getElem?_entriesFrom]
    constructor
    · intro h
      split at h
      · cases h
      · obtain ⟨r, hget, rfl⟩ := Option.map_eq_some_iff.mp h
        exact ⟨(k - start).toNat, r, hget, by omega, by rw [Nat.zero_add]⟩
    · rintro ⟨i, r, hget, rfl, rfl⟩
      have hlt : i < (r₀ :: rs).length := (List.getElem?_eq_some_iff.mp hget).1
      have hplace : ((start : ℤ) + i - start).toNat = i := by omega
      rw [if_neg (by omega), hplace, hget, Nat.zero_add]
      rfl

end Lookup

end TacEvm
