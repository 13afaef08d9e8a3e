import TacEvm.Model.Devnet
import TacEvm.Model.LogFilters

/-!
# What log filters return

`Selects` says without loops whether a log satisfies criteria. A query over blocks that can all be
fetched is complete; one beyond the head loses what it has collected, and a polled filter delivers
the logs of first messages.
-/

namespace TacEvm.Filters

open FallibleState

variable {b : Backend} {c : FilterCriteria} {l : BlockLog}

/-- A log satisfies the criteria.  Negative bounds are tags. -/
structure FilterCriteria.Selects (c : FilterCriteria) (l : BlockLog) : Prop where
  lower : ∀ n ∈ c.fromBlock, 0 ≤ n → n ≤ l.blockNumber
  upper : ∀ n ∈ c.toBlock, 0 ≤ n → l.blockNumber ≤ n
  address : c.addresses ≠ [] → l.log.address ∈ c.addresses
  topics : ∀ (i : ℕ) (sub : List Hash), c.topics[i]? = some sub →
    ∃ topic, l.log.topics[i]? = some topic ∧ (sub ≠ [] → topic ∈ sub)

/-- The topics, as the loop compares them. -/
theorem topics_iff {subs : List (List Hash)} {topics : List Hash} :
    (subs.length ≤ topics.length ∧ subs.zipIdx.all (fun sub =>
        sub.1.isEmpty || sub.1.any fun topic => topics[sub.2]? = some topic) = true) ↔
      ∀ (i : ℕ) (sub : List Hash), subs[i]? = some sub →
        ∃ topic, topics[i]? = some topic ∧ (sub ≠ [] → topic ∈ sub) := by
  constructor
  · rintro ⟨hlength, hall⟩ i sub hi
    have hlt : i < topics.length := (List.getElem?_eq_some_iff.mp hi).1.trans_le hlength
    have hsub := List.all_eq_true.mp hall (sub, i) (List.mem_zipIdx_iff_getElem?.mpr hi)
    refine ⟨topics[i], List.getElem?_eq_getElem hlt, fun hne => ?_⟩
    simpa [hne, List.getElem?_eq_getElem hlt] using hsub
  · intro h
    refine ⟨?_, List.all_eq_true.mpr ?_⟩
    · by_contra hlt
      obtain ⟨topic, htopic, -⟩ :=
        h topics.length _ (List.getElem?_eq_getElem (Nat.lt_of_not_le hlt))
      rw [List.getElem?_length] at htopic
      cases htopic
    · rintro ⟨sub, i⟩ hmem
      obtain ⟨topic, htopic, hsub⟩ := h i sub (List.mem_zipIdx_iff_getElem?.mp hmem)
      by_cases hne : sub = []
      · simp [hne]
      · simpa [hne, htopic] using hsub hne

theorem keeps_iff : c.keeps l = true ↔ c.Selects l := by
  have hselects : c.Selects l ↔ (∀ n ∈ c.fromBlock, 0 ≤ n → n ≤ l.blockNumber) ∧
      (∀ n ∈ c.toBlock, 0 ≤ n → (l.blockNumber : ℤ) ≤ n) ∧
      (c.addresses ≠ [] → l.log.address ∈ c.addresses) ∧ _ :=
    ⟨fun h => ⟨h.lower, h.upper, h.address, topics_iff.mpr h.topics⟩,
      fun h => ⟨h.1, h.2.1, h.2.2.1, topics_iff.mp h.2.2.2⟩⟩
  rw [hselects]
  unfold FilterCriteria.keeps
  cases c.fromBlock <;> cases c.toBlock <;> simp <;> grind

instance (c : FilterCriteria) : DecidablePred c.Selects := fun _ => decidable_of_iff _ keeps_iff

theorem filterLogs_eq (logs : List BlockLog) (c : FilterCriteria) :
    filterLogs logs c = logs.filter fun l => decide (c.Selects l) :=
  List.filter_congr fun l _ => by rw [Bool.eq_iff_iff, decide_eq_true_iff, keeps_iff]

/-- The criteria for any block. -/
def FilterCriteria.anywhere (c : FilterCriteria) : FilterCriteria :=
  { c with fromBlock := none, toBlock := none }

/-- A chain of `head` blocks with these logs and blooms. -/
structure Serves (b : Backend) (head : ℤ) (chainLogs : ℤ → List BlockLog) : Prop where
  latest : b.latestHeader = .ok (some head)
  served : ∀ n, 1 ≤ n → n ≤ head → ∃ blockRes bloom lists,
    b.tendermintBlockResultByNumber n = .ok blockRes ∧ b.blockBloom blockRes = .ok bloom ∧
    getLogsFromBlockResults b blockRes = .ok lists ∧ lists.flatten = chainLogs n ∧
    ∀ l ∈ chainLogs n, bloom (addressBytes l.log.address) = true ∧
      ∀ topic ∈ l.log.topics, bloom (hashBytes topic) = true
  missing : ∀ n, head < n → ∃ e, b.tendermintBlockResultByNumber n = .error e

/-- The matching logs of a number of blocks. -/
def FilterCriteria.matching (c : FilterCriteria) (chainLogs : ℤ → List BlockLog) :
    ℤ → ℕ → List BlockLog
  | _, 0 => []
  | height, n + 1 => (chainLogs height).filter (fun l => decide (c.anywhere.Selects l)) ++
      c.matching chainLogs (height + 1) n

/-- What a query has to return. -/
def completeAnswer (logLimit : ℕ) (expected : List BlockLog) : Except Err (List BlockLog) :=
  if logLimit < expected.length then
    .error (.errorf "query returned more than %d results" [.num logLimit])
  else .ok expected

/-- A bloom lets a log through that it has. -/
theorem bloomFilter_of_selects {bloom : Bloom}
    (haddress : bloom (addressBytes l.log.address) = true)
    (htopics : ∀ topic ∈ l.log.topics, bloom (hashBytes topic) = true) (h : c.Selects l) :
    bloomFilter bloom c.addresses c.topics = true := by
  rw [bloomFilter, Bool.and_eq_true, List.all_eq_true]
  constructor
  · by_cases hne : c.addresses = []
    · simp [hne]
    · simpa [hne] using ⟨_, h.address hne, haddress⟩
  intro sub hmem
  obtain ⟨i, hi⟩ := List.getElem?_of_mem hmem
  obtain ⟨topic, htopic, hsub⟩ := h.topics i sub hi
  by_cases hne : sub = []
  · simp [hne]
  · simpa [hne] using ⟨_, hsub hne, htopics _ (List.mem_of_getElem? htopic)⟩

section Chain

variable {head : ℤ} {chainLogs : ℤ → List BlockLog} {logLimit : ℕ}

/-- The loop, over blocks that can be fetched and on from there. -/
theorem Serves.collectLogs (hserves : Serves b head chainLogs) (m : ℕ) {n : ℕ} {height : ℤ}
    {logs : List BlockLog} (hlow : 1 ≤ height) (hhigh : height + n ≤ head + 1)
    (hlogs : logs.length ≤ logLimit) :
    collectLogs b c logLimit height (n + m) logs =
      completeAnswer logLimit (logs ++ c.matching chainLogs height n) >>=
        Filters.collectLogs b c logLimit (height + n) m := by
  induction n generalizing height logs with
  | zero =>
    rw [FilterCriteria.matching, List.append_nil, completeAnswer, if_neg (Nat.not_lt.mpr hlogs)]
    simp
    rfl
  | succ n ih =>
    obtain ⟨blockRes, bloom, lists, hfetch, hbloom, hlists, hflatten, hall⟩ :=
      hserves.served height hlow (by push_cast at hhigh; omega)
    have hblock : blockLogs b c blockRes bloom =
        .ok ((chainLogs height).filter fun l => decide (c.anywhere.Selects l)) := by
      unfold blockLogs
      split
      · rename_i hnone
        refine congrArg Except.ok (Eq.symm (List.filter_eq_nil_iff.mpr fun l hl hselects => ?_))
        obtain ⟨haddress, htopics⟩ := hall l hl
        have hthrough : bloomFilter bloom c.addresses c.topics = true :=
          bloomFilter_of_selects (c := c.anywhere) haddress htopics (of_decide_eq_true hselects)
        rw [hthrough] at hnone
        cases hnone
      · rw [hlists, ← hflatten, ← filterLogs_eq]
        rfl
    rw [show n + 1 + m = n + m + 1 by omega, Filters.collectLogs, hfetch, FilterCriteria.matching,
      ← List.append_assoc]
    simp only [hbloom, hblock, Except.mapError, bind, Except.bind]
    split
    · rename_i hover
      rw [completeAnswer, if_pos]
      simp only [List.length_append] at hover ⊢
      omega
    · rw [ih (by omega) (by push_cast at hhigh; omega) (by rw [List.length_append]; omega),
        show height + ((n + 1 : ℕ) : ℤ) = height + 1 + n by push_cast; ring]
      rfl

/-- **Completeness of log queries.** Exactly the matching logs, or the error for too many, are
returned if and only if the query does not go beyond the head, or nothing matches, or too much
does. -/
theorem logs_complete_iff (hserves : Serves b head chainLogs) (hhash : c.blockHash = none)
    {first last blockLimit : ℤ} (hfirst : c.fromBlock = some first) (hlast : c.toBlock = some last)
    (hpositive : 1 ≤ first) (hhead : first ≤ head) (hordered : first ≤ last)
    (hlimit : last - first ≤ blockLimit) :
    logs b c logLimit blockLimit = completeAnswer logLimit
        (c.matching chainLogs first (min last head + 1 - first).toNat) ↔
      last ≤ head ∨ c.matching chainLogs first (min last head + 1 - first).toNat = [] ∨
        logLimit < (c.matching chainLogs first (min last head + 1 - first).toNat).length := by
  have hbound : ∀ n : ℤ, 1 ≤ n → resolveBound head n = n := by
    intro n hn
    rw [resolveBound, if_neg (by omega), if_neg (by omega)]
  have hlogs : logs b c logLimit blockLimit =
      Filters.collectLogs b c logLimit first (min last (head + 600) + 1 - first).toNat [] := by
    unfold logs
    simp only [hhash, Option.filter_none, hserves.latest, Except.mapError, hfirst, hlast, deref,
      bind, Except.bind, hbound first hpositive, hbound last (hpositive.trans hordered)]
    rw [if_neg (by omega), if_neg (by omega)]
  rw [hlogs]
  rcases le_or_gt last head with hle | hgt
  · have hall : Filters.collectLogs b c logLimit first ((last + 1 - first).toNat + 0) [] = _ :=
      hserves.collectLogs 0 hpositive (by omega) (Nat.zero_le _)
    rw [min_eq_left hle, min_eq_left (by omega), ← Nat.add_zero (last + 1 - first).toNat, hall]
    refine iff_of_true ?_ (.inl hle)
    rw [List.nil_append, Nat.add_zero]
    cases completeAnswer logLimit _ with
    | error e => rfl
    | ok logs => rfl
  · -- the blocks up to the head, and one more that is not there
    obtain ⟨m, hm⟩ : ∃ m, (min last (head + 600) + 1 - first).toNat =
        (head + 1 - first).toNat + (m + 1) := ⟨(min last (head + 600) - head - 1).toNat, by omega⟩
    obtain ⟨e, he⟩ := hserves.missing (first + (head + 1 - first).toNat) (by omega)
    rw [hm, hserves.collectLogs (m + 1) hpositive (by omega) (Nat.zero_le _), List.nil_append,
      min_eq_right hgt.le]
    unfold completeAnswer
    split
    · rename_i hover
      exact iff_of_true rfl (.inr (.inr hover))
    rename_i hwithin
    have hlost : collectLogs b c logLimit (first + (head + 1 - first).toNat) (m + 1)
        (c.matching chainLogs first (head + 1 - first).toNat) = .ok [] := by
      rw [Filters.collectLogs, he]
    show collectLogs b c logLimit _ (m + 1) _ = _ ↔ _
    rw [hlost, Except.ok.injEq, or_iff_right (not_le.mpr hgt), or_iff_left hwithin, eq_comm]

end Chain

/-! ## A chain of one block -/

namespace Devnet

def log (address : Address) : BlockLog where
  log :=
    { address := address, topics := [], data := [], txHash := 0, blockHash := 0, txIndex := 0,
      index := 0 }
  blockNumber := 1

/-- One block, with a log of `0xC1`. -/
def backend : Backend where
  tendermintBlockByHash := fun _ => .error (.new "block not found")
  tendermintBlockResultByNumber := fun n =>
    if n = 1 then .ok
      { height := 1
        txsResults := [[{ kind := eventTypeTxLog, attributes := [("txLog", "")] }]] }
    else .error (.new "could not find results for height")
  blockBloom := fun _ => .ok fun _ => true
  latestHeader := .ok (some 1)
  unmarshal := fun _ => .ok (log 0xC1)

def criteria (toBlock : ℤ) : FilterCriteria where
  blockHash := none
  fromBlock := some 1
  toBlock := some toBlock
  addresses := []
  topics := []

theorem serves : Serves backend 1 fun _ => [log 0xC1] where
  latest := rfl
  served := by
    intro n hlow hhigh
    obtain rfl : n = 1 := le_antisymm hhigh hlow
    exact ⟨_, _, _, rfl, rfl, rfl, rfl, fun _ _ => ⟨rfl, fun _ _ => rfl⟩⟩
  missing := fun n hn => ⟨_, if_neg (by omega)⟩

end Devnet

open Filters.Devnet

theorem logs_complete_devnet :
    logs backend (criteria 1) 9 9 = completeAnswer 9
      ((criteria 1).matching (fun _ => [Devnet.log 0xC1]) 1 1) :=
  (logs_complete_iff serves rfl rfl rfl le_rfl le_rfl le_rfl (by decide)).mpr (.inl le_rfl)

/-- **A query beyond the head** loses the log of the only block. -/
theorem logs_beyond_head :
    Serves backend 1 (fun _ => [Devnet.log 0xC1]) ∧
      (criteria 2).matching (fun _ => [Devnet.log 0xC1]) 1 1 = [Devnet.log 0xC1] ∧
      logs backend (criteria 2) 9 9 = .ok [] :=
  ⟨serves, by decide, by rfl⟩

section Polls

variable {α β : Type}

/-- A transaction with the logs of its messages, or a poll. -/
inductive FilterEvent
  | tx (responses : List (List BlockLog))
  | poll

namespace FilterEvent

def step (codec : ResponseCodec α β) : FilterEvent → FilterStep α
  | .tx responses =>
    .deliver (some (codec.marshalTxMsgData (responses.map codec.marshalResponse)))
  | .poll => .poll

/-- The logs of all messages. -/
def logs : FilterEvent → List BlockLog
  | .tx responses => responses.flatten
  | .poll => []

/-- The logs of the first message, and of those after it. -/
def firstLogs : FilterEvent → List BlockLog
  | .tx responses => responses.headD []
  | .poll => []

def laterLogs : FilterEvent → List BlockLog
  | .tx responses => responses.tail.flatten
  | .poll => []

theorem logs_eq (e : FilterEvent) : e.logs = e.firstLogs ++ e.laterLogs := by
  cases e with
  | tx responses =>
    cases responses <;> rfl
  | poll => rfl

end FilterEvent

/-- What a filter reads are the logs of the first message. -/
theorem decodeTxResponse_marshal (codec : ResponseCodec α β) (responses : List (List BlockLog)) :
    decodeTxResponse codec (codec.marshalTxMsgData (responses.map codec.marshalResponse)) =
      .ok (responses.headD []) := by
  rw [decodeTxResponse, codec.unmarshal_txMsgData]
  cases responses with
  | nil => rfl
  | cons first later =>
    show ((codec.unmarshalResponse (codec.marshalResponse first)).mapError _) = _
    rw [codec.unmarshal_response]
    rfl

/-- What was polled and what is left are the first logs. -/
theorem run_firstLogs (codec : ResponseCodec α β) (events : List FilterEvent)
    (buffered : List BlockLog) :
    (LogFilter.run c codec ⟨true, buffered⟩ (events.map (FilterEvent.step codec))).1 ++
        (LogFilter.run c codec ⟨true, buffered⟩ (events.map (FilterEvent.step codec))).2.logs =
      buffered ++ filterLogs (events.flatMap FilterEvent.firstLogs) c := by
  induction events generalizing buffered with
  | nil => exact (List.append_nil buffered).symm
  | cons e events ih =>
    rw [List.flatMap_cons, filterLogs, List.filter_append, List.map_cons, LogFilter.run]
    cases e with
    | tx responses =>
      rw [FilterEvent.step, LogFilter.step, if_pos rfl, decodeTxResponse_marshal,
        ← List.append_assoc]
      exact ih _
    | poll =>
      show (buffered ++ _) ++ _ = _
      rw [List.append_assoc]
      exact congrArg (buffered ++ ·) (ih [])

/-- Nothing is missing if and only if no later message matches. -/
theorem filter_firstLogs_eq_iff (p : BlockLog → Bool) (events : List FilterEvent) :
    (events.flatMap FilterEvent.firstLogs).filter p = (events.flatMap FilterEvent.logs).filter p ↔
      ∀ e ∈ events, ∀ l ∈ e.laterLogs, p l = false := by
  induction events with
  | nil => simp
  | cons e events ih =>
    have hle : ((events.flatMap FilterEvent.firstLogs).filter p).length ≤
        ((events.flatMap FilterEvent.logs).filter p).length := by
      refine ((List.Sublist.flatMap_right events fun e _ => ?_).filter p).length_le
      rw [e.logs_eq]
      exact List.sublist_append_left _ _
    have hlater : (∀ l ∈ e.laterLogs, p l = false) ↔ e.laterLogs.filter p = [] := by
      simp
    rw [List.forall_mem_cons, hlater, List.flatMap_cons, List.flatMap_cons, e.logs_eq,
      List.append_assoc, List.filter_append, List.filter_append, List.append_cancel_left_eq,
      List.filter_append]
    constructor
    · intro h
      have hlength := congrArg List.length h
      rw [List.length_append] at hlength
      have hnil : e.laterLogs.filter p = [] := List.length_eq_zero_iff.mp (by omega)
      rw [hnil, List.nil_append] at h
      exact ⟨hnil, ih.mp h⟩
    · rintro ⟨hnil, h⟩
      rw [hnil, List.nil_append, ih.mpr h]

/-- **Log filters** deliver the matching logs of all messages if and only if none is of a message
after the first one of a transaction. -/
theorem logFilter_exact_iff (c : FilterCriteria) (codec : ResponseCodec α β)
    (events : List FilterEvent) :
    (LogFilter.run c codec ⟨true, []⟩ (events.map (FilterEvent.step codec))).1 ++
        (LogFilter.run c codec ⟨true, []⟩ (events.map (FilterEvent.step codec))).2.logs =
      (events.flatMap FilterEvent.logs).filter (fun l => decide (c.Selects l)) ↔
      ∀ e ∈ events, ∀ l ∈ e.laterLogs, ¬ c.Selects l := by
  rw [run_firstLogs, List.nil_append, filterLogs_eq, filter_firstLogs_eq_iff]
  simp only [decide_eq_false_iff_not]

/-- **Two messages**: the log of the second one is never delivered. -/
theorem logFilter_second_message :
    LogFilter.run (criteria 9)
        { marshalTxMsgData := id, unmarshalTxMsgData := .ok, unmarshal_txMsgData := fun _ => rfl
          marshalResponse := id, unmarshalResponse := .ok, unmarshal_response := fun _ => rfl }
        ⟨true, []⟩ [.deliver (some [[Devnet.log 0xC1], [Devnet.log 0xC2]]), .poll] =
      ([Devnet.log 0xC1], ⟨true, []⟩) ∧
    (criteria 9).Selects (Devnet.log 0xC2) :=
  ⟨by rfl, by decide⟩

end Polls

end TacEvm.Filters
