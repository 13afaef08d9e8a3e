import TacEvm.Model.Eip712

/-!
# Flattened payloads

The fields that the messages are moved to are new and distinct, so nothing is written over
(`payloadWithNewMessages_ok`), and the payload can be told from the result.
-/

namespace TacEvm.Eip712

open KeyValue FallibleState

/-- Indices have fields of their own. -/
theorem msgFieldForIndex_inj {i j : ℕ} (h : msgFieldForIndex i = msgFieldForIndex j) : i = j := by
  have htext : Nat.repr i = Nat.repr j := (String.append_right_inj "msg").mp h
  have hdigits : Nat.toDigits 10 i = Nat.toDigits 10 j := by
    rw [← Nat.toList_repr, htext, Nat.toList_repr]
  have hnumber : ∀ n : ℕ, Nat.ofDigitChars 10 (Nat.toDigits 10 n) 0 = n :=
    fun n => Nat.ofDigitChars_toDigits (by decide) (by decide)
  rw [← hnumber i, hdigits, hnumber]

/-- None of them is the field of the array. -/
theorem msgFieldForIndex_ne (i : ℕ) : msgFieldForIndex i ≠ payloadMsgsField := by
  intro h
  have hletter : Nat.repr i = "s" := (String.append_right_inj "msg").mp h
  have hmem : 's' ∈ Nat.toDigits 10 i := by
    rw [← Nat.toList_repr, hletter]
    decide
  exact absurd (Nat.isDigit_of_mem_toDigits (by decide) (by decide) hmem) (by decide)

/-- The deleted field is the only one of its key. -/
theorem get_payloadWithoutMsgsField {payload : Fields} (hkeys : (payload.map Prod.fst).Nodup)
    (key : String) :
    get (payloadWithoutMsgsField payload) key =
      if key = payloadMsgsField then none else get payload key := by
  unfold payloadWithoutMsgsField
  induction payload with
  | nil => simp [KeyValue.get]
  | cons field fields ih =>
    obtain ⟨hnew, hkeys⟩ := List.nodup_cons.mp hkeys
    have hcons : ∀ fields : Fields, get (field :: fields) key =
        if field.1 = key then some field.2 else get fields key :=
      fun fields => get_set fields field.1 key field.2
    by_cases hfield : field.1 = payloadMsgsField
    · rw [List.eraseP_cons_of_pos (by simpa using hfield), hcons]
      split
      · rename_i hkey
        subst hkey
        exact get_eq_none_iff.mpr (hfield ▸ hnew)
      · rename_i hkey
        rw [if_neg fun h => hkey (h.symm.trans hfield)]
    · rw [List.eraseP_cons_of_neg (by simpa using hfield), hcons, hcons, ih hkeys]
      grind

variable {text : Json → String} {payload flattened : Fields} {msgs : List Json} {index : ℕ}

/-- What a payload becomes when messages are moved to fields. -/
structure Moved (payload : Fields) (msgs : List Json) (index : ℕ) (flattened : Fields) : Prop where
  keys : (payload.map Prod.fst).Nodup → (flattened.map Prod.fst).Nodup
  objects : ∀ msg ∈ msgs, msg.isObject = true
  fresh : ∀ i < msgs.length, get payload (msgFieldForIndex (index + i)) = none
  messages : ∀ i < msgs.length, get flattened (msgFieldForIndex (index + i)) = msgs[i]?
  others : ∀ key, (∀ i < msgs.length, key ≠ msgFieldForIndex (index + i)) →
    get flattened key = get payload key

/-- A message is moved if its field is free and it is an object. -/
theorem payloadWithNewMessage_ok {msg : Json} :
    payloadWithNewMessage text payload msg index = .ok flattened ↔
      get payload (msgFieldForIndex index) = none ∧ msg.isObject = true ∧
        flattened = set payload (msgFieldForIndex index) msg := by
  unfold payloadWithNewMessage
  dsimp only
  cases hfield : get payload (msgFieldForIndex index) with
  | some v => simp
  | none =>
    cases hobject : msg.isObject with
    | false => simp
    | true =>
      simp only [true_and]
      constructor
      · rintro ⟨⟩
        rfl
      · rintro rfl
        rfl

/-- The fields of later messages are those of the payload. -/
theorem get_set_later (payload : Fields) (msg : Json) (index i : ℕ) :
    get (set payload (msgFieldForIndex index) msg)
      (msgFieldForIndex (index + 1 + i)) = get payload (msgFieldForIndex (index + (i + 1))) := by
  rw [get_set, if_neg fun h => absurd (msgFieldForIndex_inj h) (by omega), Nat.add_right_comm]
  rfl

/-- The loop moves every message and touches nothing else. -/
theorem payloadWithNewMessages_moved
    (h : payloadWithNewMessages text payload msgs index = .ok flattened) :
    Moved payload msgs index flattened := by
  induction msgs generalizing payload index with
  | nil =>
    cases h
    exact ⟨id, by simp, by simp, by simp, fun _ _ => rfl⟩
  | cons msg msgs ih =>
    obtain ⟨_, hnew, hrest⟩ := except_bind_ok.mp h
    obtain ⟨hfresh, hobject, rfl⟩ := payloadWithNewMessage_ok.mp hnew
    obtain ⟨hkeys, hobjects, hfreshRest, hmessages, hothers⟩ := ih hrest
    have hnext : ∀ i, index + 1 + i = index + (i + 1) := fun i => Nat.add_right_comm index 1 i
    constructor
    · exact fun hnodup => hkeys (List.nodup_cons.mpr ⟨get_eq_none_iff.mp hfresh, hnodup⟩)
    · exact List.forall_mem_cons.mpr ⟨hobject, hobjects⟩
    · intro i hi
      cases i with
      | zero => exact hfresh
      | succ i =>
        rw [← get_set_later payload msg]
        exact hfreshRest i (Nat.lt_of_succ_lt_succ hi)
    · intro i hi
      cases i with
      | zero =>
        rw [hothers _ fun i _ h => absurd (msgFieldForIndex_inj h) (by omega), get_set]
        exact if_pos rfl
      | succ i =>
        rw [← hnext]
        exact hmessages i (Nat.lt_of_succ_lt_succ hi)
    · intro key hkey
      rw [hothers key ?_, get_set, if_neg fun h => hkey 0 (Nat.zero_lt_succ _) h.symm]
      intro i hi
      rw [hnext]
      exact hkey (i + 1) (Nat.succ_lt_succ hi)

/-- Objects whose fields are not there yet are moved. -/
theorem payloadWithNewMessages_returns (hobjects : ∀ msg ∈ msgs, msg.isObject = true)
    (hfresh : ∀ i < msgs.length, get payload (msgFieldForIndex (index + i)) = none) :
    ∃ flattened, payloadWithNewMessages text payload msgs index = .ok flattened := by
  induction msgs generalizing payload index with
  | nil => exact ⟨payload, rfl⟩
  | cons msg msgs ih =>
    obtain ⟨hobject, hrest⟩ := List.forall_mem_cons.mp hobjects
    have hnew : payloadWithNewMessage text payload msg index = .ok _ :=
      payloadWithNewMessage_ok.mpr ⟨hfresh 0 (Nat.zero_lt_succ _), hobject, rfl⟩
    obtain ⟨flattened, hflattened⟩ :=
      @ih (set payload (msgFieldForIndex index) msg) (index + 1) hrest fun i hi => by
        rw [get_set_later]
        exact hfresh (i + 1) (Nat.succ_lt_succ hi)
    exact ⟨flattened, except_bind_ok.mpr ⟨_, hnew, hflattened⟩⟩

/-- What a payload is flattened to. -/
structure Flattened (payload : Fields) (msgs : List Json) (flattened : Fields) : Prop where
  noMsgs : get flattened payloadMsgsField = none
  fresh : ∀ i < msgs.length, get payload (msgFieldForIndex i) = none
  messages : ∀ i < msgs.length, get flattened (msgFieldForIndex i) = msgs[i]?
  others : ∀ key, key ≠ payloadMsgsField → (∀ i < msgs.length, key ≠ msgFieldForIndex i) →
    get flattened key = get payload key

/-- What is returned is the flattened payload. -/
theorem flattenPayloadMessages_ok {n : ℕ} (hkeys : (payload.map Prod.fst).Nodup)
    (h : flattenPayloadMessages text payload = .ok (flattened, n)) :
    ∃ msgs, getPayloadMessages payload = .ok msgs ∧ n = msgs.length ∧
      Flattened payload msgs flattened := by
  obtain ⟨msgs, hmsgs, h⟩ := except_bind_ok.mp h
  obtain ⟨_, hloop, ⟨⟩⟩ := except_bind_ok.mp h
  obtain ⟨hnodup, -, hfresh, hmessages, hothers⟩ := payloadWithNewMessages_moved hloop
  simp only [Nat.zero_add] at hfresh hmessages hothers
  have hget := get_payloadWithoutMsgsField (hnodup hkeys)
  refine ⟨msgs, hmsgs, rfl, ?_, hfresh, ?_, ?_⟩
  · rw [hget, if_pos rfl]
  · intro i hi
    rw [hget, if_neg (msgFieldForIndex_ne i)]
    exact hmessages i hi
  · intro key hmsgsField hkey
    rw [hget, if_neg hmsgsField]
    exact hothers key hkey

/-- Messages and other fields are determined by the result. -/
theorem Flattened.inj {payload' flattened' : Fields} {msgs' : List Json}
    (h : Flattened payload msgs flattened) (h' : Flattened payload' msgs' flattened')
    (hlength : msgs.length = msgs'.length)
    (hsame : ∀ key, get flattened key = get flattened' key) :
    msgs = msgs' ∧ ∀ key, key ≠ payloadMsgsField → get payload key = get payload' key := by
  constructor
  · refine List.ext_getElem? fun i => ?_
    by_cases hi : i < msgs.length
    · rw [← h.messages i hi, hsame, h'.messages i (hlength ▸ hi)]
    · rw [List.getElem?_eq_none (by omega), List.getElem?_eq_none (by omega)]
  · intro key hkey
    by_cases hmessage : ∀ i < msgs.length, key ≠ msgFieldForIndex i
    · rw [← h.others key hkey hmessage, hsame, h'.others key hkey (hlength ▸ hmessage)]
    · push Not at hmessage
      obtain ⟨i, hi, rfl⟩ := hmessage
      rw [h.fresh i hi, h'.fresh i (hlength ▸ hi)]

/-- Why a payload cannot be flattened. -/
def Malformed (payload : Fields) : Prop :=
  match get payload payloadMsgsField with
  | none => True
  | some .null => False
  | some (.array msgs) => (∃ msg ∈ msgs, msg.isObject = false) ∨
      ∃ i < msgs.length, get payload (msgFieldForIndex i) ≠ none
  | some _ => True

/-- It fails just for malformed payloads. -/
theorem flattenPayloadMessages_fails_iff :
    (∃ e, flattenPayloadMessages text payload = .error e) ↔ Malformed payload := by
  -- with a list of messages, it is the loop that may fail
  have hlist : ∀ msgs, getPayloadMessages payload = .ok msgs →
      ((∃ e, flattenPayloadMessages text payload = .error e) ↔
        (∃ msg ∈ msgs, msg.isObject = false) ∨
          ∃ i < msgs.length, get payload (msgFieldForIndex i) ≠ none) := by
    intro msgs hmsgs
    have hbind : flattenPayloadMessages text payload =
        (payloadWithNewMessages text payload msgs 0).map fun flattened =>
          (payloadWithoutMsgsField flattened, msgs.length) := by
      unfold flattenPayloadMessages
      rw [hmsgs]
      rfl
    rw [hbind]
    cases hloop : payloadWithNewMessages text payload msgs 0 with
    | ok flattened =>
      obtain ⟨-, hobjects, hfresh, -, -⟩ := payloadWithNewMessages_moved hloop
      simp only [Nat.zero_add] at hfresh
      refine iff_of_false ?_ ?_
      · rintro ⟨e, ⟨⟩⟩
      · rintro (⟨msg, hmem, hfalse⟩ | ⟨i, hi, hsome⟩)
        · exact absurd (hobjects msg hmem) (by simp [hfalse])
        · exact hsome (hfresh i hi)
    | error e =>
      refine iff_of_true ⟨e, rfl⟩ ?_
      by_contra hno
      push Not at hno
      obtain ⟨flattened, hok⟩ := @payloadWithNewMessages_returns text payload msgs 0
        (fun msg hmem => by simpa using hno.1 msg hmem) (by simpa using hno.2)
      rw [hloop] at hok
      cases hok
  have hfails : ∀ e, getPayloadMessages payload = .error e →
      ∃ e, flattenPayloadMessages text payload = .error e := by
    intro e he
    unfold flattenPayloadMessages
    rw [he]
    exact ⟨e, rfl⟩
  unfold Malformed
  unfold getPayloadMessages at hlist hfails
  cases hfield : get payload payloadMsgsField with
  | none =>
    rw [hfield] at hfails
    exact iff_of_true (hfails _ rfl) trivial
  | some v =>
    rw [hfield] at hlist hfails
    cases v with
    | array msgs => exact hlist msgs rfl
    | null => simpa using hlist [] rfl
    | _ => exact iff_of_true (hfails _ rfl) trivial

/-- **Flattening is exact**: malformed payloads fail, messages are moved, the rest is kept. -/
theorem flattenPayloadMessages_exact (text : Json → String) (payload : Fields)
    (hkeys : (payload.map Prod.fst).Nodup) :
    ((∃ e, flattenPayloadMessages text payload = .error e) ↔ Malformed payload) ∧
    (∀ flattened n, flattenPayloadMessages text payload = .ok (flattened, n) →
      ∃ msgs, getPayloadMessages payload = .ok msgs ∧ n = msgs.length ∧
        Flattened payload msgs flattened) ∧
    ∀ payload' flattened flattened' n, (payload'.map Prod.fst).Nodup →
      flattenPayloadMessages text payload = .ok (flattened, n) →
      flattenPayloadMessages text payload' = .ok (flattened', n) →
      (∀ key, get flattened key = get flattened' key) →
        getPayloadMessages payload = getPayloadMessages payload' ∧
        ∀ key, key ≠ payloadMsgsField → get payload key = get payload' key := by
  refine ⟨flattenPayloadMessages_fails_iff, fun _ _ => flattenPayloadMessages_ok hkeys, ?_⟩
  intro payload' flattened flattened' n hkeys' h h' hsame
  obtain ⟨msgs, hmsgs, rfl, hflat⟩ := flattenPayloadMessages_ok hkeys h
  obtain ⟨msgs', hmsgs', hlength, hflat'⟩ := flattenPayloadMessages_ok hkeys' h'
  obtain ⟨rfl, hothers⟩ := hflat.inj hflat' hlength hsame
  exact ⟨hmsgs.trans hmsgs'.symm, hothers⟩

/-- A payload of one message and a memo. -/
theorem flattenPayloadMessages_exact_memo :
    ∃ flattened, flattenPayloadMessages (fun _ => "")
        [("memo", .string ""), ("msgs", .array [.object []])] = .ok (flattened, 1) ∧
      Flattened [("memo", .string ""), ("msgs", .array [.object []])] [.object []] flattened := by
  obtain ⟨msgs, hmsgs, -, hflat⟩ := (flattenPayloadMessages_exact (fun _ => "")
    [("memo", .string ""), ("msgs", .array [.object []])] (by decide)).2.1 _ 1 rfl
  cases hmsgs
  exact ⟨_, rfl, hflat⟩

/-- **An empty list of messages** is flattened like null. -/
theorem flattenPayloadMessages_null :
    flattenPayloadMessages (fun _ => "") [("msgs", .null)] = .ok ([], 0) ∧
      flattenPayloadMessages (fun _ => "") [("msgs", .array [])] = .ok ([], 0) ∧
      get [("msgs", Json.null)] "msgs" ≠ get [("msgs", Json.array [])] "msgs" := by
  refine ⟨rfl, rfl, fun h => ?_⟩
  cases h

end TacEvm.Eip712
