import TacEvm.Analysis.TxEncoding
import TacEvm.Analysis.TxIndices

/-!
# What is looked up in the indexer

If all hashes are distinct, the number `i` of a height leads to the place of the message `i` of that
block. The keys are big-endian, so the first and the last of them belong to the least and the
greatest height.
-/

namespace TacEvm

open FallibleState KeyValue Devnet

/-! ## The order of keys -/

theorem bytesLe_iff (a b : Bytes) : bytesLe a b = true ↔ a ≤ b := by
  induction a generalizing b with
  | nil => simp [bytesLe]
  | cons x a ih =>
    cases b with
    | nil => simp [bytesLe]
    | cons y b =>
      rw [bytesLe, Bool.or_eq_true, Bool.and_eq_true, decide_eq_true_eq, decide_eq_true_eq, ih,
        List.cons_le_cons_iff]

instance : Std.Total fun a b : Bytes => bytesLe a b = true where
  total a b := by
    rw [bytesLe_iff, bytesLe_iff]
    exact List.le_total a b

instance : IsTrans Bytes fun a b => bytesLe a b = true where
  trans a b c := by
    rw [bytesLe_iff, bytesLe_iff, bytesLe_iff]
    exact List.le_trans

theorem beNat_cons (x : UInt8) (b : Bytes) :
    beNat (x :: b) = x.toNat * 256 ^ b.length + beNat b := by
  have h := beNat_append [x] b
  rw [List.singleton_append] at h
  rw [h]
  simp [beNat]

theorem beNat_lt (b : Bytes) : beNat b < 256 ^ b.length := by
  induction b with
  | nil => decide
  | cons x b ih =>
    have hx : x.toNat + 1 ≤ 256 := x.toNat_lt
    have hle : (x.toNat + 1) * 256 ^ b.length ≤ 256 * 256 ^ b.length :=
      Nat.mul_le_mul_right _ hx
    rw [beNat_cons, List.length_cons, pow_succ']
    rw [Nat.add_mul, Nat.one_mul] at hle
    omega

/-- **Big-endian fields are ordered as numbers.** -/
theorem beNat_le_of_append_le {a b x y : Bytes} (hlength : a.length = b.length)
    (h : a ++ x ≤ b ++ y) : beNat a ≤ beNat b := by
  induction a generalizing b with
  | nil => exact Nat.zero_le _
  | cons u a ih =>
    cases b with
    | nil => cases hlength
    | cons v b =>
      have hrest : a.length = b.length := Nat.succ.inj hlength
      rw [beNat_cons, beNat_cons, hrest]
      rcases List.cons_le_cons_iff.mp h with hless | ⟨rfl, hle⟩
      · have hu := beNat_lt a
        have hmul : (u.toNat + 1) * 256 ^ b.length ≤ v.toNat * 256 ^ b.length :=
          Nat.mul_le_mul_right _ (UInt8.lt_iff_toNat_lt.mp hless)
        rw [hrest] at hu
        rw [Nat.add_mul, Nat.one_mul] at hmul
        omega
      · exact Nat.add_le_add_left (ih hrest hle) _

@[simp]
theorem length_uint64BigEndian (n : ℤ) : (uint64BigEndian n).length = 8 := length_beBytes 8 _

theorem beNat_uint64BigEndian (n : ℤ) : (beNat (uint64BigEndian n) : ℤ) = n % 2 ^ 64 := by
  have hlt : (n % 2 ^ 64).toNat < 256 ^ 8 := by omega
  rw [uint64BigEndian, beNat_beBytes, Nat.mod_eq_of_lt hlt]
  omega

/-- The place of a message: a height and a number of 32 bits. -/
structure IsIndex (height index : ℤ) : Prop where
  height_pos : 0 < height
  height_lt : height < 2 ^ 63
  le_index : -2 ^ 31 ≤ index
  index_lt : index < 2 ^ 31

variable {height index : ℤ}

variable {height' index' : ℤ}

theorem txIndexKey_inj (h : IsIndex height index) (h' : IsIndex height' index')
    (hkey : txIndexKey height index = txIndexKey height' index') :
    height = height' ∧ index = index' := by
  obtain ⟨hheight, hindex⟩ := List.append_inj (List.cons.inj hkey).2
    (by rw [length_uint64BigEndian, length_uint64BigEndian])
  have hheight' := beNat_uint64BigEndian height
  have hindex' := beNat_uint64BigEndian index
  rw [hheight, beNat_uint64BigEndian] at hheight'
  rw [hindex, beNat_uint64BigEndian] at hindex'
  obtain ⟨h₁, h₂, h₃, h₄⟩ := h
  obtain ⟨h₁', h₂', h₃', h₄'⟩ := h'
  constructor
  · omega
  · omega

theorem txIndexKey_ne_txHashKey (height index : ℤ) (hash : Hash) :
    txIndexKey height index ≠ txHashKey hash := by
  intro h
  exact absurd (List.cons.inj h).1 (by decide)

theorem parseBlockNumberFromKey_txIndexKey (h : IsIndex height index) :
    parseBlockNumberFromKey (txIndexKey height index) = .ok height := by
  have hpos := h.height_pos
  have hlt := h.height_lt
  have hlength : (txIndexKey height index).length = 17 := by simp [txIndexKey]
  have hfield : ((txIndexKey height index).drop 1).take 8 = uint64BigEndian height := by
    rw [txIndexKey, List.drop_one, List.tail_cons, List.take_left' (length_uint64BigEndian height)]
  rw [parseBlockNumberFromKey, if_neg (not_not.mpr hlength), hfield, beNat_uint64BigEndian,
    Int.emod_eq_of_lt (by omega) (by omega), Int.bmod_eq_of_le (by omega) (by omega)]

theorem height_le_of_bytesLe (h : IsIndex height index) (h' : IsIndex height' index')
    (hle : bytesLe (txIndexKey height index) (txIndexKey height' index') = true) :
    height ≤ height' := by
  rw [bytesLe_iff, txIndexKey, txIndexKey, List.cons_le_cons_iff] at hle
  have hrest := (hle.resolve_left (UInt8.lt_irrefl _)).2
  have hnat := beNat_le_of_append_le (by simp) hrest
  have hheight := beNat_uint64BigEndian height
  have hheight' := beNat_uint64BigEndian height'
  obtain ⟨h₁, h₂, -, -⟩ := h
  obtain ⟨h₁', h₂', -, -⟩ := h'
  omega

/-! ## The store after saving results -/

section Saved

variable {codec : ResultCodec} {saved : List (Hash × TxResult)}

/-- The two writes of a result. -/
def entriesOf (codec : ResultCodec) (r : Hash × TxResult) : IndexDb :=
  [(txIndexKey r.2.height r.2.ethTxIndex, hashBytes r.1), (txHashKey r.1, codec.marshal r.2)]

theorem foldl_saveTxResult (codec : ResultCodec) (saved : List (Hash × TxResult)) (db : IndexDb) :
    saved.foldl (saveTxResult codec) db = saved.reverse.flatMap (entriesOf codec) ++ db := by
  induction saved generalizing db with
  | nil => rfl
  | cons r saved ih =>
    have hhead : saveTxResult codec db r = entriesOf codec r ++ db := rfl
    rw [List.foldl_cons, ih, hhead, List.reverse_cons, List.flatMap_append, List.append_assoc,
      List.flatMap_singleton]

/-- Results that do not overwrite one another. -/
structure Distinct (saved : List (Hash × TxResult)) : Prop where
  hashes : (saved.map Prod.fst).Nodup
  indices : (saved.map fun r => (r.2.height, r.2.ethTxIndex)).Nodup
  isIndex : ∀ r ∈ saved, IsIndex r.2.height r.2.ethTxIndex

/-- The store in which only these results are saved. -/
def savedDb (codec : ResultCodec) (saved : List (Hash × TxResult)) : IndexDb :=
  saved.foldl (saveTxResult codec) []

theorem mem_savedDb {entry : Bytes × Bytes} :
    entry ∈ savedDb codec saved ↔ ∃ r ∈ saved, entry ∈ entriesOf codec r := by
  rw [savedDb, foldl_saveTxResult, List.append_nil, List.mem_flatMap]
  simp only [List.mem_reverse]

variable {r : Hash × TxResult}

theorem disjoint_entriesOf {r' : Hash × TxResult} (h : IsIndex r.2.height r.2.ethTxIndex)
    (h' : IsIndex r'.2.height r'.2.ethTxIndex) (hhash : r.1 ≠ r'.1)
    (hindex : (r.2.height, r.2.ethTxIndex) ≠ (r'.2.height, r'.2.ethTxIndex)) :
    ((entriesOf codec r).map Prod.fst).Disjoint ((entriesOf codec r').map Prod.fst) := by
  intro key hkey hkey'
  rcases List.mem_pair.mp hkey with rfl | rfl
  · rcases List.mem_pair.mp hkey' with heq | heq
    · obtain ⟨hheight, hnumber⟩ := txIndexKey_inj h h' heq
      exact hindex (Prod.ext hheight hnumber)
    · exact txIndexKey_ne_txHashKey _ _ _ heq
  · rcases List.mem_pair.mp hkey' with heq | heq
    · exact txIndexKey_ne_txHashKey _ _ _ heq.symm
    · exact hhash (hashBytes_inj (List.cons.inj heq).2)

theorem Distinct.nodup_keys (h : Distinct saved) : ((savedDb codec saved).map Prod.fst).Nodup := by
  rw [savedDb, foldl_saveTxResult, List.append_nil, List.map_flatMap, List.nodup_flatMap]
  constructor
  · intro r _
    have hne := txIndexKey_ne_txHashKey r.2.height r.2.ethTxIndex r.1
    exact List.nodup_cons.mpr ⟨fun hmem => hne (List.mem_singleton.mp hmem), List.nodup_singleton _⟩
  · have hhashes := List.pairwise_reverse.mpr ((List.pairwise_map.mp h.hashes).imp Ne.symm)
    have hindices := List.pairwise_reverse.mpr ((List.pairwise_map.mp h.indices).imp Ne.symm)
    refine (hhashes.and hindices).imp_of_mem fun hr hr' hne => ?_
    exact disjoint_entriesOf (h.isIndex _ (List.mem_reverse.mp hr))
      (h.isIndex _ (List.mem_reverse.mp hr')) hne.1 hne.2

variable {key : Bytes}

theorem Distinct.get_of_mem (h : Distinct saved) (hr : r ∈ saved) {value : Bytes}
    (hentry : (key, value) ∈ entriesOf codec r) :
    get (savedDb codec saved) key = some value :=
  get_eq_some_of_mem h.nodup_keys (mem_savedDb.mpr ⟨r, hr, hentry⟩)

theorem Distinct.getByTxHash (h : Distinct saved) (codec : ResultCodec) (hr : r ∈ saved) :
    getByTxHash codec (savedDb codec saved) r.1 = .ok r.2 := by
  have hget : get (savedDb codec saved) (txHashKey r.1) = some (codec.marshal r.2) :=
    h.get_of_mem hr (List.mem_cons_of_mem _ List.mem_cons_self)
  have hne := codec.marshal_ne_nil r.2 (h.isIndex r hr).height_pos.ne'
  rw [TacEvm.getByTxHash, hget, Option.getD_some]
  split
  · rename_i hnil
    exact absurd hnil hne
  · rw [codec.unmarshal_marshal]
    rfl

theorem Distinct.getByBlockAndIndex (h : Distinct saved) (codec : ResultCodec) (hr : r ∈ saved) :
    getByBlockAndIndex codec (savedDb codec saved) r.2.height r.2.ethTxIndex = .ok r.2 := by
  have hget : get (savedDb codec saved) (txIndexKey r.2.height r.2.ethTxIndex) =
      some (hashBytes r.1) :=
    h.get_of_mem hr List.mem_cons_self
  rw [TacEvm.getByBlockAndIndex, hget, Option.getD_some]
  split
  · rename_i hnil
    have hlength := length_hashBytes r.1
    rw [hnil] at hlength
    cases hlength
  · rw [bytesToHash_hashBytes]
    exact h.getByTxHash codec hr

theorem Distinct.of_getByBlockAndIndex (h : Distinct saved) (hindex : IsIndex height index)
    {result : TxResult}
    (hfound : TacEvm.getByBlockAndIndex codec (savedDb codec saved) height index = .ok result) :
    ∃ r ∈ saved, r.2.height = height ∧ r.2.ethTxIndex = index := by
  unfold TacEvm.getByBlockAndIndex at hfound
  cases hget : get (savedDb codec saved) (txIndexKey height index) with
  | none =>
    rw [hget] at hfound
    cases hfound
  | some value =>
    obtain ⟨r, hr, hentry⟩ := mem_savedDb.mp (mem_of_get_eq_some hget)
    refine ⟨r, hr, ?_⟩
    rcases List.mem_pair.mp hentry with heq | heq
    · obtain ⟨hheight, hnumber⟩ := txIndexKey_inj hindex (h.isIndex r hr) (Prod.mk.inj heq).1
      exact ⟨hheight.symm, hnumber.symm⟩
    · exact absurd (Prod.mk.inj heq).1 (txIndexKey_ne_txHashKey _ _ _)

/-! ## The first and the last block -/

theorem mem_keysIn_savedDb :
    key ∈ keysIn (fun a b => bytesLe a b = true) (savedDb codec saved)
        [keyPrefixTxIndex] [keyPrefixTxIndex + 1] ↔
      ∃ r ∈ saved, key = txIndexKey r.2.height r.2.ethTxIndex := by
  rw [mem_keysIn]
  constructor
  · rintro ⟨hkey, hlo, -⟩
    obtain ⟨entry, hentry, rfl⟩ := List.mem_map.mp hkey
    obtain ⟨r, hr, hmem⟩ := mem_savedDb.mp hentry
    rcases List.mem_pair.mp hmem with rfl | rfl
    · exact ⟨r, hr, rfl⟩
    · cases hlo
  · rintro ⟨r, hr, rfl⟩
    refine ⟨List.mem_map.mpr ⟨_, mem_savedDb.mpr ⟨r, hr, List.mem_cons_self⟩, rfl⟩, rfl, ?_⟩
    intro hhi
    cases hhi

theorem Distinct.loadBlock (h : Distinct saved)
    (hkey : key ∈ keysIn (fun a b => bytesLe a b = true) (savedDb codec saved)
      [keyPrefixTxIndex] [keyPrefixTxIndex + 1]) :
    ∃ r ∈ saved, key = txIndexKey r.2.height r.2.ethTxIndex ∧
      TacEvm.loadBlock (some key) = .ok r.2.height := by
  obtain ⟨r, hr, rfl⟩ := mem_keysIn_savedDb.mp hkey
  exact ⟨r, hr, rfl, parseBlockNumberFromKey_txIndexKey (h.isIndex r hr)⟩

theorem first_ne_none (hne : saved ≠ []) :
    first (fun a b => bytesLe a b = true) (savedDb codec saved) [keyPrefixTxIndex]
      [keyPrefixTxIndex + 1] ≠ none := by
  obtain ⟨r, hr⟩ := List.exists_mem_of_ne_nil _ hne
  have hkey : txIndexKey r.2.height r.2.ethTxIndex ∈
      keysIn (fun a b => bytesLe a b = true) (savedDb codec saved) [keyPrefixTxIndex]
        [keyPrefixTxIndex + 1] :=
    mem_keysIn_savedDb.mpr ⟨r, hr, rfl⟩
  obtain ⟨hmem, hrange⟩ := mem_keysIn.mp hkey
  exact fun hnone => first_eq_none_iff.mp hnone _ hmem hrange

theorem Distinct.loadFirstBlock (h : Distinct saved) (codec : ResultCodec) (hne : saved ≠ []) :
    ∃ r ∈ saved, TacEvm.loadFirstBlock (savedDb codec saved) = .ok r.2.height ∧
      ∀ r' ∈ saved, r.2.height ≤ r'.2.height := by
  obtain ⟨key, hfirst⟩ := Option.ne_none_iff_exists'.mp (@first_ne_none codec saved hne)
  obtain ⟨hkey, hleast⟩ := first_spec hfirst
  obtain ⟨r, hr, rfl, hload⟩ := h.loadBlock hkey
  refine ⟨r, hr, by rw [TacEvm.loadFirstBlock, hfirst, hload], fun r' hr' => ?_⟩
  exact height_le_of_bytesLe (h.isIndex r hr) (h.isIndex r' hr')
    (hleast _ (mem_keysIn_savedDb.mpr ⟨r', hr', rfl⟩))

theorem Distinct.loadLastBlock (h : Distinct saved) (codec : ResultCodec) (hne : saved ≠ []) :
    ∃ r ∈ saved, TacEvm.loadLastBlock (savedDb codec saved) = .ok r.2.height ∧
      ∀ r' ∈ saved, r'.2.height ≤ r.2.height := by
  obtain ⟨key, hlast⟩ := Option.ne_none_iff_exists'.mp
    (last_eq_none_iff.not.mpr (@first_ne_none codec saved hne))
  obtain ⟨hkey, hgreatest⟩ := last_spec hlast
  obtain ⟨r, hr, rfl, hload⟩ := h.loadBlock hkey
  refine ⟨r, hr, by rw [TacEvm.loadLastBlock, hlast, hload], fun r' hr' => ?_⟩
  exact height_le_of_bytesLe (h.isIndex r' hr') (h.isIndex r hr)
    (hgreatest _ (mem_keysIn_savedDb.mpr ⟨r', hr', rfl⟩))

end Saved

/-! ## The messages the server lists -/

/-- The message with the hash of its transaction. -/
def MsgEthereumTx.withTxHash (txHash : TxData → Hash) (msg : MsgEthereumTx) : MsgEthereumTx :=
  match msg.data with
  | .ok txData => { msg with hash := quote (hashHex (txHash txData)) }
  | .error _ => msg

theorem ethMsgsOf_ok (txHash : TxData → Hash) {msgs : List SdkMsg}
    (h : ∀ msg ∈ ethereumMsgs msgs, ∃ txData, msg.data = .ok txData) :
    ethMsgsOf txHash msgs = .ok ((ethereumMsgs msgs).map (MsgEthereumTx.withTxHash txHash)) := by
  induction msgs with
  | nil => rfl
  | cons msg msgs ih =>
    cases msg with
    | ethereumTx m =>
      have hmsgs : ethereumMsgs (.ethereumTx m :: msgs) = m :: ethereumMsgs msgs := rfl
      rw [hmsgs] at h ⊢
      obtain ⟨⟨txData, hdata⟩, hrest⟩ := List.forall_mem_cons.mp h
      rw [ethMsgsOf, ih hrest, hdata, List.map_cons, MsgEthereumTx.withTxHash, hdata]
      rfl
    | _ => exact ih h

theorem map_placesFrom {α : Type} (f : MsgEthereumTx → α) (txIndex msgIndex : ℕ)
    (msgs : List MsgEthereumTx) :
    ((placesFrom txIndex msgIndex msgs).map fun place => f place.msg) = msgs.map f := by
  induction msgs generalizing msgIndex with
  | nil => rfl
  | cons msg msgs ih => rw [placesFrom, List.map_cons, ih, List.map_cons]

variable {raw : Except Err AppTx} {result : ExecTxResult} {txs : List (Except Err AppTx)}
  {results : List ExecTxResult}

theorem ethMsgsFromTendermintBlock_cons (txHash : TxData → Hash) {rest : List MsgEthereumTx}
    (h : ∀ msg ∈ listedMsgs raw result, ∃ txData, msg.data = .ok txData)
    (hrest : ethMsgsFromTendermintBlock txHash txs results = .ok rest) :
    ethMsgsFromTendermintBlock txHash (raw :: txs) (result :: results) =
      .ok ((listedMsgs raw result).map (MsgEthereumTx.withTxHash txHash) ++ rest) := by
  unfold listedMsgs at h ⊢
  rw [ethMsgsFromTendermintBlock.eq_def]
  dsimp only
  rw [hrest]
  by_cases hlisted : txSucessOrExpectedFailure result = false
  · rw [if_pos hlisted, if_pos hlisted]
    rfl
  rw [if_neg hlisted] at h ⊢
  rw [if_neg hlisted]
  cases raw with
  | error e => rfl
  | ok tx =>
    dsimp only at h ⊢
    rw [ethMsgsOf_ok txHash h]
    rfl

/-- **The server lists the messages at the listed places.** -/
theorem ethMsgsFromTendermintBlock_ok (txHash : TxData → Hash) (k : ℕ)
    (hlength : results.length = txs.length)
    (h : ∀ place ∈ listedPlaces txs results k, ∃ txData, place.msg.data = .ok txData) :
    ethMsgsFromTendermintBlock txHash txs results =
      .ok ((listedPlaces txs results k).map fun place => place.msg.withTxHash txHash) := by
  induction txs generalizing results k with
  | nil =>
    cases List.length_eq_zero_iff.mp hlength
    rfl
  | cons raw txs ih =>
    cases results with
    | nil => cases hlength
    | cons result results =>
      rw [listedPlaces] at h ⊢
      have hrest := ih (k + 1) (Nat.succ.inj hlength)
        fun place hplace => h place (List.mem_append_right _ hplace)
      have hhead : ∀ msg ∈ listedMsgs raw result, ∃ txData, msg.data = .ok txData := by
        intro msg hmsg
        rw [← List.map_id (listedMsgs raw result), ← map_placesFrom id k 0] at hmsg
        obtain ⟨place, hplace, rfl⟩ := List.mem_map.mp hmsg
        exact h place (List.mem_append_left _ hplace)
      rw [ethMsgsFromTendermintBlock_cons txHash hhead hrest, List.map_append, map_placesFrom]

theorem length_listedMsgs_le (raw : Except Err AppTx) (result : ExecTxResult) :
    (listedMsgs raw result).length ≤ messageCount raw := by
  unfold listedMsgs
  split
  · exact Nat.zero_le _
  · cases raw with
    | error e => exact Nat.zero_le _
    | ok tx => exact List.length_filterMap_le _ _

theorem length_listedPlaces_le (txs : List (Except Err AppTx)) (results : List ExecTxResult)
    (k : ℕ) : (listedPlaces txs results k).length ≤ (txs.map messageCount).sum := by
  induction txs generalizing results k with
  | nil => exact Nat.zero_le _
  | cons raw txs ih =>
    cases results with
    | nil => exact Nat.zero_le _
    | cons result results =>
      rw [listedPlaces, List.length_append, length_placesFrom, List.map_cons, List.sum_cons]
      exact Nat.add_le_add (length_listedMsgs_le raw result) (ih results (k + 1))

theorem listedPlaces_take_sublist (txs : List (Except Err AppTx)) (results : List ExecTxResult)
    (l k : ℕ) :
    (listedPlaces (txs.take l) (results.take l) k).Sublist (listedPlaces txs results k) := by
  induction txs generalizing results l k with
  | nil =>
    rw [List.take_nil]
    exact List.nil_sublist _
  | cons raw txs ih =>
    cases results with
    | nil =>
      rw [List.take_nil]
      cases l with
      | zero => exact List.nil_sublist _
      | succ l => exact List.nil_sublist _
    | cons result results =>
      cases l with
      | zero => exact List.nil_sublist _
      | succ l =>
        rw [List.take_succ_cons, List.take_succ_cons, listedPlaces, listedPlaces]
        exact (ih results l (k + 1)).append_left _

theorem Readable.getElem?_msgs (h : Readable raw result) {j : ℕ} {msg : MsgEthereumTx}
    (hmsg : (listedMsgs raw result)[j]? = some msg) :
    ∃ tx, raw = .ok tx ∧ tx.msgs[j]? = some (.ethereumTx msg) := by
  unfold listedMsgs at hmsg
  by_cases hlisted : txSucessOrExpectedFailure result = false
  · rw [if_pos hlisted] at hmsg
    cases hmsg
  rw [if_neg hlisted] at hmsg
  cases h with
  | notListed h => exact absurd h hlisted
  | notDecoded h =>
    subst h
    cases hmsg
  | @other tx h option messages =>
    subst h
    dsimp only at hmsg
    rw [ethereumMsgs_eq_nil messages] at hmsg
    cases hmsg
  | @ethereum tx h option msgs messages txs parsed entries =>
    subst h
    dsimp only at hmsg
    rw [messages, ethereumMsgs_map] at hmsg
    refine ⟨tx, rfl, ?_⟩
    rw [messages, List.getElem?_map, hmsg]
    rfl

/-! ## Blocks and their results -/

/-- A block and the results of its transactions. -/
structure ExecutedBlock where
  block : Block
  results : List ExecTxResult
  length : results.length = block.txs.length

namespace ExecutedBlock

/-- The places of the messages that are listed for the block. -/
def places (b : ExecutedBlock) : List Place := listedPlaces b.block.txs b.results 0

/-- The hashes of these messages. -/
def hashes (b : ExecutedBlock) : List Hash :=
  b.places.map fun place => hexToHash (ascii place.msg.hash.toList)

/-- What the indexer saves for the block. -/
def saved (b : ExecutedBlock) : List (Hash × TxResult) :=
  (indexTxs b.block.height b.block.txs b.results 0 0).toOption.getD []

/-- Ethereum transactions of the block parse, and no other listed one has an Ethereum message. -/
structure Parses (b : ExecutedBlock) : Prop where
  readable : ∀ (l : ℕ) (raw : Except Err AppTx) (result : ExecTxResult),
    b.block.txs[l]? = some raw → b.results[l]? = some result → Readable raw result
  decoded : ∀ place ∈ b.places, ∃ txData, place.msg.data = .ok txData

/-- The `i`-th message of a block is `msgIndex` of `txIndex`. -/
structure ListedAt (txHash : TxData → Hash) (b : ExecutedBlock) (i : ℕ) (msg : MsgEthereumTx)
    (txIndex msgIndex : ℕ) : Prop where
  message : ∃ tx m txData, b.block.txs[txIndex]? = some (.ok tx) ∧
    tx.msgs[msgIndex]? = some (.ethereumTx m) ∧ m.data = .ok txData ∧
    msg = { m with hash := quote (hashHex (txHash txData)) }
  number : ∃ before, ethMsgsFromTendermintBlock txHash (b.block.txs.take txIndex)
    (b.results.take txIndex) = .ok before ∧ i = before.length + msgIndex

variable {b : ExecutedBlock}

theorem length_places_lt (b : ExecutedBlock) : b.places.length < 2 ^ 31 := by
  have hsize := b.block.size
  have hle := length_listedPlaces_le b.block.txs b.results 0
  exact lt_of_le_of_lt hle (by omega)

theorem Parses.indexTxs (h : b.Parses) :
    TacEvm.indexTxs b.block.height b.block.txs b.results 0 0 = .ok b.saved ∧
      Saves b.block.height b.places 0 b.saved := by
  obtain ⟨saved, hindex, hsaves⟩ := @indexTxs_ok b.block.height b.block.txs b.results 0 0 b.length
    h.readable ((Nat.zero_add _).symm ▸ b.length_places_lt)
  have hsaved : b.saved = saved := by
    unfold ExecutedBlock.saved
    rw [show TacEvm.indexTxs b.block.height b.block.txs b.results 0 0 = .ok saved from hindex]
    rfl
  rw [hsaved]
  exact ⟨hindex, hsaves⟩

theorem Parses.ethMsgs (h : b.Parses) (txHash : TxData → Hash) :
    ethMsgsFromTendermintBlock txHash b.block.txs b.results =
      .ok (b.places.map fun place => place.msg.withTxHash txHash) :=
  ethMsgsFromTendermintBlock_ok txHash 0 b.length h.decoded

variable {r : Hash × TxResult}

theorem Parses.of_mem_saved (h : b.Parses) (hr : r ∈ b.saved) :
    ∃ i < b.places.length, r.2.height = b.block.height ∧ r.2.ethTxIndex = i := by
  obtain ⟨i, hi, hget⟩ := List.getElem_of_mem hr
  obtain ⟨place, hplace, hsaved⟩ := h.indexTxs.2.exists_place
    ((List.getElem?_eq_getElem hi).trans (congrArg some hget))
  rw [Nat.zero_add] at hsaved
  exact ⟨i, (List.getElem?_eq_some_iff.mp hplace).1, hsaved.height, hsaved.ethTxIndex⟩

theorem Parses.isIndex_of_mem (h : b.Parses) (hr : r ∈ b.saved) :
    IsIndex r.2.height r.2.ethTxIndex := by
  obtain ⟨i, hi, hheight, hindex⟩ := h.of_mem_saved hr
  have hlt := b.length_places_lt
  rw [hheight, hindex]
  exact ⟨b.block.height_pos, b.block.height_lt, by omega, by omega⟩

variable {i : ℕ} {place : Place}

theorem place_lt (h : b.places[i]? = some place) :
    place.txIndex < 2 ^ 32 ∧ place.msgIndex < 2 ^ 32 := by
  obtain ⟨l, raw, result, hraw, hresult, htx, hmsg, -⟩ := number_of_place h
  have hl : l < b.block.txs.length := (List.getElem?_eq_some_iff.mp hraw).1
  have hj := (List.getElem?_eq_some_iff.mp hmsg).1
  have hcount := length_listedMsgs_le raw result
  have hsum : messageCount raw ≤ (b.block.txs.map messageCount).sum :=
    List.le_sum_of_mem (List.mem_map_of_mem (List.mem_of_getElem? hraw))
  have hsize := b.block.size
  omega

/-- A listed message is saved with its number. -/
theorem Parses.saved_place (h : b.Parses) (txHash : TxData → Hash)
    (hplace : b.places[i]? = some place) :
    ∃ r ∈ b.saved, r.2.height = b.block.height ∧ r.2.ethTxIndex = i ∧
      ListedAt txHash b i (place.msg.withTxHash txHash) r.2.txIndex r.2.msgIndex := by
  obtain ⟨r, hr, hsaved⟩ := h.indexTxs.2.getElem? hplace
  obtain ⟨htxLt, hmsgLt⟩ := place_lt hplace
  rw [Nat.zero_add] at hsaved
  refine ⟨r, List.mem_of_getElem? hr, hsaved.height, hsaved.ethTxIndex, ?_⟩
  rw [hsaved.txIndex, hsaved.msgIndex, Nat.mod_eq_of_lt htxLt, Nat.mod_eq_of_lt hmsgLt]
  obtain ⟨l, raw, result, hraw, hresult, htx, hmsg, hnumber⟩ := number_of_place hplace
  rw [Nat.zero_add] at htx
  obtain ⟨txData, hdata⟩ := h.decoded place (List.mem_of_getElem? hplace)
  constructor
  · obtain ⟨tx, rfl, hmsgs⟩ := (h.readable l raw result hraw hresult).getElem?_msgs hmsg
    refine ⟨tx, place.msg, txData, htx ▸ hraw, hmsgs, hdata, ?_⟩
    rw [MsgEthereumTx.withTxHash, hdata]
  rw [htx]
  have hbefore : ∀ place' ∈ listedPlaces (b.block.txs.take l) (b.results.take l) 0,
      ∃ txData, place'.msg.data = .ok txData := by
    intro place' hplace'
    exact h.decoded place' ((listedPlaces_take_sublist _ _ l 0).subset hplace')
  refine ⟨_, ethMsgsFromTendermintBlock_ok txHash 0 ?_ hbefore, ?_⟩
  · rw [List.length_take, List.length_take, b.length]
  · rw [List.length_map]
    exact hnumber

end ExecutedBlock

/-! ## What is saved for a set of blocks -/

namespace Saves

variable {height : ℤ} {places : List Place} {start : ℕ} {saved : List (Hash × TxResult)}

theorem map_fst (h : Saves height places start saved) :
    saved.map Prod.fst = places.map fun place => hexToHash (ascii place.msg.hash.toList) := by
  induction places generalizing start saved with
  | nil =>
    cases h
    rfl
  | cons place places ih =>
    obtain ⟨head, rest, rfl, hhead, hrest⟩ := h
    rw [List.map_cons, List.map_cons, hhead.hash, ih hrest]

theorem map_index (h : Saves height places start saved) :
    (saved.map fun r => (r.2.height, r.2.ethTxIndex)) =
      (List.range' start places.length).map fun i : ℕ => (height, (i : ℤ)) := by
  induction places generalizing start saved with
  | nil =>
    cases h
    rfl
  | cons place places ih =>
    obtain ⟨head, rest, rfl, hhead, hrest⟩ := h
    rw [List.map_cons, hhead.height, hhead.ethTxIndex, ih hrest, List.length_cons,
      List.range'_succ, List.map_cons]

end Saves

section Blocks

variable {blocks : List ExecutedBlock}

/-- `IndexBlock`, for one block after the other. -/
def indexBlocks (codec : ResultCodec) (db : IndexDb) (blocks : List ExecutedBlock) :
    Except Err IndexDb :=
  blocks.foldlM (fun db b => indexBlock codec db b.block b.results) db

/-- What is saved for all blocks. -/
def allSaved (blocks : List ExecutedBlock) : List (Hash × TxResult) :=
  blocks.flatMap ExecutedBlock.saved

theorem indexBlocks_ok (codec : ResultCodec) (h : ∀ b ∈ blocks, b.Parses) (db : IndexDb) :
    indexBlocks codec db blocks = .ok ((allSaved blocks).foldl (saveTxResult codec) db) := by
  induction blocks generalizing db with
  | nil => rfl
  | cons b blocks ih =>
    obtain ⟨hhead, hrest⟩ := List.forall_mem_cons.mp h
    have hblock : indexBlock codec db b.block b.results =
        .ok (b.saved.foldl (saveTxResult codec) db) := by
      rw [indexBlock, hhead.indexTxs.1]
      rfl
    rw [indexBlocks, List.foldlM_cons, hblock]
    rw [allSaved, List.flatMap_cons, List.foldl_append]
    exact ih hrest _

/-- **No result overwrites another one.** -/
theorem distinct_allSaved (hheights : (blocks.map fun b => b.block.height).Nodup)
    (hparses : ∀ b ∈ blocks, b.Parses) (hhashes : (blocks.flatMap ExecutedBlock.hashes).Nodup) :
    Distinct (allSaved blocks) := by
  refine ⟨?_, ?_, ?_⟩
  · have hmap : (allSaved blocks).map Prod.fst = blocks.flatMap ExecutedBlock.hashes := by
      rw [allSaved, List.map_flatMap]
      exact List.flatMap_congr fun b hb => (hparses b hb).indexTxs.2.map_fst
    rw [hmap]
    exact hhashes
  · rw [allSaved, List.map_flatMap, List.nodup_flatMap]
    constructor
    · intro b hb
      rw [(hparses b hb).indexTxs.2.map_index]
      refine List.Nodup.map ?_ List.nodup_range'
      intro i j hij
      exact Int.natCast_inj.mp (Prod.mk.inj hij).2
    · refine (List.pairwise_map.mp hheights).imp_of_mem fun {b b'} hb hb' hne => ?_
      rintro ⟨height, index⟩ hmem hmem'
      obtain ⟨r, hr, heq⟩ := List.mem_map.mp hmem
      obtain ⟨r', hr', heq'⟩ := List.mem_map.mp hmem'
      obtain ⟨_, _, hheight, -⟩ := (hparses b hb).of_mem_saved hr
      obtain ⟨_, _, hheight', -⟩ := (hparses b' hb').of_mem_saved hr'
      apply hne
      rw [← hheight, ← hheight', (Prod.mk.inj heq).1, (Prod.mk.inj heq').1]
  · intro r hr
    obtain ⟨b, hb, hmem⟩ := List.mem_flatMap.mp hr
    exact (hparses b hb).isIndex_of_mem hmem

/-- The heights of the blocks with a listed message. -/
def messageHeights (txHash : TxData → Hash) (blocks : List ExecutedBlock) : Set ℤ :=
  {height | ∃ b ∈ blocks, b.block.height = height ∧
    ∃ msg msgs, ethMsgsFromTendermintBlock txHash b.block.txs b.results = .ok (msg :: msgs)}

theorem mem_messageHeights (txHash : TxData → Hash) (hparses : ∀ b ∈ blocks, b.Parses) :
    height ∈ messageHeights txHash blocks ↔ ∃ r ∈ allSaved blocks, r.2.height = height := by
  constructor
  · rintro ⟨b, hb, rfl, msg, msgs, hmsgs⟩
    have hlist := Except.ok.inj (((hparses b hb).ethMsgs txHash).symm.trans hmsgs)
    cases hplaces : b.places with
    | nil =>
      rw [hplaces] at hlist
      cases hlist
    | cons place places =>
      have hplace : b.places[0]? = some place := by
        rw [hplaces]
        rfl
      obtain ⟨r, hr, hheight, -⟩ := (hparses b hb).saved_place txHash hplace
      exact ⟨r, List.mem_flatMap.mpr ⟨b, hb, hr⟩, hheight⟩
  · rintro ⟨r, hr, rfl⟩
    obtain ⟨b, hb, hmem⟩ := List.mem_flatMap.mp hr
    obtain ⟨i, hi, hheight, -⟩ := (hparses b hb).of_mem_saved hmem
    refine ⟨b, hb, hheight.symm, ?_⟩
    rw [(hparses b hb).ethMsgs txHash]
    cases hplaces : b.places with
    | nil =>
      rw [hplaces] at hi
      cases hi
    | cons place places => exact ⟨_, _, rfl⟩

variable {b : ExecutedBlock}

theorem getByBlockAndIndex_place (codec : ResultCodec) (txHash : TxData → Hash)
    (hparses : ∀ b ∈ blocks, b.Parses) (hdistinct : Distinct (allSaved blocks)) (hb : b ∈ blocks)
    {i : ℕ} {place : Place} (hplace : b.places[i]? = some place) :
    ∃ r, getByBlockAndIndex codec (savedDb codec (allSaved blocks)) b.block.height i = .ok r ∧
      r.height = b.block.height ∧
      b.ListedAt txHash i (place.msg.withTxHash txHash) r.txIndex r.msgIndex := by
  obtain ⟨r, hr, hheight, hindex, hlisted⟩ := (hparses b hb).saved_place txHash hplace
  have hfound := hdistinct.getByBlockAndIndex codec (List.mem_flatMap.mpr ⟨b, hb, hr⟩)
  rw [hheight, hindex] at hfound
  exact ⟨r.2, hfound, hheight, hlisted⟩

theorem of_getByBlockAndIndex (codec : ResultCodec)
    (hheights : (blocks.map fun b => b.block.height).Nodup) (hparses : ∀ b ∈ blocks, b.Parses)
    (hdistinct : Distinct (allSaved blocks)) (hb : b ∈ blocks) {i : ℤ}
    (hi : -2 ^ 31 ≤ i ∧ i < 2 ^ 31) {result : TxResult}
    (h : getByBlockAndIndex codec (savedDb codec (allSaved blocks)) b.block.height i =
      .ok result) : 0 ≤ i ∧ i < b.places.length := by
  obtain ⟨r, hr, hheight, hindex⟩ := hdistinct.of_getByBlockAndIndex
    ⟨b.block.height_pos, b.block.height_lt, hi.1, hi.2⟩ h
  obtain ⟨b', hb', hmem⟩ := List.mem_flatMap.mp hr
  obtain ⟨n, hn, hheight', hindex'⟩ := (hparses b' hb').of_mem_saved hmem
  -- there is one block with the height
  have hsame : b' = b :=
    List.inj_on_of_nodup_map hheights hb' hb (hheight'.symm.trans hheight)
  subst hsame
  omega

/-- **The indexer agrees with the list of the messages of a block.** A number is found if it is
listed, and leads to its message; the first and last indexed blocks are the lowest and highest. -/
theorem indexer_lookup (codec : ResultCodec) (txHash : TxData → Hash)
    (hheights : (blocks.map fun b => b.block.height).Nodup) (hparses : ∀ b ∈ blocks, b.Parses)
    (hhashes : (blocks.flatMap ExecutedBlock.hashes).Nodup) :
    ∃ db, indexBlocks codec [] blocks = .ok db ∧
      (∀ b ∈ blocks, ∃ msgs,
        ethMsgsFromTendermintBlock txHash b.block.txs b.results = .ok msgs ∧
        (∀ i : ℤ, -2 ^ 31 ≤ i ∧ i < 2 ^ 31 →
          ((∃ r, getByBlockAndIndex codec db b.block.height i = .ok r) ↔ 0 ≤ i ∧ i < msgs.length)) ∧
        ∀ (i : ℕ) (msg : MsgEthereumTx), msgs[i]? = some msg →
          ∃ r, getByBlockAndIndex codec db b.block.height i = .ok r ∧
            r.height = b.block.height ∧ b.ListedAt txHash i msg r.txIndex r.msgIndex) ∧
      ∃ first last, loadFirstBlock db = .ok first ∧ loadLastBlock db = .ok last ∧
        ((messageHeights txHash blocks).Nonempty →
          IsLeast (messageHeights txHash blocks) first ∧
          IsGreatest (messageHeights txHash blocks) last) ∧
        (messageHeights txHash blocks = ∅ → first = -1 ∧ last = -1) := by
  have hdistinct := distinct_allSaved hheights hparses hhashes
  refine ⟨savedDb codec (allSaved blocks), indexBlocks_ok codec hparses [], ?_, ?_⟩
  · intro b hb
    refine ⟨_, (hparses b hb).ethMsgs txHash, ?_, ?_⟩
    · intro i hi
      rw [List.length_map]
      constructor
      · rintro ⟨result, hfound⟩
        exact of_getByBlockAndIndex codec hheights hparses hdistinct hb hi hfound
      rintro ⟨hpos, hlt⟩
      obtain ⟨n, rfl⟩ := Int.eq_ofNat_of_zero_le hpos
      obtain ⟨r, hfound, -⟩ := getByBlockAndIndex_place codec txHash hparses hdistinct hb
        (List.getElem?_eq_getElem (Int.ofNat_lt.mp hlt))
      exact ⟨r, hfound⟩
    · intro i msg hmsg
      rw [List.getElem?_map] at hmsg
      obtain ⟨place, hplace, rfl⟩ := Option.map_eq_some_iff.mp hmsg
      exact getByBlockAndIndex_place codec txHash hparses hdistinct hb hplace
  · by_cases hsaved : allSaved blocks = []
    · have hempty : ¬ (messageHeights txHash blocks).Nonempty := by
        rintro ⟨height, hheight⟩
        obtain ⟨r, hr, -⟩ := (mem_messageHeights txHash hparses).mp hheight
        rw [hsaved] at hr
        cases hr
      rw [hsaved]
      exact ⟨-1, -1, rfl, rfl, fun h => absurd h hempty, fun _ => ⟨rfl, rfl⟩⟩
    · obtain ⟨r, hr, hfirst, hleast⟩ := hdistinct.loadFirstBlock codec hsaved
      obtain ⟨r', hr', hlast, hgreatest⟩ := hdistinct.loadLastBlock codec hsaved
      have hmem : ∀ {height : ℤ}, height ∈ messageHeights txHash blocks ↔ _ :=
        mem_messageHeights txHash hparses
      refine ⟨r.2.height, r'.2.height, hfirst, hlast, fun _ => ⟨⟨?_, ?_⟩, ⟨?_, ?_⟩⟩, ?_⟩
      · exact hmem.mpr ⟨r, hr, rfl⟩
      · intro height hheight
        obtain ⟨r₁, hr₁, rfl⟩ := hmem.mp hheight
        exact hleast r₁ hr₁
      · exact hmem.mpr ⟨r', hr', rfl⟩
      · intro height hheight
        obtain ⟨r₁, hr₁, rfl⟩ := hmem.mp hheight
        exact hgreatest r₁ hr₁
      · intro hempty
        exact absurd (hempty ▸ hmem.mpr ⟨r, hr, rfl⟩ : r.2.height ∈ (∅ : Set ℤ)) id

end Blocks

/-- What a result consists of. -/
abbrev Devnet.ResultFields := ℤ × ℕ × ℕ × ℤ × Bool × ℕ × ℕ

def Devnet.resultFields (r : TxResult) : ResultFields :=
  (r.height, r.txIndex, r.msgIndex, r.ethTxIndex, r.failed, r.gasUsed.toNat,
    r.cumulativeGasUsed.toNat)

def Devnet.resultOfFields : ResultFields → TxResult
  | (height, txIndex, msgIndex, ethTxIndex, failed, gasUsed, cumulativeGasUsed) =>
    { height := height
      txIndex := txIndex
      msgIndex := msgIndex
      ethTxIndex := ethTxIndex
      failed := failed
      gasUsed := UInt64.ofNat gasUsed
      cumulativeGasUsed := UInt64.ofNat cumulativeGasUsed }

/-- A codec for results: the number of their fields, after a byte. -/
def Devnet.resultCodec : ResultCodec where
  marshal := fun r => 1 :: bigBytes (Encodable.encode (resultFields r))
  unmarshal := fun bz =>
    match (Encodable.decode (beNat bz.tail) : Option ResultFields) with
    | none => .error (.errorf "invalid result" [])
    | some fields => .ok (resultOfFields fields)
  unmarshal_marshal := by
    intro r
    rw [List.tail_cons, beNat_bigBytes, Encodable.encodek]
    dsimp only
    rw [resultFields, resultOfFields, UInt64.ofNat_toNat, UInt64.ofNat_toNat]
  marshal_ne_nil := fun _ _ => List.cons_ne_nil _ _

/-- A block with two payments and their results. -/
def Devnet.executedBlock : ExecutedBlock where
  block := paymentBlock 0 0
  results := (runTxs blockingChain (app payingEvm) [payment 0 0, payment 1 0] (chainState 100000)).1
  length := length_runTxs _ _

theorem Devnet.executedBlock_parses : executedBlock.Parses where
  readable := by
    intro l raw result hraw hresult
    have heth : ∀ tx ∈ [payment 0 0, payment 1 0], ∃ msgs, tx.IsEthereum msgs := by
      intro tx htx
      rcases List.mem_pair.mp htx with rfl | rfl
      · exact payment_isEthereum 0 0
      · exact payment_isEthereum 1 0
    exact readable_runTxs (payingEvm_emits _) heth rfl (by decide) hraw hresult
  decoded := by
    have hall : (executedBlock.places.all fun place => place.msg.data.isOk) = true := by
      decide +kernel
    intro place hplace
    have hok := List.all_eq_true.mp hall place hplace
    cases hdata : place.msg.data with
    | error e =>
      rw [hdata] at hok
      cases hok
    | ok txData => exact ⟨txData, rfl⟩

/-- A block of two payments: the second one is found. -/
theorem indexer_lookup_devnet :
    ∃ db, indexBlocks resultCodec [] [executedBlock] = .ok db ∧
      (∃ r, getByBlockAndIndex resultCodec db 1 1 = .ok r) ∧
      loadFirstBlock db = .ok 1 := by
  have hhashes : ([executedBlock].flatMap ExecutedBlock.hashes).Nodup := by
    rw [List.flatMap_singleton]
    decide +kernel
  have hcount : (ethMsgsFromTendermintBlock blockingChain.txHash
      executedBlock.block.txs executedBlock.results).map List.length = .ok 2 := by
    decide +kernel
  obtain ⟨db, hdb, hfound, first, last, hfirst, -, hbounds, -⟩ :=
    @indexer_lookup [executedBlock] resultCodec blockingChain.txHash
      (List.nodup_singleton executedBlock.block.height)
      (fun b hb => List.mem_singleton.mp hb ▸ executedBlock_parses) hhashes
  obtain ⟨msgs, hmsgs, hindex, -⟩ := hfound _ List.mem_cons_self
  rw [hmsgs] at hcount
  have hlength : msgs.length = 2 := Except.ok.inj hcount
  refine ⟨db, hdb, (hindex 1 (by decide)).mpr ⟨by decide, by omega⟩, ?_⟩
  -- there is only one height
  have hnonempty : (messageHeights blockingChain.txHash [executedBlock]).Nonempty := by
    obtain ⟨msg, rest, rfl⟩ := List.exists_cons_of_length_eq_add_one hlength
    exact ⟨_, _, List.mem_cons_self, rfl, msg, rest, hmsgs⟩
  obtain ⟨b, hb, hheight, -⟩ := (hbounds hnonempty).1.1
  rw [List.mem_singleton.mp hb] at hheight
  rw [hfirst, ← hheight]
  rfl

end TacEvm
