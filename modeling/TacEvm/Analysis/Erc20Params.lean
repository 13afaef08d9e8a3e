import TacEvm.Analysis.CommitSpec
import TacEvm.Model.Devnet
import TacEvm.Model.Erc20Keeper

/-!
# The parameters of `x/erc20`

The lists of `SetParams` are read back as they were exactly if every address is written with its
`0x`. The code hash of an account is the last thing done to it (`Recoded`), and the dynamic list
comes before the native one.
-/

namespace TacEvm.Erc20Keeper

open FallibleState Store Params

variable {env : Env} {cfg : Config}

/-- The addresses of a list. -/
def addresses (precompiles : List Bytes) : List Address := precompiles.map hexToAddress

variable {l : List Bytes}

/-- What the loop over a list accepts. -/
theorem validateAddresses_ok {addrs : List Address} (h : validateAddresses l = .ok addrs) :
    (∀ s ∈ l, isHexAddress s = true) ∧ addrs = addresses l := by
  induction l generalizing addrs with
  | nil =>
    cases h
    simp [addresses]
  | cons s l ih =>
    unfold validateAddresses at h
    split at h
    · rename_i hs
      cases hrest : validateAddresses l with
      | error e =>
        rw [hrest] at h
        cases h
      | ok rest =>
        rw [hrest] at h
        cases h
        obtain ⟨hvalid, rfl⟩ := ih hrest
        refine ⟨fun t ht => ?_, rfl⟩
        rcases List.mem_cons.mp ht with rfl | ht
        · exact hs
        · exact hvalid t ht
    · cases h

/-- What is accepted as a list. -/
theorem validatePrecompiles_ok {addrs : List Address} (h : validatePrecompiles l = .ok addrs) :
    (∀ s ∈ l, isHexAddress s = true) ∧ l.Pairwise (· ≤ ·) ∧ addrs = addresses l := by
  obtain ⟨addrs', hvalid, h⟩ := except_bind_ok.mp h
  obtain ⟨hhex, rfl⟩ := validateAddresses_ok hvalid
  split at h
  · rename_i hsorted
    cases h
    exact ⟨hhex, of_decide_eq_true hsorted, rfl⟩
  · cases h

/-- No address comes twice. -/
theorem validatePrecompilesUniqueness_ok {seen l : List Address}
    (h : validatePrecompilesUniqueness seen l = .ok ()) :
    l.Nodup ∧ ∀ a ∈ l, a ∉ seen := by
  induction l generalizing seen with
  | nil => simp
  | cons a l ih =>
    unfold validatePrecompilesUniqueness at h
    split at h
    · cases h
    rename_i hnew
    obtain ⟨hnodup, hfresh⟩ := ih h
    constructor
    · rw [List.nodup_cons]
      refine ⟨fun ha => ?_, hnodup⟩
      exact hfresh a ha List.mem_cons_self
    intro b hb
    rcases List.mem_cons.mp hb with rfl | hb
    · exact hnew
    · intro hseen
      exact hfresh b hb (List.mem_cons_of_mem a hseen)

/-- What `Validate` promises. -/
structure Params.Valid (p : Params) : Prop where
  hex : ∀ s ∈ p.nativePrecompiles ++ p.dynamicPrecompiles, isHexAddress s = true
  nativeSorted : p.nativePrecompiles.Pairwise (· ≤ ·)
  dynamicSorted : p.dynamicPrecompiles.Pairwise (· ≤ ·)
  unique : (addresses p.dynamicPrecompiles ++ addresses p.nativePrecompiles).Nodup

variable {p : Params}

/-- What is accepted as parameters. -/
theorem Params.valid (h : p.validate = .ok ()) : p.Valid := by
  obtain ⟨npAddrs, hnative, h⟩ := except_bind_ok.mp h
  obtain ⟨dpAddrs, hdynamic, h⟩ := except_bind_ok.mp h
  obtain ⟨hhex, hsorted, rfl⟩ := validatePrecompiles_ok hnative
  obtain ⟨hhex', hsorted', rfl⟩ := validatePrecompiles_ok hdynamic
  refine ⟨fun s hs => ?_, hsorted, hsorted', (validatePrecompilesUniqueness_ok h).1⟩
  rcases List.mem_append.mp hs with hs | hs
  · exact hhex s hs
  · exact hhex' s hs

/-- The parameters with their lists in order. -/
def Params.sorted (p : Params) : Params :=
  newParams p.enableErc20 p.nativePrecompiles p.dynamicPrecompiles

/-- Valid lists are in order. -/
theorem Params.Valid.sorted_eq (h : p.Valid) : p.sorted = p := by
  unfold sorted newParams sortStrings
  rw [h.nativeSorted.insertionSort_eq, h.dynamicSorted.insertionSort_eq]

/-! ## Reading back the lists -/

/-- The two lengths of an address. -/
theorem length_eq_iff {s : Bytes} (h : isHexAddress s = true) :
    s.length = addressLength ↔ has0xPrefix s = true := by
  unfold isHexAddress trim0xPrefix at h
  rw [Bool.and_eq_true] at h
  have hlength := of_decide_eq_true h.1
  unfold addressLength
  by_cases hfront : has0xPrefix s = true
  · rw [if_pos hfront, List.length_drop] at hlength
    simp only [hfront, iff_true]
    omega
  rw [if_neg hfront] at hlength
  constructor
  · intro hlong
    omega
  · intro h
    exact absurd h hfront

variable {st st' : AppStore}

/-- The parameters that are read. -/
theorem getParams_ok (h : getParams st = .ok p) :
    ∃ nps dps, getNativePrecompiles st = .ok nps ∧ getDynamicPrecompiles st = .ok dps ∧
      p = newParams st.rest.enableErc20 nps dps := by
  obtain ⟨dps, hdynamic, h⟩ := except_bind_ok.mp h
  obtain ⟨nps, hnative, h⟩ := except_bind_ok.mp h
  cases h
  exact ⟨nps, dps, hnative, hdynamic, rfl⟩

/-- Pieces have the length of an address. -/
theorem length_of_mem_getPrecompiles {bz spare : Bytes} (h : getPrecompiles bz spare = .ok l) :
    ∀ s ∈ l, s.length = addressLength := by
  unfold getPrecompiles at h
  dsimp only at h
  split at h
  · rename_i hrecords
    cases h
    exact FixedWidth.length_of_mem_cut hrecords
  · cases h

/-- Addresses of that length leave nothing to fill. -/
theorem getPrecompiles_setPrecompiles {spare : Bytes} (h : ∀ s ∈ l, s.length = addressLength) :
    getPrecompiles (setPrecompiles l) spare = .ok l := by
  unfold getPrecompiles setPrecompiles
  have hmissing : (addressLength - l.flatten.length % addressLength) % addressLength = 0 := by
    rw [FixedWidth.length_flatten h, Nat.mul_mod_left]
    rfl
  dsimp only
  rw [hmissing, List.take_zero, List.append_nil,
    (FixedWidth.records_flatten_iff (by decide) l).mpr h]

/-- The store holds parameters as `SetParams` writes them. -/
structure Params.Stored (p : Params) (store : Erc20Store) : Prop where
  enableErc20 : store.enableErc20 = p.enableErc20
  dynamic : store.dynamicPrecompiles = setPrecompiles p.dynamicPrecompiles
  native : store.nativePrecompiles = setPrecompiles p.nativePrecompiles

/-- Every address is written with its `0x`. -/
def Params.Spelled (p : Params) : Prop :=
  ∀ s ∈ p.nativePrecompiles ++ p.dynamicPrecompiles, has0xPrefix s = true

/-- Stored parameters are read back just if they are spelled. -/
theorem Params.Stored.getParams_iff (h : p.Stored st.rest) (hp : p.Valid) :
    getParams st = .ok p ↔ p.Spelled := by
  have hlength := forall₂_congr fun s hs => (length_eq_iff (hp.hex s hs)).symm
  unfold Params.Spelled
  rw [hlength]
  constructor
  · intro hget s hs
    obtain ⟨nps, dps, hnative, hdynamic, heq⟩ := getParams_ok hget
    rw [heq] at hs
    -- sorting has permuted the pieces
    rcases List.mem_append.mp hs with hs | hs
    · exact length_of_mem_getPrecompiles hnative s ((List.mem_insertionSort (· ≤ ·)).mp hs)
    · exact length_of_mem_getPrecompiles hdynamic s ((List.mem_insertionSort (· ≤ ·)).mp hs)
  · intro hall
    have hnative := @getPrecompiles_setPrecompiles p.nativePrecompiles st.rest.nativeSpare
      fun s hs => hall s (List.mem_append_left _ hs)
    have hdynamic := @getPrecompiles_setPrecompiles p.dynamicPrecompiles st.rest.dynamicSpare
      fun s hs => hall s (List.mem_append_right _ hs)
    unfold getParams getNativePrecompiles getDynamicPrecompiles
    rw [h.native, h.dynamic, h.enableErc20]
    simp only [hnative, hdynamic, bind, Except.bind, pure, Except.pure]
    exact congrArg Except.ok hp.sorted_eq

/-- `SetParams` has updated the code hashes and stored the lists. -/
theorem setParams_ok (h : (setParams env cfg p).run st = .ok () st') :
    ∃ st₁, (updateCodeHash env cfg p.sorted).run st = .ok () st₁ ∧
      st' = { st₁ with
        rest := { st₁.rest with
          enableErc20 := p.sorted.enableErc20
          dynamicPrecompiles := setPrecompiles p.sorted.dynamicPrecompiles
          dynamicSpare := spareCapacity p.sorted.dynamicPrecompiles
          nativePrecompiles := setPrecompiles p.sorted.nativePrecompiles
          nativeSpare := spareCapacity p.sorted.nativePrecompiles } } := by
  obtain ⟨_, -, hrest⟩ := KeeperM.check_bind_ok.mp h
  obtain ⟨_, st₁, hupdate, hstore⟩ := bind_ok.mp hrest
  refine ⟨st₁, hupdate, ?_⟩
  cases hstore
  rfl

/-- It stores the parameters. -/
theorem setParams_stored (hp : p.Valid) (hset : (setParams env cfg p).run st = .ok () st') :
    p.Stored st'.rest := by
  obtain ⟨st₁, -, rfl⟩ := setParams_ok hset
  rw [hp.sorted_eq]
  exact ⟨rfl, rfl, rfl⟩

/-- The state with other slices for the stored lists. -/
def reloaded (dynamicSpare nativeSpare : Bytes) (st : AppStore) : AppStore :=
  { st with
    rest := { st.rest with dynamicSpare := dynamicSpare, nativeSpare := nativeSpare } }

/-- **Round trip of the parameters**: they are returned if and only if every address is written with
its `0x`. -/
theorem getParams_setParams_iff {p : Params} {st st' : AppStore} (hvalid : p.validate = .ok ())
    (hset : (setParams env cfg p).run st = .ok () st') :
    (getParams st' = .ok p ↔ p.Spelled) ∧
      ∀ dynamicSpare nativeSpare,
        getParams (reloaded dynamicSpare nativeSpare st') = .ok p ↔ p.Spelled := by
  have hp := valid hvalid
  have hstored := setParams_stored hp hset
  have hreloaded (dynamicSpare nativeSpare : Bytes) :
      p.Stored (reloaded dynamicSpare nativeSpare st').rest :=
    ⟨hstored.enableErc20, hstored.dynamic, hstored.native⟩
  exact ⟨hstored.getParams_iff hp, fun _ _ => (hreloaded _ _).getParams_iff hp⟩

/-! ## What is done to the accounts -/

/-- The code hash an account ends with: the last one it was given. -/
def finalHash (ops : List (Address × Hash)) (a : Address) (h : Hash) : Hash :=
  ops.foldl (fun h op => if op.1 = a then op.2 else h) h

@[simp]
theorem finalHash_append (ops ops' : List (Address × Hash)) (a : Address) (h : Hash) :
    finalHash (ops ++ ops') a h = finalHash ops' a (finalHash ops a h) := by
  simp [finalHash]

/-- Of one hash for several addresses. -/
theorem finalHash_map (l : List Bytes) (h' : Hash) (a : Address) (h : Hash) :
    finalHash (l.map fun s => (hexToAddress s, h')) a h = if a ∈ addresses l then h' else h := by
  induction l using List.reverseRecOn with
  | nil => rfl
  | append_singleton l s ih =>
    rw [List.map_append, finalHash_append, ih]
    unfold addresses
    by_cases hs : hexToAddress s = a
    · simp [finalHash, hs]
    · simp [finalHash, hs, Ne.symm hs]

/-- The accounts after code hashes were set in order. A missing one is made, and loses its coins. -/
structure Recoded (env : Env) (ops : List (Address × Hash)) (st st' : AppStore) : Prop where
  codeHash : ∀ a, st'.getCodeHash env a = finalHash ops a (st.getCodeHash env a)
  sequence : ∀ a, st'.sequence a =
    if a ∈ ops.map Prod.fst then some (st.getNonce a) else st.sequence a
  balance : ∀ a d, st'.balance a d =
    if d = env.evmDenom ∧ a ∈ ops.map Prod.fst ∧ st.sequence a = none then 0 else st.balance a d
  rest : st'.rest = st.rest

namespace Recoded

variable {ops ops' : List (Address × Hash)} {st st' st'' : AppStore}

theorem refl (st : AppStore) : Recoded env [] st st :=
  ⟨fun _ => rfl, fun _ => by simp, fun _ _ => by simp, rfl⟩

theorem nonce (h : Recoded env ops st st') (a : Address) : st'.getNonce a = st.getNonce a := by
  unfold getNonce
  rw [h.sequence a]
  split
  · rfl
  · rfl

theorem trans (h : Recoded env ops st st') (h' : Recoded env ops' st' st'') :
    Recoded env (ops ++ ops') st st'' := by
  refine ⟨fun a => ?_, fun a => ?_, fun a d => ?_, h'.rest.trans h.rest⟩
  · rw [h'.codeHash, h.codeHash, finalHash_append]
  · rw [h'.sequence, h.sequence, h.nonce, List.map_append]
    by_cases h₁ : a ∈ ops.map Prod.fst <;> by_cases h₂ : a ∈ ops'.map Prod.fst <;> simp [h₁, h₂]
  · rw [h'.balance, h.balance, h.sequence, List.map_append]
    by_cases h₁ : a ∈ ops.map Prod.fst <;> by_cases h₂ : a ∈ ops'.map Prod.fst <;>
      by_cases h₃ : d = env.evmDenom <;> by_cases h₄ : st.sequence a = none <;>
        simp [h₁, h₂, h₃, h₄]

theorem congr (h : Recoded env ops st st') {st₀ : AppStore}
    (hsame : st.accountState = st₀.accountState) (hrest : st.rest = st₀.rest) :
    Recoded env ops st₀ st' := by
  have hsequence : st.sequence = st₀.sequence := by
    funext a
    exact congrArg AccountState.sequence (congrFun hsame a)
  have hcodeHash : st.codeHash = st₀.codeHash := by
    funext a
    exact congrArg AccountState.codeHash (congrFun hsame a)
  have hbalance : st.balance = st₀.balance := by
    funext a
    exact congrArg AccountState.balance (congrFun hsame a)
  refine ⟨fun a => ?_, fun a => ?_, fun a d => ?_, h.rest.trans hrest⟩
  · rw [h.codeHash a, getCodeHash, getCodeHash, hcodeHash]
  · rw [h.sequence a, getNonce, getNonce, hsequence]
  · rw [h.balance a d, hsequence, hbalance]

end Recoded

/-- One account is recoded. -/
theorem setCodeHashOf_ok {a : Address} {h : Hash}
    (hrun : (setCodeHashOf env a h).run st = .ok () st') : Recoded env [(a, h)] st st' := by
  -- both branches write the balance that was read, in bank units
  obtain ⟨nonce, units, hnonce, hunits, hset⟩ : ∃ (nonce : UInt64) (units : ℕ),
      nonce = st.getNonce a ∧
      units = (if st.sequence a = none then 0 else st.balance a env.evmDenom) ∧
      (Keeper.setAccount env a ⟨nonce, (units : ℤ) * env.conversionFactor, h⟩).run st =
        .ok () st' := by
    unfold setCodeHashOf at hrun
    rw [run_get_bind] at hrun
    cases hsequence : st.sequence a with
    | none =>
      simp only [getAccount, hsequence, Option.map_none] at hrun
      exact ⟨0, 0, by simp [getNonce, hsequence], by simp, by simpa using hrun⟩
    | some seq =>
      simp only [getAccount, hsequence, Option.map_some] at hrun
      exact ⟨seq, st.balance a env.evmDenom, by simp [getNonce, hsequence], by simp, hrun⟩
  have hbalance := hset
  obtain ⟨-, -, rfl⟩ := Keeper.setBalance_ok hbalance
  rw [Int.toNat_natCast]
  refine ⟨fun b => ?_, fun b => ?_, fun b d => ?_, rfl⟩ <;>
    simp only [Keeper.balanceSet, setSupply, setBankBalance, setSequence, setCodeHash,
      getCodeHash] <;>
    by_cases hb : b = a
  · subst hb
    by_cases hempty : h = env.emptyCodeHash <;> simp [finalHash, hempty]
  · simp [finalHash, Ne.symm hb, hb]
  · simp [hb, hnonce]
  · simp [hb]
  · by_cases hd : d = env.evmDenom
    · simp [hb, hd, hunits]
    · simp [hb, hd]
  · simp [hb]

/-! ## What is done for two lists -/

/-- An address that the second list does not have in this spelling. -/
def Differs (l l' : List Bytes) (a : Address) : Prop := ∃ s ∈ l, s ∉ l' ∧ hexToAddress s = a

/-- The addresses that are in one list only. -/
theorem mem_addresses_filter (l l' : List Bytes) (a : Address) :
    a ∈ addresses (l.filter (· ∉ l')) ↔ Differs l l' a := by
  simp [addresses, Differs, and_assoc]

variable (env cfg) in
/-- The code hashes set when a list is replaced. -/
def registrations (old new : List Bytes) : List (Address × Hash) :=
  ((old.filter (· ∉ new)).map fun s => (hexToAddress s, env.emptyCodeHash)) ++
    (new.filter (· ∉ old)).map fun s => (hexToAddress s, erc20CodeHash env cfg)

open Classical in
/-- What two lists come to for an address. -/
theorem finalHash_registrations (old new : List Bytes) (a : Address) (h : Hash) :
    finalHash (registrations env cfg old new) a h =
      if Differs new old a then erc20CodeHash env cfg
      else if Differs old new a then env.emptyCodeHash else h := by
  unfold registrations
  rw [finalHash_append, finalHash_map, finalHash_map]
  simp only [mem_addresses_filter]

/-- The addresses that are written. -/
theorem mem_registrations (old new : List Bytes) (a : Address) :
    a ∈ (registrations env cfg old new).map Prod.fst ↔ Differs old new a ∨ Differs new old a := by
  unfold registrations
  rw [List.map_append, List.mem_append, List.map_map, List.map_map,
    ← mem_addresses_filter, ← mem_addresses_filter]
  rfl

/-- A loop that recodes accounts. -/
theorem forM_recoded {f : Bytes → Erc20M Unit} {h : Hash}
    (hf : ∀ s st st', (f s).run st = .ok () st' → Recoded env [(hexToAddress s, h)] st st')
    (hrun : (l.forM f).run st = .ok () st') :
    Recoded env (l.map fun s => (hexToAddress s, h)) st st' := by
  refine forM_ok (fun done st₁ => Recoded env (done.map fun s => (hexToAddress s, h)) st st₁)
    hrun (Recoded.refl st) ?_
  intro done s rest st₁ st₂ _ hdone hround
  rw [List.map_append]
  exact hdone.trans (hf s st₁ st₂ hround)

/-- The accounts after two lists were compared. -/
theorem registerOrUnregisterERC20CodeHashes_ok {old new : List Bytes}
    (hrun : (registerOrUnregisterERC20CodeHashes env cfg old new).run st = .ok () st') :
    Recoded env (registrations env cfg old new) st st' := by
  obtain ⟨_, st₁, hold, hnew⟩ := bind_ok.mp hrun
  refine (forM_recoded (fun s st st' hround => setCodeHashOf_ok hround) hold).trans
    (forM_recoded (fun s st st' hround => ?_) hnew)
  -- storing the code leaves the accounts alone
  refine (setCodeHashOf_ok hround).congr ?_ ?_
  all_goals
    dsimp only
    split <;> rfl

/-- The accounts after both pairs of lists were. -/
theorem updateCodeHash_ok {old new : Params} (hold : getParams st = .ok old)
    (hrun : (updateCodeHash env cfg new).run st = .ok () st') :
    ∃ nps dps, (∀ s, s ∈ nps ↔ s ∈ old.nativePrecompiles) ∧
      (∀ s, s ∈ dps ↔ s ∈ old.dynamicPrecompiles) ∧
      Recoded env (registrations env cfg dps new.dynamicPrecompiles ++
        registrations env cfg nps new.nativePrecompiles) st st' := by
  obtain ⟨nps, dps, hnative, hdynamic, rfl⟩ := getParams_ok hold
  obtain ⟨nps', hnps, hrest⟩ := KeeperM.read_bind_ok.mp hrun
  obtain ⟨dps', hdps, hrest'⟩ := KeeperM.read_bind_ok.mp hrest
  obtain ⟨_, st₃, hfirst, hsecond⟩ := bind_ok.mp hrest'
  obtain rfl : nps = nps' := Except.ok.inj (hnative.symm.trans hnps)
  obtain rfl : dps = dps' := Except.ok.inj (hdynamic.symm.trans hdps)
  refine ⟨nps, dps, fun s => ?_, fun s => ?_, ?_⟩
  · exact (List.mem_insertionSort (· ≤ ·)).symm
  · exact (List.mem_insertionSort (· ≤ ·)).symm
  · exact (registerOrUnregisterERC20CodeHashes_ok hfirst).trans
      (registerOrUnregisterERC20CodeHashes_ok hsecond)

/-- Only the strings of the lists matter. -/
theorem Differs.congr {l₁ l₂ : List Bytes} (h : ∀ s, s ∈ l₁ ↔ s ∈ l₂) (l : List Bytes) :
    Differs l₁ l = Differs l₂ l ∧ Differs l l₁ = Differs l l₂ := by
  unfold Differs
  simp only [h, and_self]

/-! ## Two sets of parameters -/

def Params.addresses (p : Params) : List Address :=
  Erc20Keeper.addresses (p.nativePrecompiles ++ p.dynamicPrecompiles)

/-- The addresses of both lists. -/
theorem Params.mem_addresses (p : Params) (a : Address) :
    a ∈ p.addresses ↔ a ∈ Erc20Keeper.addresses p.nativePrecompiles ∨
      a ∈ Erc20Keeper.addresses p.dynamicPrecompiles := by
  unfold addresses Erc20Keeper.addresses
  rw [List.map_append, List.mem_append]

namespace Params.Valid

variable {p : Params}

theorem disjoint (h : p.Valid) {a : Address} (hn : a ∈ Erc20Keeper.addresses p.nativePrecompiles) :
    a ∉ Erc20Keeper.addresses p.dynamicPrecompiles := by
  intro hd
  exact (List.nodup_append.mp h.unique).2.2 a hd a hn rfl

end Params.Valid

/-- The code hashes that are set: the dynamic list comes first. -/
def Params.registrations (env : Env) (cfg : Config) (old new : Params) : List (Address × Hash) :=
  Erc20Keeper.registrations env cfg old.dynamicPrecompiles new.dynamicPrecompiles ++
    Erc20Keeper.registrations env cfg old.nativePrecompiles new.nativePrecompiles

/-- An address whose account `SetParams` writes. -/
def Params.Touches (old new : Params) (a : Address) : Prop :=
  (Differs old.dynamicPrecompiles new.dynamicPrecompiles a ∨
      Differs new.dynamicPrecompiles old.dynamicPrecompiles a) ∨
    Differs old.nativePrecompiles new.nativePrecompiles a ∨
      Differs new.nativePrecompiles old.nativePrecompiles a

section

variable {old new : Params} {st st' : AppStore} {a : Address}

/-- The addresses that are written are touched. -/
theorem Params.mem_registrations :
    a ∈ (registrations env cfg old new).map Prod.fst ↔ Params.Touches old new a := by
  unfold registrations Params.Touches
  rw [List.map_append, List.mem_append, Erc20Keeper.mem_registrations,
    Erc20Keeper.mem_registrations]

/-- `SetParams` sets the code hashes, and then stores the lists. -/
theorem setParams_recoded (hnew : new.Valid) (hold : getParams st = .ok old)
    (hset : (setParams env cfg new).run st = .ok () st') :
    ∃ st₁ rest, Recoded env (Params.registrations env cfg old new) st st₁ ∧
      st' = { st₁ with rest := rest } := by
  obtain ⟨st₁, hupdate, rfl⟩ := setParams_ok hset
  rw [hnew.sorted_eq] at hupdate
  obtain ⟨nps, dps, hnps, hdps, hrecoded⟩ := updateCodeHash_ok hold hupdate
  obtain ⟨hnative, hnative'⟩ := Differs.congr hnps new.nativePrecompiles
  obtain ⟨hdynamic, hdynamic'⟩ := Differs.congr hdps new.dynamicPrecompiles
  have hhash : ∀ a h, finalHash (registrations env cfg dps new.dynamicPrecompiles ++
      registrations env cfg nps new.nativePrecompiles) a h =
        finalHash (Params.registrations env cfg old new) a h := by
    intro a h
    unfold Params.registrations
    simp only [finalHash_append, finalHash_registrations]
    rw [hnative, hnative', hdynamic, hdynamic']
  have hmem : ∀ a, a ∈ (registrations env cfg dps new.dynamicPrecompiles ++
      registrations env cfg nps new.nativePrecompiles).map Prod.fst ↔
        a ∈ (Params.registrations env cfg old new).map Prod.fst := by
    intro a
    simp only [Params.registrations, List.map_append, List.mem_append, mem_registrations,
      hnative, hnative', hdynamic, hdynamic']
  refine ⟨st₁, _, ⟨fun a => ?_, fun a => ?_, fun a d => ?_, hrecoded.rest⟩, rfl⟩
  · rw [hrecoded.codeHash, hhash]
  · rw [hrecoded.sequence]
    simp only [hmem a]
  · rw [hrecoded.balance]
    simp only [hmem a]

open Classical in
theorem finalHash_params (h : Hash) :
    finalHash (Params.registrations env cfg old new) a h =
      if Differs new.nativePrecompiles old.nativePrecompiles a then erc20CodeHash env cfg
      else if Differs old.nativePrecompiles new.nativePrecompiles a then env.emptyCodeHash
      else if Differs new.dynamicPrecompiles old.dynamicPrecompiles a then erc20CodeHash env cfg
      else if Differs old.dynamicPrecompiles new.dynamicPrecompiles a then env.emptyCodeHash
      else h := by
  unfold Params.registrations
  rw [finalHash_append, finalHash_registrations, finalHash_registrations]

theorem Differs.mem_addresses {l l' : List Bytes} (h : Differs l l' a) : a ∈ addresses l := by
  obtain ⟨s, hs, -, rfl⟩ := h
  exact List.mem_map_of_mem hs

/-- An address is spelled differently in the other list, or is in both. -/
theorem differs_or_mem {l : List Bytes} (h : a ∈ addresses l) (l' : List Bytes) :
    Differs l l' a ∨ ∃ s ∈ l, s ∈ l' ∧ hexToAddress s = a := by
  obtain ⟨s, hs, rfl⟩ := List.mem_map.mp h
  by_cases hs' : s ∈ l'
  · exact .inr ⟨s, hs, hs', rfl⟩
  · exact .inl ⟨s, hs, hs', rfl⟩

theorem differs_of_not_mem {l l' : List Bytes} (h : a ∈ addresses l) (h' : a ∉ addresses l') :
    Differs l l' a := by
  obtain ⟨s, hs, rfl⟩ := List.mem_map.mp h
  exact ⟨s, hs, fun hs' => h' (List.mem_map_of_mem hs'), rfl⟩

theorem not_differs {l l' : List Bytes} (hnodup : (addresses l).Nodup) {s : Bytes} (hs : s ∈ l)
    (hs' : s ∈ l') : ¬ Differs l l' (hexToAddress s) := by
  rintro ⟨t, ht, hnot, heq⟩
  rw [List.inj_on_of_nodup_map hnodup ht hs heq] at hnot
  exact hnot hs'

variable {h : Hash}

section

variable (hold : old.Valid) (hnew : new.Valid)
  (hkept : a ∈ old.addresses → h = erc20CodeHash env cfg)
include hold hnew hkept

/-- An address of the new native list has the code hash. -/
theorem finalHash_native (ha : a ∈ addresses new.nativePrecompiles) :
    finalHash (Params.registrations env cfg old new) a h = erc20CodeHash env cfg := by
  rw [finalHash_params]
  rcases differs_or_mem ha old.nativePrecompiles with hdiffers | ⟨s, hs, hs', rfl⟩
  · rw [if_pos hdiffers]
  split
  · rfl
  have hsame := not_differs (List.nodup_append.mp hold.unique).2.1 hs' hs
  have hmem : hexToAddress s ∈ addresses old.nativePrecompiles := List.mem_map_of_mem hs'
  have hdynamic : ¬ Differs new.dynamicPrecompiles old.dynamicPrecompiles (hexToAddress s) :=
    fun hd => hnew.disjoint ha hd.mem_addresses
  have hdynamic' : ¬ Differs old.dynamicPrecompiles new.dynamicPrecompiles (hexToAddress s) :=
    fun hd => hold.disjoint hmem hd.mem_addresses
  rw [if_neg hsame, if_neg hdynamic, if_neg hdynamic']
  exact hkept ((old.mem_addresses _).mpr (.inl hmem))

/-- An address of the new dynamic list has it just if it was not in the old native list. -/
theorem finalHash_dynamic_iff (hcode : erc20CodeHash env cfg ≠ env.emptyCodeHash)
    (ha : a ∈ addresses new.dynamicPrecompiles) :
    finalHash (Params.registrations env cfg old new) a h = erc20CodeHash env cfg ↔
      a ∉ addresses old.nativePrecompiles := by
  rw [finalHash_params]
  have hnative : ¬ Differs new.nativePrecompiles old.nativePrecompiles a :=
    fun hd => hnew.disjoint hd.mem_addresses ha
  rw [if_neg hnative]
  by_cases hmoved : a ∈ addresses old.nativePrecompiles
  · rw [if_pos (differs_of_not_mem hmoved fun hn => hnew.disjoint hn ha)]
    exact ⟨fun heq => absurd heq.symm hcode, fun hnot => absurd hmoved hnot⟩
  · rw [if_neg fun hd => hmoved hd.mem_addresses]
    refine iff_of_true ?_ hmoved
    rcases differs_or_mem ha old.dynamicPrecompiles with hdiffers | ⟨s, hs, hs', rfl⟩
    · rw [if_pos hdiffers]
    split
    · rfl
    rw [if_neg (not_differs (List.nodup_append.mp hold.unique).1 hs' hs)]
    exact hkept ((old.mem_addresses _).mpr (.inr (List.mem_map_of_mem hs')))

end

theorem finalHash_dropped (ha : a ∈ old.addresses) (hnot : a ∉ new.addresses) :
    finalHash (Params.registrations env cfg old new) a h = env.emptyCodeHash := by
  rw [finalHash_params]
  rw [new.mem_addresses, not_or] at hnot
  have hnative : ¬ Differs new.nativePrecompiles old.nativePrecompiles a :=
    fun hd => hnot.1 hd.mem_addresses
  have hdynamic : ¬ Differs new.dynamicPrecompiles old.dynamicPrecompiles a :=
    fun hd => hnot.2 hd.mem_addresses
  rw [if_neg hnative, if_neg hdynamic]
  rcases (old.mem_addresses a).mp ha with ha | ha
  · rw [if_pos (differs_of_not_mem ha hnot.1)]
  · rw [if_pos (differs_of_not_mem ha hnot.2)]
    split <;> rfl

/-- No balance changes just if written accounts existed or were empty. -/
theorem Recoded.balance_iff {ops : List (Address × Hash)} (h : Recoded env ops st st') :
    (∀ a d, st'.balance a d = st.balance a d) ↔
      ∀ a ∈ ops.map Prod.fst, st.sequence a = none → st.balance a env.evmDenom = 0 := by
  constructor
  · intro hsame a ha hnone
    have hbalance := h.balance a env.evmDenom
    rw [if_pos ⟨rfl, ha, hnone⟩] at hbalance
    rw [← hsame a env.evmDenom, hbalance]
  · intro hzero a d
    rw [h.balance a d]
    split
    · rename_i hcase
      obtain ⟨rfl, ha, hnone⟩ := hcase
      exact (hzero a ha hnone).symm
    · rfl

/-- What `SetParams` is to do with the accounts. -/
structure Synchronised (env : Env) (cfg : Config) (old new : Params) (st st' : AppStore) :
    Prop where
  listed : ∀ a ∈ new.addresses, st'.getCodeHash env a = erc20CodeHash env cfg
  dropped : ∀ a ∈ old.addresses, a ∉ new.addresses → st'.getCodeHash env a = env.emptyCodeHash
  nonce : ∀ a, st'.getNonce a = st.getNonce a
  balance : ∀ a d, st'.balance a d = st.balance a d

/-- **Code hashes of the ERC20 precompiles.** `SetParams` keeps them in step, and nonces and
balances, if and only if no address moves from the native to the dynamic list and no missing account
that is written has EVM coins. -/
theorem setParams_synchronised_iff (hold : old.validate = .ok ()) (hnew : new.validate = .ok ())
    (hcode : erc20CodeHash env cfg ≠ env.emptyCodeHash) (hstored : old.Stored st.rest)
    (hspelled : old.Spelled)
    (hcarry : ∀ a, a ∈ old.addresses ∨ a ∈ new.addresses →
      (st.getCodeHash env a = erc20CodeHash env cfg ↔ a ∈ old.addresses))
    (hset : (setParams env cfg new).run st = .ok () st') :
    Synchronised env cfg old new st st' ↔
      (∀ a ∈ addresses new.dynamicPrecompiles, a ∉ addresses old.nativePrecompiles) ∧
      ∀ a, Params.Touches old new a → st.sequence a = none → st.balance a env.evmDenom = 0 := by
  have hold' := Params.valid hold
  have hnew' := Params.valid hnew
  obtain ⟨st₁, rest, hrecoded, rfl⟩ := setParams_recoded hnew'
    ((hstored.getParams_iff hold').mpr hspelled) hset
  have hhash : ∀ a, Store.getCodeHash env { st₁ with rest := rest } a =
      finalHash (Params.registrations env cfg old new) a (st.getCodeHash env a) :=
    hrecoded.codeHash
  have hkept : ∀ a, a ∈ old.addresses → st.getCodeHash env a = erc20CodeHash env cfg :=
    fun a ha => (hcarry a (.inl ha)).mpr ha
  constructor
  · intro h
    refine ⟨fun a ha => ?_, fun a htouches => ?_⟩
    · have hlisted := h.listed a ((new.mem_addresses a).mpr (.inr ha))
      rw [hhash a] at hlisted
      exact (finalHash_dynamic_iff hold' hnew' (hkept a) hcode ha).mp hlisted
    · exact hrecoded.balance_iff.mp h.balance a (Params.mem_registrations.mpr htouches)
  · rintro ⟨hmoves, hempty⟩
    refine ⟨fun a ha => ?_, fun a ha hnot => ?_, hrecoded.nonce, ?_⟩
    · rw [hhash a]
      rcases (new.mem_addresses a).mp ha with ha | ha
      · exact finalHash_native hold' hnew' (hkept a) ha
      · exact (finalHash_dynamic_iff hold' hnew' (hkept a) hcode ha).mpr (hmoves a ha)
    · rw [hhash a]
      exact finalHash_dropped ha hnot
    · exact hrecoded.balance_iff.mpr fun a ha => hempty a (Params.mem_registrations.mp ha)

end

namespace Devnet

/-- Stands in for the setup of the keeper; its ERC20 bytecode is one byte. -/
def config : Config where
  tmhash := Devnet.keccak256
  erc20Bytecode := [7]
  queryERC20 := fun _ _ => .ok { name := [], symbol := [], decimals := 0 }
  sanitizeERC20Name := id
  validateMetadata := fun _ => .ok ()

def chain : Env := Devnet.env6

/-- Nothing is registered. -/
def emptyErc20 : Erc20Store where
  enableErc20 := false
  dynamicPrecompiles := []
  dynamicSpare := []
  nativePrecompiles := []
  nativeSpare := []
  tokenPairs := fun _ => none
  denomMap := fun _ => none
  erc20Map := fun _ => none
  denomMetaData := fun _ => none

def store : AppStore := Devnet.emptyStore emptyErc20

/-- The address `0x11…11`, written without its prefix. -/
def bareAddress : Bytes := List.replicate 40 49

/-- The same with its prefix. -/
def address : Bytes := 48 :: 120 :: bareAddress

def bareParams : Params :=
  { enableErc20 := true, nativePrecompiles := [], dynamicPrecompiles := [bareAddress] }

def dynamicParams : Params :=
  { enableErc20 := true, nativePrecompiles := [], dynamicPrecompiles := [address] }

def nativeParams : Params :=
  { enableErc20 := true, nativePrecompiles := [address], dynamicPrecompiles := [] }

/-- The state that stores some parameters, with a code hash. -/
def listed (p : Params) : AppStore :=
  { (store.setCodeHash (hexToAddress address) (some (erc20CodeHash chain config))).setSequence
      (hexToAddress address) (some 0) with
    rest := { emptyErc20 with
      enableErc20 := p.enableErc20
      dynamicPrecompiles := setPrecompiles p.dynamicPrecompiles
      nativePrecompiles := setPrecompiles p.nativePrecompiles } }

theorem code_ne_empty : erc20CodeHash chain config ≠ chain.emptyCodeHash := by decide +kernel

theorem listed_carry (p : Params) (a : Address)
    (ha : a ∈ dynamicParams.addresses ∨ a ∈ nativeParams.addresses) :
    (listed p).getCodeHash chain a = erc20CodeHash chain config := by
  have heq : a = hexToAddress address := by
    rcases ha with ha | ha <;> exact List.mem_singleton.mp ha
  simp [heq, listed, getCodeHash, setCodeHash, setSequence]

end Devnet

open Erc20Keeper.Devnet

/-- On the small chain: one address, written with its prefix. -/
theorem getParams_setParams_devnet :
    ∃ st', (setParams chain config dynamicParams).run store = .ok () st' ∧
      (getParams st' = .ok dynamicParams ↔ dynamicParams.Spelled) := by
  have hvalid : dynamicParams.validate = .ok () := by decide +kernel
  obtain ⟨st', hset, -⟩ : ∃ st',
      (setParams chain config dynamicParams).run store = .ok () st' ∧
        getParams st' = .ok dynamicParams :=
    Devnet.exists_of_okAnd (by decide +kernel)
  exact ⟨st', hset, (getParams_setParams_iff hvalid hset).1⟩

/-- **Parameters that cannot be read back** but with spare capacity. -/
theorem getParams_setParams_bare :
    bareParams.validate = .ok () ∧
      ∃ st', (setParams chain config bareParams).run store = .ok () st' ∧
        getParams st' = .ok { bareParams with dynamicPrecompiles := [bareAddress ++ [0, 0]] } ∧
        getParams (reloaded [] [] st') =
          .error (.panic "runtime error: slice bounds out of range") :=
  ⟨by decide +kernel, Devnet.exists_of_okAnd (by decide +kernel)⟩

/-- The address moves from the dynamic to the native list. -/
theorem setParams_synchronised_devnet :
    ∃ st', (setParams chain config nativeParams).run (listed dynamicParams) = .ok () st' ∧
      (Synchronised chain config dynamicParams nativeParams (listed dynamicParams) st' ↔
        (∀ a ∈ addresses nativeParams.dynamicPrecompiles,
          a ∉ addresses dynamicParams.nativePrecompiles) ∧
        ∀ a, Params.Touches dynamicParams nativeParams a →
          (listed dynamicParams).sequence a = none →
            (listed dynamicParams).balance a chain.evmDenom = 0) := by
  obtain ⟨st', hset, -⟩ : ∃ st', (setParams chain config nativeParams).run
      (listed dynamicParams) = .ok () st' ∧ getParams st' = .ok nativeParams :=
    Devnet.exists_of_okAnd (by decide +kernel)
  refine ⟨st', hset, setParams_synchronised_iff (by decide +kernel) (by decide +kernel)
    code_ne_empty ⟨rfl, rfl, rfl⟩ (by unfold Params.Spelled; decide +kernel) (fun a ha => ?_)
    hset⟩
  refine iff_of_true (listed_carry _ a ha) ?_
  rcases ha with ha | ha <;> exact ha

/-- **An address that loses its code**: it is unregistered last. -/
theorem setParams_unregisters_moved :
    nativeParams.validate = .ok () ∧ dynamicParams.validate = .ok () ∧
      nativeParams.Stored (listed nativeParams).rest ∧ nativeParams.Spelled ∧
      (∀ a, a ∈ nativeParams.addresses ∨ a ∈ dynamicParams.addresses →
        ((listed nativeParams).getCodeHash chain a =
          erc20CodeHash chain config ↔ a ∈ nativeParams.addresses)) ∧
      ∃ st', (setParams chain config dynamicParams).run (listed nativeParams) = .ok () st' ∧
        ¬ Synchronised chain config nativeParams dynamicParams (listed nativeParams) st' := by
  refine ⟨by decide +kernel, by decide +kernel, ⟨rfl, rfl, rfl⟩,
    by unfold Params.Spelled; decide +kernel, fun a ha => ?_, ?_⟩
  · refine iff_of_true (listed_carry _ a ha.symm) ?_
    rcases ha with ha | ha <;> exact ha
  obtain ⟨st', hset, hempty⟩ : ∃ st',
      (setParams chain config dynamicParams).run (listed nativeParams) = .ok () st' ∧
        st'.getCodeHash chain (hexToAddress address) = chain.emptyCodeHash :=
    Devnet.exists_of_okAnd (by decide +kernel)
  refine ⟨st', hset, fun h => code_ne_empty ?_⟩
  rw [← hempty]
  exact (h.listed _ (List.mem_singleton_self _)).symm

end TacEvm.Erc20Keeper
