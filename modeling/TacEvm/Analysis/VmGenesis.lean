import TacEvm.Analysis.AccessControl
import TacEvm.Library.Indexed
import TacEvm.Model.VmGenesis

/-!
# Export and import of the EVM state

The import of an exported state rebuilds the part of the store that belongs to its addresses
(`imported`). An address with the hash of the empty code on record is exported without code, and is
lost in the second export.
-/

namespace TacEvm.Vm

open FallibleState Indexed OrderedKeys Function
open Erc20Keeper (sortStrings)

variable {env : Env} {cfg : Config} {st st₀ : AppStore}

/-! ## What export goes through -/

theorem getAccountStorage_eq (st : AppStore) (a : Address) :
    getAccountStorage st a = (entries (fun k l : Hash => k ≤ l) (st.storage a)).map
      fun entry => newState entry.1 (bytesToHash entry.2) := by
  simp only [getAccountStorage, forEachStorage, bytesToHash_append, List.map_map]
  rfl

theorem exportGenesis_accounts (st : AppStore) :
    (exportGenesis env st).accounts =
      (entries (fun a b : Address => a ≤ b) st.codeHash).map fun entry =>
        genesisAccount env st entry.1 entry.2 := by
  simp only [exportGenesis, iterateContracts, bytesToAddress_append, Prod.mk.eta, List.map_id']

/-! ## What is exported is valid -/

theorem hashHex_injective : Function.Injective hashHex :=
  Function.LeftInverse.injective hexToHash_hashHex

theorem addressHex_injective (env : Env) : Function.Injective (addressHex env) :=
  Function.LeftInverse.injective (hexToAddress_addressHex env)

variable {seen : List Bytes}

theorem notMem_seen {E : Type} {key : E → Bytes} {e : E} {l : List E} (hfirst : key e ∉ l.map key)
    (hnew : ∀ e' ∈ e :: l, key e' ∉ seen) : ∀ e' ∈ l, key e' ∉ key e :: seen := by
  intro e' he' hseen
  rcases List.mem_cons.mp hseen with heq | hseen
  · exact hfirst (List.mem_map.mpr ⟨e', he', heq⟩)
  · exact hnew e' (List.mem_cons_of_mem _ he') hseen

theorem validateStorage_of_nodup {i : ℕ} {states : List State}
    (hnodup : (states.map State.key).Nodup) (hnew : ∀ s ∈ states, s.key ∉ seen)
    (hvalid : ∀ s ∈ states, s.validate = .ok ()) : validateStorage i seen states = .ok () := by
  induction states generalizing i seen with
  | nil => rfl
  | cons s states ih =>
    obtain ⟨hfirst, hrest⟩ := List.nodup_cons.mp hnodup
    unfold validateStorage
    rw [if_neg (hnew s List.mem_cons_self), hvalid s List.mem_cons_self]
    exact ih hrest (notMem_seen hfirst hnew) fun s' hs' => hvalid s' (List.mem_cons_of_mem _ hs')

theorem validateAccounts_of_nodup {accounts : List GenesisAccount}
    (hnodup : (accounts.map GenesisAccount.address).Nodup)
    (hnew : ∀ acc ∈ accounts, acc.address ∉ seen) (hvalid : ∀ acc ∈ accounts, acc.validate = .ok ())
    : validateAccounts seen accounts = .ok () := by
  induction accounts generalizing seen with
  | nil => rfl
  | cons acc accounts ih =>
    obtain ⟨hfirst, hrest⟩ := List.nodup_cons.mp hnodup
    unfold validateAccounts
    rw [if_neg (hnew acc List.mem_cons_self), hvalid acc List.mem_cons_self]
    exact ih hrest (notMem_seen hfirst hnew) fun acc' hacc' =>
      hvalid acc' (List.mem_cons_of_mem _ hacc')

theorem genesisAccount_valid (env : Env) (st : AppStore) (a : Address) (h : Hash) :
    (genesisAccount env st a h).validate = .ok () := by
  have haddress : validateAddress (addressHex env a) = .ok () := by
    rw [validateAddress, if_pos (isHexAddress_addressHex env a)]
  have hkeys : ((getAccountStorage st a).map State.key).Nodup := by
    rw [getAccountStorage_eq, List.map_map]
    have hnodup := (nodup_map_fst_entries (fun k l : Hash => k ≤ l)
      (st.storage a)).map hashHex_injective
    rw [List.map_map] at hnodup
    exact hnodup
  have hstorage : validateStorage 0 [] (getAccountStorage st a) = .ok () := by
    refine validateStorage_of_nodup hkeys (fun s _ => List.not_mem_nil) fun s hs => ?_
    rw [getAccountStorage_eq] at hs
    obtain ⟨entry, -, rfl⟩ := List.mem_map.mp hs
    simp [State.validate, newState, hashHex, isBlank]
  exact except_bind_ok.mpr ⟨(), haddress, hstorage⟩

theorem exportGenesis_valid (hparams : (getParams st).validate cfg = .ok ()) :
    (exportGenesis env st).validate cfg = .ok () := by
  have haccounts : validateAccounts [] (exportGenesis env st).accounts = .ok () := by
    rw [exportGenesis_accounts]
    refine validateAccounts_of_nodup ?_ (fun _ _ => List.not_mem_nil) fun acc hacc => ?_
    · have hnodup := (nodup_map_fst_entries (fun a b : Address => a ≤ b)
        st.codeHash).map (addressHex_injective env)
      rw [List.map_map] at hnodup ⊢
      exact hnodup
    · obtain ⟨entry, -, rfl⟩ := List.mem_map.mp hacc
      exact genesisAccount_valid env st entry.1 entry.2
  exact except_bind_ok.mpr ⟨(), haccounts, hparams⟩

/-- The value of a slot as it is imported, in 32 bytes. -/
def padded (value : Bytes) : Bytes := hashBytes (bytesToHash value)

/-- The store after the import of some addresses of `st`. -/
def imported (st st₀ : AppStore) (l : List (Address × Hash)) : AppStore :=
  { st₀ with
    codeHash := fun a => if a ∈ l.map Prod.fst then st.codeHash a else none
    code := fun h => if h ∈ l.map Prod.snd then st.code h else none
    storage := fun a key => if a ∈ l.map Prod.fst then (st.storage a key).map padded else none
    rest := { st₀.rest with params := some (getParams st) } }

/-- The store with another storage for an address. -/
def withStorage (st : AppStore) (a : Address) (m : Hash → Option Bytes) : AppStore :=
  { st with storage := update st.storage a m }

theorem setState_withStorage (st : AppStore) (a : Address) (m : Hash → Option Bytes) (key : Hash)
    (value : Bytes) :
    (withStorage st a m).setState a key value = withStorage st a (update m key (some value)) := by
  simp only [withStorage, Store.setState, update_self, update_idem]

theorem fill_entries (m : Hash → Option Bytes) :
    fill Prod.fst (fun entry => padded entry.2) (entries (fun k l : Hash => k ≤ l) m) =
      fun key => (m key).map padded := by
  have hkey : ∀ e ∈ entries (fun k l : Hash => k ≤ l) m,
      ∀ e' ∈ entries (fun k l : Hash => k ≤ l) m, e.1 = e'.1 → e = e' :=
    fun e he e' he' => List.inj_on_of_nodup_map
      (nodup_map_fst_entries (fun k l : Hash => k ≤ l) m) he he'
  funext key
  refine Option.ext fun value => ?_
  rw [fill_eq_some_iff hkey, Option.map_eq_some_iff]
  constructor
  · rintro ⟨⟨key', value'⟩, hmem, rfl, hvalue⟩
    exact ⟨value', (mem_entries _).mp hmem, hvalue⟩
  · rintro ⟨value', hvalue', hvalue⟩
    exact ⟨(key, value'), (mem_entries _).mpr hvalue', rfl, hvalue⟩

variable {a : Address}

theorem importStorage_run {s : AppStore} (hfree : s.storage a = fun _ => none)
    (entries : List (Hash × Bytes)) :
    (((entries.map fun entry => newState entry.1 (bytesToHash entry.2)).forM fun storage =>
      modify fun st => st.setState a (hexToHash storage.key)
        (hashBytes (hexToHash storage.value))) : VmM Unit).run s =
      .ok () (withStorage s a (fill Prod.fst (fun entry => padded entry.2) entries)) := by
  have hstart : s = withStorage s a (fill Prod.fst (fun entry => padded entry.2) []) := by
    have hnone : fill Prod.fst (fun entry : Hash × Bytes => padded entry.2) [] = s.storage a :=
      hfree.symm
    rw [hnone, withStorage, update_eq_self]
  obtain ⟨s', hrun, rfl⟩ := forM_total
    (fun done s' => s' = withStorage s a (fill Prod.fst (fun entry => padded entry.2) done))
    (f := fun entry : Hash × Bytes => (modify fun st => st.setState a
      (hexToHash (newState entry.1 (bytesToHash entry.2)).key)
      (hashBytes (hexToHash (newState entry.1 (bytesToHash entry.2)).value)) : VmM Unit))
    (l := entries) hstart
    (by
      rintro done ⟨key, value⟩ rest s₁ - rfl
      refine ⟨_, rfl, ?_⟩
      beta_reduce
      rw [setState_withStorage, fill_append_singleton, newState, hexToHash_hashHex,
        hexToHash_hashHex, padded])
  rw [List.forM_eq_forM, List.forM_map]
  exact hrun

/-- Addresses on record have an account, and code under its hash. -/
structure Storable (env : Env) (cfg : Config) (st : AppStore) : Prop where
  params : (getParams st).validate cfg = .ok ()
  account : ∀ a h, st.codeHash a = some h → st.sequence a ≠ none
  nonempty : ∀ a h, st.codeHash a = some h → h ≠ env.emptyCodeHash
  code : ∀ a h, st.codeHash a = some h → ∃ code, st.code h = some code ∧ env.keccak256 code = h

/-- A store without EVM state, with the accounts of another one. -/
structure FreshWith (st st₀ : AppStore) : Prop where
  sequence : st₀.sequence = st.sequence
  codeHash : st₀.codeHash = fun _ => none
  code : st₀.code = fun _ => none
  storage : st₀.storage = fun _ _ => none

theorem imported_append {done : List (Address × Hash)} {h : Hash} {code : Bytes}
    (hrecord : st.codeHash a = some h) (hcode : st.code h = some code) :
    withStorage (((imported st st₀ done).setCodeHash a (some h)).setCode h (some code)) a
        (fun key => (st.storage a key).map padded) =
      imported st st₀ (done ++ [(a, h)]) := by
  have hcodeHash : update (imported st st₀ done).codeHash a (some h) =
      (imported st st₀ (done ++ [(a, h)])).codeHash := by
    funext a'
    by_cases ha : a' = a
    · subst ha
      simp [imported, hrecord]
    · simp [imported, ha]
  have hcodes : update (imported st st₀ done).code h (some code) =
      (imported st st₀ (done ++ [(a, h)])).code := by
    funext h'
    by_cases hh : h' = h
    · subst hh
      simp [imported, hcode]
    · simp [imported, hh]
  have hstorage : update (imported st st₀ done).storage a
      (fun key => (st.storage a key).map padded) =
      (imported st st₀ (done ++ [(a, h)])).storage := by
    funext a' key
    by_cases ha : a' = a
    · subst ha
      simp [imported]
    · simp [imported, ha]
  simp only [withStorage, Store.setCode, Store.setCodeHash, hcodeHash, hcodes, hstorage]
  rfl

/-- **One address is imported.** -/
theorem importAccount_run (hst : Storable env cfg st) (hfresh : FreshWith st st₀)
    {done : List (Address × Hash)} {h : Hash} (hrecord : st.codeHash a = some h)
    (hnew : a ∉ done.map Prod.fst) :
    (importAccount env (genesisAccount env st a h)).run (imported st st₀ done) =
      .ok () (imported st st₀ (done ++ [(a, h)])) := by
  obtain ⟨code, hcode, hhash⟩ := hst.code a h hrecord
  have hnonempty := hst.nonempty a h hrecord
  have hlength : code.length ≠ 0 := by
    intro hzero
    rw [List.length_eq_zero_iff.mp hzero] at hhash
    exact hnonempty hhash.symm
  have haccount : (imported st st₀ done).sequence (hexToAddress (addressHex env a)) ≠ none := by
    rw [hexToAddress_addressHex]
    show st₀.sequence a ≠ none
    rw [hfresh.sequence]
    exact hst.account a h hrecord
  have hget : (st.getCode h).getD [] = code := by
    rw [Store.getCode, hcode]
    rfl
  have hfree : (((imported st st₀ done).setCodeHash a (some h)).setCode h
      (some code)).storage a = fun _ => none := by
    funext key
    exact if_neg hnew
  have hstorage := importStorage_run hfree (entries (fun k l : Hash => k ≤ l) (st.storage a))
  rw [fill_entries, ← getAccountStorage_eq, imported_append hrecord hcode] at hstorage
  unfold importAccount genesisAccount
  simp only [hexToAddress_addressHex, hget, decodeHex_encodeHex, hhash, run_get_bind]
  refine bind_ok.mpr ⟨(), _, KeeperM.ensure_ok.mpr ⟨haccount, rfl⟩, ?_⟩
  simp only [run_modify_bind, if_pos hnonempty, if_pos hlength]
  exact hstorage

theorem validate_precompiles_sorted {p : Params} (h : p.validate cfg = .ok ()) :
    sortStrings p.activeStaticPrecompiles = p.activeStaticPrecompiles := by
  obtain ⟨_, -, h₁⟩ := except_bind_ok.mp h
  obtain ⟨_, hprecompiles, -⟩ := except_bind_ok.mp h₁
  obtain ⟨_, -, hsorted⟩ := except_bind_ok.mp hprecompiles
  split at hsorted
  · rename_i hpairwise
    exact (of_decide_eq_true hpairwise : List.Pairwise _ _).insertionSort_eq
  · cases hsorted

theorem setParams_run (h : (getParams st).validate cfg = .ok ()) (hfresh : FreshWith st st₀) :
    (setParams cfg (getParams st)).run st₀ = .ok () (imported st st₀ []) := by
  have hsorted := validate_precompiles_sorted h
  unfold setParams
  rw [hsorted]
  refine bind_ok.mpr ⟨(), st₀, KeeperM.check_ok.mpr ⟨h, rfl⟩, ?_⟩
  refine congrArg (EStateM.Result.ok ()) ?_
  simp only [imported, List.map_nil, List.not_mem_nil, if_false]
  rw [hfresh.codeHash, hfresh.code, hfresh.storage]

/-- **Import** of an exported state. -/
theorem initGenesis_run (hst : Storable env cfg st) (hfresh : FreshWith st st₀) :
    (initGenesis env cfg (exportGenesis env st)).run st₀ =
      .ok () (imported st st₀ (entries (fun a b : Address => a ≤ b) st.codeHash)) := by
  refine bind_ok.mpr ⟨(), _, mapError_ok.mpr (setParams_run hst.params hfresh), ?_⟩
  rw [exportGenesis_accounts, List.forM_eq_forM, List.forM_map]
  obtain ⟨s', hrun, rfl⟩ := forM_total (fun done s' => s' = imported st st₀ done)
    (f := fun entry => importAccount env (genesisAccount env st entry.1 entry.2))
    (l := entries (fun a b : Address => a ≤ b) st.codeHash) rfl
    (by
      rintro done ⟨a, h⟩ rest s₁ hsplit rfl
      have hrecord : st.codeHash a = some h := by
        rw [← mem_entries (fun a b : Address => a ≤ b), hsplit]
        simp
      have hnodup := nodup_map_fst_entries (fun a b : Address => a ≤ b) st.codeHash
      rw [hsplit, List.map_append, List.map_cons] at hnodup
      have hnew : a ∉ done.map Prod.fst := fun hmem =>
        List.disjoint_of_nodup_append hnodup hmem List.mem_cons_self
      exact ⟨_, importAccount_run hst hfresh hrecord hnew, rfl⟩)
  exact hrun

section Rebuilt

variable {l : List (Address × Hash)}

theorem imported_codeHash (hl : ∀ a h, st.codeHash a = some h → (a, h) ∈ l) :
    (imported st st₀ l).codeHash = st.codeHash := by
  funext a
  by_cases hmem : a ∈ l.map Prod.fst
  · simp only [imported, if_pos hmem]
  · simp only [imported, if_neg hmem]
    cases hrecord : st.codeHash a with
    | none => rfl
    | some h => exact absurd (List.mem_map_of_mem (hl a h hrecord)) hmem

variable {a : Address} {h : Hash}

theorem imported_getCode (hmem : (a, h) ∈ l) : (imported st st₀ l).getCode h = st.getCode h := by
  have hhash : h ∈ l.map Prod.snd := List.mem_map_of_mem hmem
  simp only [Store.getCode, imported, if_pos hhash]

theorem imported_storage (hmem : (a, h) ∈ l) :
    (imported st st₀ l).storage a = fun key => (st.storage a key).map padded := by
  have haddress : a ∈ l.map Prod.fst := List.mem_map_of_mem hmem
  funext key
  simp only [imported, if_pos haddress]

theorem bytesToHash_padded (value : Bytes) : bytesToHash (padded value) = bytesToHash value :=
  bytesToHash_hashBytes _

theorem getState_eq (st : AppStore) (a : Address) (key : Hash) :
    st.getState a key = ((st.storage a key).map bytesToHash).getD 0 := by
  unfold Store.getState
  cases st.storage a key with
  | none => rfl
  | some value =>
    by_cases hempty : value.length = 0
    · rw [List.length_eq_zero_iff.mp hempty]
      decide
    · simp only [if_neg hempty, Option.map_some, Option.getD_some]

theorem imported_getState (hmem : (a, h) ∈ l) (key : Hash) :
    (imported st st₀ l).getState a key = st.getState a key := by
  have hpadded : bytesToHash ∘ padded = bytesToHash := funext bytesToHash_padded
  rw [getState_eq, getState_eq, imported_storage hmem, Option.map_map, hpadded]

theorem genesisAccount_imported (hmem : (a, h) ∈ l) :
    genesisAccount env (imported st st₀ l) a h = genesisAccount env st a h := by
  have hstorage : getAccountStorage (imported st st₀ l) a = getAccountStorage st a := by
    rw [getAccountStorage_eq, getAccountStorage_eq, imported_storage hmem,
      entries_map, List.map_map]
    refine List.map_congr_left fun entry _ => ?_
    simp only [comp_apply, bytesToHash_padded]
  unfold genesisAccount
  rw [hstorage, imported_getCode hmem]

theorem exportGenesis_imported (hl : ∀ a h, st.codeHash a = some h → (a, h) ∈ l) :
    exportGenesis env (imported st st₀ l) = exportGenesis env st := by
  have haccounts : (exportGenesis env (imported st st₀ l)).accounts =
      (exportGenesis env st).accounts := by
    rw [exportGenesis_accounts, exportGenesis_accounts, imported_codeHash hl]
    refine List.map_congr_left ?_
    rintro ⟨a, h⟩ hentry
    exact genesisAccount_imported (hl a h ((mem_entries _).mp hentry))
  refine GenesisState.ext haccounts ?_
  rfl

end Rebuilt

/-- The EVM state of `st`, found in `st'`. -/
structure SameEvmState (env : Env) (st st' : AppStore) : Prop where
  codeHash : ∀ a, st.codeHash a ≠ none → st'.getCodeHash env a = st.getCodeHash env a
  code : ∀ a, st.codeHash a ≠ none →
    st'.getCode (st.getCodeHash env a) = st.getCode (st.getCodeHash env a)
  state : ∀ a, st.codeHash a ≠ none → ∀ key, st'.getState a key = st.getState a key
  params : getParams st' = getParams st

/-- **Export and import of the EVM state.** -/
theorem genesis_roundTrip (hst : Storable env cfg st) (hfresh : FreshWith st st₀) :
    (exportGenesis env st).validate cfg = .ok () ∧
      ∃ st', (initGenesis env cfg (exportGenesis env st)).run st₀ = .ok () st' ∧
        SameEvmState env st st' ∧ exportGenesis env st' = exportGenesis env st := by
  have hl : ∀ a h, st.codeHash a = some h →
      (a, h) ∈ OrderedKeys.entries (fun a b : Address => a ≤ b) st.codeHash :=
    fun a h hrecord => (OrderedKeys.mem_entries _).mpr hrecord
  have hrecord : ∀ a, st.codeHash a ≠ none → st.codeHash a = some (st.getCodeHash env a) := by
    intro a ha
    obtain ⟨h, hh⟩ := Option.ne_none_iff_exists'.mp ha
    rw [Store.getCodeHash, hh]
    rfl
  refine ⟨exportGenesis_valid hst.params, _, initGenesis_run hst hfresh, ?_,
    exportGenesis_imported hl⟩
  refine ⟨fun a _ => ?_, fun a ha => imported_getCode (hl a _ (hrecord a ha)),
    fun a ha => imported_getState (hl a _ (hrecord a ha)), ?_⟩
  · unfold Store.getCodeHash
    rw [imported_codeHash hl]
  · simp only [getParams, imported, Option.getD_some]

/-! ## A contract, and an address without code -/

theorem importAccount_empty {s : AppStore} {address : Bytes}
    (haccount : s.sequence (hexToAddress address) ≠ none) :
    (importAccount env { address := address, code := [], storage := [] }).run s = .ok () s := by
  have hempty : ¬ env.keccak256 (decodeHex []) ≠ env.emptyCodeHash := fun hne => hne rfl
  unfold importAccount
  simp only [run_get_bind]
  refine bind_ok.mpr ⟨(), _, KeeperM.ensure_ok.mpr ⟨haccount, rfl⟩, ?_⟩
  simp only [run_modify_bind, if_neg hempty]
  rfl

namespace Devnet

def paramStore : ParamStore where
  params := some (permissioned [written])
  legacyParams := permissioned []

/-- A contract at `0xC0` with a slot, and one with zero. -/
def contractStore : AppStore :=
  { Devnet.emptyStore paramStore with
    sequence := fun a => if a = 0xC0 then some 1 else none
    codeHash := fun a => if a = 0xC0 then some (Devnet.keccak256 [7]) else none
    code := fun h => if h = Devnet.keccak256 [7] then some [7] else none
    storage := fun a key =>
      if a = 0xC0 ∧ key = 1 then some (hashBytes 5)
      else if a = 0xC0 ∧ key = 2 then some (hashBytes 0)
      else none }

/-- An account at `0xA1` with the hash of the empty code. -/
def emptyCodeStore : AppStore :=
  { Devnet.emptyStore paramStore with
    sequence := fun a => if a = 0xA1 then some 0 else none
    codeHash := fun a => if a = 0xA1 then some chainEnv.emptyCodeHash else none }

/-- The accounts of a store and nothing else. -/
def freshStore (st : AppStore) : AppStore :=
  { Devnet.emptyStore { params := none, legacyParams := permissioned [] } with
    sequence := st.sequence }

theorem freshWith (st : AppStore) : FreshWith st (freshStore st) := ⟨rfl, rfl, rfl, rfl⟩

theorem paramStore_valid : (permissioned [written]).validate config = .ok () := by
  decide +kernel

theorem contractStore_storable : Storable chainEnv config contractStore := by
  have hrecord : ∀ a h, contractStore.codeHash a = some h →
      a = 0xC0 ∧ h = Devnet.keccak256 [7] := by
    intro a h hh
    have hsplit : (if a = 0xC0 then some (Devnet.keccak256 [7]) else none) = some h := hh
    split at hsplit
    · rename_i ha
      exact ⟨ha, (Option.some.inj hsplit).symm⟩
    · cases hsplit
  refine ⟨paramStore_valid, fun a h hh => ?_, fun a h hh => ?_, fun a h hh => ?_⟩
  · obtain ⟨rfl, -⟩ := hrecord a h hh
    decide +kernel
  · obtain ⟨-, rfl⟩ := hrecord a h hh
    decide +kernel
  · obtain ⟨-, rfl⟩ := hrecord a h hh
    exact ⟨[7], by decide +kernel, rfl⟩

end Devnet

open Vm.Devnet

/-- A contract is exported and imported. -/
theorem genesis_roundTrip_devnet :
    ∃ st', (initGenesis chainEnv config
        (exportGenesis chainEnv contractStore)).run (freshStore contractStore) = .ok () st' ∧
      st'.getState 0xC0 1 = 5 ∧
      exportGenesis chainEnv st' = exportGenesis chainEnv contractStore := by
  obtain ⟨-, st', hrun, hsame, hexport⟩ :=
    genesis_roundTrip contractStore_storable (freshWith contractStore)
  have hslot : contractStore.getState 0xC0 1 = 5 := by decide +kernel
  exact ⟨st', hrun, (hsame.state 0xC0 (by decide +kernel) 1).trans hslot, hexport⟩

/-- **An address that is not exported again.** -/
theorem emptyCode_forgotten :
    (∀ a h, emptyCodeStore.codeHash a = some h →
        emptyCodeStore.sequence a ≠ none ∧ h = chainEnv.emptyCodeHash) ∧
      (exportGenesis chainEnv emptyCodeStore).validate config = .ok () ∧
      ∃ st', (initGenesis chainEnv config
          (exportGenesis chainEnv emptyCodeStore)).run (freshStore emptyCodeStore) = .ok () st' ∧
        exportGenesis chainEnv st' ≠ exportGenesis chainEnv emptyCodeStore := by
  have haccounts : (exportGenesis chainEnv emptyCodeStore).accounts =
      [{ address := addressHex chainEnv 0xA1, code := [], storage := [] }] := by
    have hentries : OrderedKeys.entries (fun a b : Address => a ≤ b)
        emptyCodeStore.codeHash = [(0xA1, chainEnv.emptyCodeHash)] :=
      OrderedKeys.entries_single _ _ _
    have hstorage : OrderedKeys.entries (fun k l : Hash => k ≤ l)
        (emptyCodeStore.storage 0xA1) = [] := OrderedKeys.entries_none _
    rw [exportGenesis_accounts, hentries, List.map_singleton, genesisAccount,
      getAccountStorage_eq, hstorage, List.map_nil]
    rfl
  have hfresh := freshWith emptyCodeStore
  have himport : (initGenesis chainEnv config
      (exportGenesis chainEnv emptyCodeStore)).run (freshStore emptyCodeStore) =
      .ok () (imported emptyCodeStore (freshStore emptyCodeStore) []) := by
    refine bind_ok.mpr ⟨(), _, mapError_ok.mpr (setParams_run paramStore_valid hfresh), ?_⟩
    rw [haccounts]
    refine bind_ok.mpr ⟨(), _, importAccount_empty ?_, rfl⟩
    rw [hexToAddress_addressHex]
    decide +kernel
  refine ⟨fun a h hh => ?_, exportGenesis_valid paramStore_valid, _, himport, fun heq => ?_⟩
  · have hsplit : (if a = 0xA1 then some chainEnv.emptyCodeHash else none) = some h := hh
    split at hsplit
    · rename_i ha
      subst ha
      exact ⟨by decide +kernel, (Option.some.inj hsplit).symm⟩
    · cases hsplit
  · have hnone : OrderedKeys.entries (fun a b : Address => a ≤ b)
        (imported emptyCodeStore (freshStore emptyCodeStore) []).codeHash =
          [] := OrderedKeys.entries_none _
    have hagain := congrArg GenesisState.accounts heq
    rw [exportGenesis_accounts, hnone, haccounts] at hagain
    cases hagain

end TacEvm.Vm
