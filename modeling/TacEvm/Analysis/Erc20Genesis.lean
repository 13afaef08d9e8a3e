import TacEvm.Analysis.TokenRegistry
import TacEvm.Model.Erc20Genesis

/-!
# The genesis state of the token registry

Validation compares addresses as they are written, and one address has several spellings.
`initGenesis_iff` says what has to be true of a genesis state for the registry to be consistent and
for the export to give it back.
-/

namespace TacEvm.Erc20Keeper

open FallibleState Indexed Erc20Keeper.TokenPair

variable {env : Env} {cfg : Config} {isModuleAccount : Address → Bool} {moduleAddress : Address}

structure GenesisState.Valid (gs : GenesisState) : Prop where
  erc20Unique : (gs.tokenPairs.map erc20Address).Nodup
  denomUnique : (gs.tokenPairs.map denom).Nodup
  params : gs.params.validate = .ok ()

variable {pairs : List TokenPair}

/-- What the loop over the pairs accepts. -/
theorem validateTokenPairs_ok {seenErc20 seenDenom : List Bytes}
    (h : validateTokenPairs seenErc20 seenDenom pairs = .ok ()) :
    ((pairs.map erc20Address).Nodup ∧ ∀ s ∈ pairs.map erc20Address, s ∉ seenErc20) ∧
      (pairs.map denom).Nodup ∧ ∀ s ∈ pairs.map denom, s ∉ seenDenom := by
  induction pairs generalizing seenErc20 seenDenom with
  | nil => simp
  | cons pair pairs ih =>
    unfold validateTokenPairs at h
    split at h
    · cases h
    rename_i herc20
    split at h
    · cases h
    rename_i hdenom
    obtain ⟨_, -, hrest⟩ := except_bind_ok.mp h
    obtain ⟨⟨herc20s, hfresh⟩, hdenoms, hfresh'⟩ := ih hrest
    refine ⟨⟨?_, ?_⟩, ?_, ?_⟩
    · exact List.nodup_cons.mpr ⟨fun hmem => hfresh _ hmem List.mem_cons_self, herc20s⟩
    · exact List.forall_mem_cons.mpr
        ⟨herc20, fun s hs hseen => hfresh s hs (List.mem_cons_of_mem _ hseen)⟩
    · exact List.nodup_cons.mpr ⟨fun hmem => hfresh' _ hmem List.mem_cons_self, hdenoms⟩
    · exact List.forall_mem_cons.mpr
        ⟨hdenom, fun s hs hseen => hfresh' s hs (List.mem_cons_of_mem _ hseen)⟩

/-- What is accepted as a genesis state. -/
theorem GenesisState.valid {gs : GenesisState} (h : gs.validate = .ok ()) : gs.Valid := by
  obtain ⟨_, hpairs, h₁⟩ := except_bind_ok.mp h
  obtain ⟨_, hparams, -⟩ := except_bind_ok.mp h₁
  obtain ⟨⟨herc20, -⟩, hdenom, -⟩ := validateTokenPairs_ok hpairs
  refine ⟨herc20, hdenom, ?_⟩
  cases hvalidate : gs.params.validate with
  | error e =>
    rw [hvalidate] at hparams
    cases hparams
  | ok u => rfl

/-- Only addresses with an account hold coins of the EVM. -/
def NoOrphans (env : Env) (st : AppStore) : Prop :=
  ∀ a, st.sequence a = none → st.balance a env.evmDenom = 0

/-- The store before the module is initialised. -/
structure Uninitialised (env : Env) (st : AppStore) : Prop where
  native : st.rest.nativePrecompiles = []
  dynamic : st.rest.dynamicPrecompiles = []
  tokenPairs : st.rest.tokenPairs = fun _ => none
  denomMap : st.rest.denomMap = fun _ => none
  erc20Map : st.rest.erc20Map = fun _ => none
  noOrphans : NoOrphans env st

variable {st : AppStore}

/-- Setting code hashes leaves no coins without an account. -/
theorem Recoded.noOrphans {ops : List (Address × Hash)} {st' : AppStore}
    (h : Recoded env ops st st') (hst : NoOrphans env st) : NoOrphans env st' := by
  intro a hnone
  rw [h.sequence a] at hnone
  rw [h.balance a env.evmDenom]
  split
  · rfl
  · split at hnone
    · cases hnone
    · exact hst a hnone

/-- A code hash can be set where no coins are lost. -/
theorem setCodeHashOf_total {a : Address} {h : Hash} (hst : NoOrphans env st) :
    ∃ st', (setCodeHashOf env a h).run st = .ok () st' ∧ NoOrphans env st' := by
  suffices hrun : ∃ st', (setCodeHashOf env a h).run st = .ok () st' by
    obtain ⟨st', hok⟩ := hrun
    exact ⟨st', hok, (setCodeHashOf_ok hok).noOrphans hst⟩
  unfold setCodeHashOf
  cases hsequence : st.sequence a with
  | none =>
    have hzero := hst a hsequence
    simp only [Store.getAccount, hsequence, Option.map_none, Keeper.setAccount, run_modify_bind,
      Keeper.setBalance, run_get_bind]
    simp [Store.getBalance, Store.setSequence, Store.setCodeHash, hzero,
      Env.convertAmountTo18Decimals]
  | some seq =>
    simp only [Store.getAccount, hsequence, Option.map_some, Keeper.setAccount, run_modify_bind,
      Keeper.setBalance, run_get_bind]
    simp [Store.getBalance, Store.setSequence, Store.setCodeHash]

/-- So can that of the precompiles. -/
theorem registerERC20CodeHash_total {a : Address} (hst : NoOrphans env st) :
    ∃ st', (registerERC20CodeHash env cfg a).run st = .ok () st' ∧ NoOrphans env st' := by
  unfold registerERC20CodeHash
  simp only [run_modify_bind]
  split
  · exact setCodeHashOf_total hst
  · exact setCodeHashOf_total hst

/-- So can those of two lists. -/
theorem registerOrUnregisterERC20CodeHashes_total (old new : List Bytes) {st : AppStore}
    (hst : NoOrphans env st) :
    ∃ st', (registerOrUnregisterERC20CodeHashes env cfg old new).run st = .ok () st' ∧
      NoOrphans env st' := by
  obtain ⟨st₁, hold, hst₁⟩ := forM_total (fun _ => NoOrphans env)
    (f := fun precompile => unRegisterERC20CodeHash env (hexToAddress precompile))
    (l := old.filter (· ∉ new)) hst fun _ _ _ _ _ h => setCodeHashOf_total h
  obtain ⟨st₂, hnew, hst₂⟩ := forM_total (fun _ => NoOrphans env)
    (f := fun precompile => registerERC20CodeHash env cfg (hexToAddress precompile))
    (l := new.filter (· ∉ old)) hst₁ fun _ _ _ _ _ h => registerERC20CodeHash_total h
  exact ⟨st₂, bind_ok.mpr ⟨(), st₁, hold, hnew⟩, hst₂⟩

/-- Valid parameters can be set where there are none. -/
theorem setParams_total {p : Params} {st : AppStore} (hst : Uninitialised env st)
    (hvalid : p.validate = .ok ()) : ∃ st', (setParams env cfg p).run st = .ok () st' := by
  have hsorted : (newParams p.enableErc20 p.nativePrecompiles p.dynamicPrecompiles).validate =
      .ok () := by
    have heq : newParams p.enableErc20 p.nativePrecompiles p.dynamicPrecompiles = p :=
      (Params.valid hvalid).sorted_eq
    rw [heq]
    exact hvalid
  have hnative : getNativePrecompiles st = .ok [] := by
    unfold getNativePrecompiles
    rw [hst.native]
    rfl
  have hdynamic : getDynamicPrecompiles st = .ok [] := by
    unfold getDynamicPrecompiles
    rw [hst.dynamic]
    rfl
  obtain ⟨st₁, hfirst, hst₁⟩ := @registerOrUnregisterERC20CodeHashes_total env cfg []
    p.sorted.dynamicPrecompiles _ hst.noOrphans
  obtain ⟨st₂, hsecond, -⟩ := @registerOrUnregisterERC20CodeHashes_total env cfg []
    p.sorted.nativePrecompiles _ hst₁
  have hupdate : (updateCodeHash env cfg p.sorted).run st = .ok () st₂ := by
    refine bind_ok.mpr ⟨[], st, KeeperM.read_ok.mpr ⟨hnative, rfl⟩, ?_⟩
    refine bind_ok.mpr ⟨[], st, KeeperM.read_ok.mpr ⟨hdynamic, rfl⟩, ?_⟩
    exact bind_ok.mpr ⟨(), st₁, hfirst, hsecond⟩
  exact ⟨_, bind_ok.mpr ⟨(), st, KeeperM.check_ok.mpr ⟨hsorted, rfl⟩,
    bind_ok.mpr ⟨(), st₂, hupdate, rfl⟩⟩⟩

/-! ## The registry that is filled -/

/-- The registry has the pairs of the list, later over earlier ones. -/
structure Filled (cfg : Config) (pairs : List TokenPair) (r : Erc20Store) : Prop where
  tokenPairs : r.tokenPairs = fill (getID cfg) id pairs
  denomMap : r.denomMap = fill denom (getID cfg) pairs
  erc20Map : r.erc20Map = fill getERC20Contract (getID cfg) pairs

/-- One more pair is filled in. -/
theorem Filled.setToken (h : Filled cfg pairs st.rest) (pair : TokenPair) :
    ∃ st', (setToken cfg pair).run st = .ok () st' ∧ Filled cfg (pairs ++ [pair]) st'.rest ∧
      ∀ p : Params, p.Stored st.rest → p.Stored st'.rest := by
  refine ⟨_, rfl, ⟨?_, ?_, ?_⟩, fun p h => ⟨h.enableErc20, h.dynamic, h.native⟩⟩
  · exact (congrArg (Function.update · _ _) h.tokenPairs).trans
      (fill_append_singleton pairs pair).symm
  · exact (congrArg (Function.update · _ _) h.denomMap).trans
      (fill_append_singleton pairs pair).symm
  · exact (congrArg (Function.update · _ _) h.erc20Map).trans
      (fill_append_singleton pairs pair).symm

/-- Nothing is read of a store that has none. -/
theorem Uninitialised.getParams {st : AppStore} (hst : Uninitialised env st) :
    getParams st = .ok (newParams st.rest.enableErc20 [] []) := by
  unfold Erc20Keeper.getParams getDynamicPrecompiles getNativePrecompiles
  rw [hst.native, hst.dynamic]
  rfl

/-- Setting the parameters makes accounts and fills no registry. -/
theorem setParams_fresh {p : Params} {st st₁ : AppStore} (hst : Uninitialised env st)
    (hvalid : p.validate = .ok ()) (hset : (setParams env cfg p).run st = .ok () st₁)
    (a : Address) :
    Filled cfg [] st₁.rest ∧ (st₁.sequence a = none ↔ st.sequence a = none ∧ a ∉ p.addresses) := by
  have hp := Params.valid hvalid
  constructor
  · obtain ⟨st₀, hupdate, rfl⟩ := setParams_ok hset
    obtain ⟨_, _, -, -, hrecoded⟩ := updateCodeHash_ok hst.getParams hupdate
    refine ⟨?_, ?_, ?_⟩
    · exact (congrArg Erc20Store.tokenPairs hrecoded.rest).trans hst.tokenPairs
    · exact (congrArg Erc20Store.denomMap hrecoded.rest).trans hst.denomMap
    · exact (congrArg Erc20Store.erc20Map hrecoded.rest).trans hst.erc20Map
  · obtain ⟨st₀, rest, hrecoded, rfl⟩ := setParams_recoded hp hst.getParams hset
    have hall (l : List Bytes) : Differs l [] a ↔ a ∈ addresses l := by
      simp [Differs, addresses]
    have hnone (l : List Bytes) : ¬ Differs [] l a := by simp [Differs]
    have htouches : a ∈ (Params.registrations env cfg
        (newParams st.rest.enableErc20 [] []) p).map Prod.fst ↔ a ∈ p.addresses := by
      rw [Params.mem_registrations, Params.mem_addresses, Params.Touches]
      show (Differs [] _ a ∨ Differs _ [] a) ∨ Differs [] _ a ∨ Differs _ [] a ↔ _
      simp only [hall, hnone, false_or]
      exact or_comm
    show st₀.sequence a = none ↔ _
    rw [hrecoded.sequence a]
    simp only [htouches]
    split <;> simp [*]

/-- No precompile takes an address of the module that is to be made. -/
def GenesisState.LeavesModule (isModuleAccount : Address → Bool) (moduleAddress : Address)
    (gs : GenesisState) : Prop :=
  isModuleAccount moduleAddress = true ∨ moduleAddress ∉ gs.params.addresses

/-- The account of the module is there, or can be made. -/
theorem getModuleAccount_ok_iff {st₁ : AppStore} :
    (∃ st₂, (getModuleAccount isModuleAccount moduleAddress).run st₁ = .ok () st₂) ↔
      st₁.sequence moduleAddress = none ∨ isModuleAccount moduleAddress = true := by
  unfold getModuleAccount
  rw [run_get_bind]
  split
  · simp [*]
  · split <;> simp [*]

/-- It is not part of the module's store. -/
theorem getModuleAccount_rest {st₁ st₂ : AppStore}
    (h : (getModuleAccount isModuleAccount moduleAddress).run st₁ = .ok () st₂) :
    st₂.rest = st₁.rest := by
  unfold getModuleAccount at h
  rw [run_get_bind] at h
  split at h
  · cases h
    rfl
  · split at h
    · cases h
      rfl
    · cases h

/-- **Import** of a valid genesis state fills the registry. -/
theorem initGenesis_total {gs : GenesisState} {st : AppStore} (hst : Uninitialised env st)
    (hmodule : st.sequence moduleAddress = none ∨ isModuleAccount moduleAddress = true)
    (hvalid : gs.params.validate = .ok ()) :
    ((∃ st', (initGenesis env cfg isModuleAccount moduleAddress gs).run st = .ok () st') ↔
        gs.LeavesModule isModuleAccount moduleAddress) ∧
      ∀ st', (initGenesis env cfg isModuleAccount moduleAddress gs).run st = .ok () st' →
        gs.params.Stored st'.rest ∧ Filled cfg gs.tokenPairs st'.rest := by
  obtain ⟨st₁, hset⟩ := @setParams_total env cfg _ _ hst hvalid
  obtain ⟨hrest, hsequence⟩ := setParams_fresh hst hvalid hset moduleAddress
  have hstored := setParams_stored (Params.valid hvalid) hset
  have haccount : (∃ st₂, (getModuleAccount isModuleAccount moduleAddress).run st₁ = .ok () st₂) ↔
      gs.LeavesModule isModuleAccount moduleAddress := by
    rw [getModuleAccount_ok_iff, hsequence, GenesisState.LeavesModule]
    tauto
  -- the pairs are set one after the other
  have htokens (st₂ : AppStore) (hsame : st₂.rest = st₁.rest) :
      ∃ st', (gs.tokenPairs.forM (setToken cfg)).run st₂ = .ok () st' ∧
        gs.params.Stored st'.rest ∧ Filled cfg gs.tokenPairs st'.rest := by
    obtain ⟨st', hrun, hfilled, hkept⟩ := forM_total
      (fun done st => Filled cfg done st.rest ∧ gs.params.Stored st.rest)
      (f := Erc20Keeper.setToken cfg) (l := gs.tokenPairs) (s := st₂)
      ⟨hsame ▸ hrest, hsame ▸ hstored⟩
      fun done pair _ st _ h => by
        obtain ⟨st', hrun, hfilled, hkept⟩ := h.1.setToken pair
        exact ⟨st', hrun, hfilled, hkept _ h.2⟩
    exact ⟨st', hrun, hkept, hfilled⟩
  have hrun (st' : AppStore) :
      (initGenesis env cfg isModuleAccount moduleAddress gs).run st = .ok () st' ↔
        ∃ st₂, (getModuleAccount isModuleAccount moduleAddress).run st₁ = .ok () st₂ ∧
          (gs.tokenPairs.forM (setToken cfg)).run st₂ = .ok () st' := by
    constructor
    · intro h
      obtain ⟨_, st₁', hset', h⟩ := bind_ok.mp h
      cases (mapError_ok.mp hset').symm.trans hset
      obtain ⟨_, st₂, hmade, h⟩ := bind_ok.mp h
      exact ⟨st₂, hmade, h⟩
    · rintro ⟨st₂, hmade, h⟩
      exact bind_ok.mpr ⟨(), st₁, mapError_ok.mpr hset, bind_ok.mpr ⟨(), st₂, hmade, h⟩⟩
  refine ⟨⟨?_, fun hleaves => ?_⟩, fun st' h => ?_⟩
  · rintro ⟨st', h⟩
    obtain ⟨st₂, hmade, -⟩ := (hrun st').mp h
    exact haccount.mp ⟨st₂, hmade⟩
  · obtain ⟨st₂, hmade⟩ := haccount.mpr hleaves
    obtain ⟨st', htoken, -⟩ := htokens st₂ (getModuleAccount_rest hmade)
    exact ⟨st', (hrun st').mpr ⟨st₂, hmade, htoken⟩⟩
  · obtain ⟨st₂, hmade, h⟩ := (hrun st').mp h
    obtain ⟨st'', htoken, hkept⟩ := htokens st₂ (getModuleAccount_rest hmade)
    cases htoken.symm.trans h
    exact hkept

/-- Contracts and identifiers are distinct, and precompiles have their `0x`. -/
structure GenesisState.Unambiguous (cfg : Config) (gs : GenesisState) : Prop where
  contracts : ∀ p ∈ gs.tokenPairs, ∀ q ∈ gs.tokenPairs,
    p.getERC20Contract = q.getERC20Contract → p = q
  identifiers : ∀ p ∈ gs.tokenPairs, ∀ q ∈ gs.tokenPairs, p.getID cfg = q.getID cfg → p = q
  spelled : gs.params.Spelled

/-- The registry is consistent and exported again. -/
structure Restored (cfg : Config) (gs : GenesisState) (st : AppStore) : Prop where
  consistent : Consistent cfg st.rest
  exported : ∃ gs', exportGenesis st = .ok gs' ∧ gs'.params = gs.params ∧
    ∀ p, p ∈ gs'.tokenPairs ↔ p ∈ gs.tokenPairs

/-- All stored pairs are exported. -/
theorem mem_getTokenPairs {p : TokenPair} :
    p ∈ getTokenPairs st ↔ ∃ id, st.rest.tokenPairs id = some p := by
  unfold getTokenPairs
  rw [List.mem_map]
  constructor
  · rintro ⟨⟨id, q⟩, hmem, rfl⟩
    exact ⟨id, (OrderedKeys.mem_entries _).mp hmem⟩
  · rintro ⟨id, hid⟩
    exact ⟨(id, p), (OrderedKeys.mem_entries _).mpr hid, rfl⟩

/-- What is exported. -/
theorem exportGenesis_ok {gs : GenesisState} (h : exportGenesis st = .ok gs) :
    getParams st = .ok gs.params ∧ gs.tokenPairs = getTokenPairs st := by
  obtain ⟨params, hparams, heq⟩ := except_bind_ok.mp h
  obtain rfl := Except.ok.inj heq
  exact ⟨hparams, rfl⟩

/-- A registry filled from pairs without a clash is consistent. -/
theorem Filled.consistent {r : Erc20Store} (h : Filled cfg pairs r)
    (hid : ∀ p ∈ pairs, ∀ q ∈ pairs, p.getID cfg = q.getID cfg → p = q)
    (hdenom : ∀ p ∈ pairs, ∀ q ∈ pairs, p.denom = q.denom → p = q)
    (hcontract : ∀ p ∈ pairs, ∀ q ∈ pairs, p.getERC20Contract = q.getERC20Contract → p = q) :
    Consistent cfg r := by
  have hpairs : ∀ id p, r.tokenPairs id = some p ↔ p ∈ pairs ∧ p.getID cfg = id := by
    intro id p
    rw [h.tokenPairs, fill_eq_some_iff hid]
    constructor
    · rintro ⟨q, hq, hkey, rfl⟩
      exact ⟨hq, hkey⟩
    · rintro ⟨hp, hkey⟩
      exact ⟨p, hp, hkey, rfl⟩
  refine ⟨fun id p hp => ((hpairs id p).mp hp).2, ?_, ?_⟩
  · intro d id
    rw [h.denomMap, fill_eq_some_iff hdenom]
    constructor
    · rintro ⟨p, hp, hfield, hkey⟩
      exact ⟨p, (hpairs id p).mpr ⟨hp, hkey⟩, hfield⟩
    · rintro ⟨p, hp, hfield⟩
      obtain ⟨hmem, hkey⟩ := (hpairs id p).mp hp
      exact ⟨p, hmem, hfield, hkey⟩
  · intro a id
    rw [h.erc20Map, fill_eq_some_iff hcontract]
    constructor
    · rintro ⟨p, hp, hfield, hkey⟩
      exact ⟨p, (hpairs id p).mpr ⟨hp, hkey⟩, hfield⟩
    · rintro ⟨p, hp, hfield⟩
      obtain ⟨hmem, hkey⟩ := (hpairs id p).mp hp
      exact ⟨p, hmem, hfield, hkey⟩

/-- **ERC20 genesis.** A valid state is imported just if no precompile takes the module's own
address; it is then consistent and exported as it was if and only if it is unambiguous. -/
theorem initGenesis_iff {gs : GenesisState} {st : AppStore} (hst : Uninitialised env st)
    (hmodule : st.sequence moduleAddress = none ∨ isModuleAccount moduleAddress = true)
    (hvalid : gs.validate = .ok ()) :
    ((∃ st', (initGenesis env cfg isModuleAccount moduleAddress gs).run st = .ok () st') ↔
        gs.LeavesModule isModuleAccount moduleAddress) ∧
      ∀ st', (initGenesis env cfg isModuleAccount moduleAddress gs).run st = .ok () st' →
        (Restored cfg gs st' ↔ gs.Unambiguous cfg) := by
  have hgs := GenesisState.valid hvalid
  obtain ⟨himported, hresult⟩ :=
    @initGenesis_total env cfg isModuleAccount moduleAddress _ _ hst hmodule hgs.params
  refine ⟨himported, fun st' hrun => ?_⟩
  obtain ⟨hkept, hfilled⟩ := hresult st' hrun
  have hspelled := hkept.getParams_iff (Params.valid hgs.params)
  constructor
  · rintro ⟨hconsistent, gs', hexport, hparams, hpairs⟩
    obtain ⟨hread, hwalk⟩ := exportGenesis_ok hexport
    -- every pair of the genesis state is stored
    have hstored : ∀ p ∈ gs.tokenPairs, st'.rest.tokenPairs (p.getID cfg) = some p := by
      intro p hp
      rw [← hpairs, hwalk] at hp
      obtain ⟨id, hid⟩ := mem_getTokenPairs.mp hp
      rw [hconsistent.keyed id p hid]
      exact hid
    refine ⟨fun p hp q hq hsame => ?_, fun p hp q hq hsame => ?_, ?_⟩
    · have hindex := hconsistent.erc20.lookup (hstored p hp)
      rw [hsame, hconsistent.erc20.lookup (hstored q hq)] at hindex
      have hone := hstored p hp
      rw [← Option.some_inj.mp hindex, hstored q hq] at hone
      exact (Option.some_inj.mp hone).symm
    · have hone := hstored p hp
      rw [hsame, hstored q hq] at hone
      exact (Option.some_inj.mp hone).symm
    · rw [hparams] at hread
      exact hspelled.mp hread
  · rintro ⟨hcontracts, hids, htexts⟩
    have hdenoms : ∀ p ∈ gs.tokenPairs, ∀ q ∈ gs.tokenPairs, p.denom = q.denom → p = q :=
      fun p hp q hq => List.inj_on_of_nodup_map hgs.denomUnique hp hq
    refine ⟨hfilled.consistent hids hdenoms hcontracts, ?_⟩
    refine ⟨⟨gs.params, getTokenPairs st'⟩, ?_, rfl, fun p => ?_⟩
    · unfold exportGenesis
      rw [hspelled.mpr htexts]
      rfl
    rw [mem_getTokenPairs, hfilled.tokenPairs]
    simp only [fill_eq_some_iff hids]
    constructor
    · rintro ⟨id, q, hq, -, rfl⟩
      exact hq
    · intro hp
      exact ⟨_, p, hp, rfl, rfl⟩

/-! ## Two spellings of one contract -/

namespace Devnet

/-- Two coins with their contracts. -/
def genesis (erc20Address : Bytes) : GenesisState where
  params := dynamicParams
  tokenPairs := [
    { erc20Address := address, denom := ascii "aaa".toList, enabled := true,
      contractOwner := .module },
    { erc20Address := erc20Address, denom := ascii "bbb".toList, enabled := true,
      contractOwner := .module }]

/-- The address `0x22…22`. -/
def otherAddress : Bytes := 48 :: 120 :: List.replicate 40 50

theorem uninitialised : Uninitialised chain store := ⟨rfl, rfl, rfl, rfl, rfl, fun _ _ => rfl⟩

end Devnet

open Erc20Keeper.Devnet

/-- Two contracts. -/
theorem initGenesis_devnet :
    ∃ st', (initGenesis chain config (fun _ => false) 0xE2 (Devnet.genesis otherAddress)).run
        store = .ok () st' ∧
      Restored config (Devnet.genesis otherAddress) st' := by
  have hvalid : (Devnet.genesis otherAddress).validate = .ok () := by decide +kernel
  obtain ⟨himported, hiff⟩ := @initGenesis_iff chain config (fun _ => false) 0xE2 _ _
    uninitialised (.inl rfl) hvalid
  obtain ⟨st', hrun⟩ := himported.mpr (.inr (by decide +kernel))
  refine ⟨st', hrun, (hiff st' hrun).mpr ⟨?_, ?_, ?_⟩⟩
  · decide +kernel
  · decide +kernel
  · unfold Params.Spelled
    decide +kernel

/-- **One contract for two coins** leads to the second pair only. -/
theorem initGenesis_one_contract :
    (Devnet.genesis bareAddress).validate = .ok () ∧
      ∃ st', (initGenesis chain config (fun _ => false) 0xE2
          (Devnet.genesis bareAddress)).run store = .ok () st' ∧
        ¬ Consistent config st'.rest := by
  refine ⟨by decide +kernel, ?_⟩
  have hstored : ∃ st', (initGenesis chain config (fun _ => false) 0xE2
        (Devnet.genesis bareAddress)).run store = .ok () st' ∧
      ∀ p ∈ (Devnet.genesis bareAddress).tokenPairs,
        st'.rest.tokenPairs (p.getID config) = some p :=
    Devnet.exists_of_okAnd (by decide +kernel)
  obtain ⟨st', hrun, hpairs⟩ := hstored
  refine ⟨st', hrun, fun h => ?_⟩
  have hfirst := h.erc20.lookup (hpairs _ List.mem_cons_self)
  have hsecond := h.erc20.lookup (hpairs _ (List.mem_cons_of_mem _ List.mem_cons_self))
  have hcontract : hexToAddress Devnet.address = hexToAddress bareAddress := by
    decide +kernel
  rw [TokenPair.getERC20Contract] at hfirst hsecond
  rw [hcontract, hsecond] at hfirst
  exact absurd hfirst (by decide +kernel)

end TacEvm.Erc20Keeper
