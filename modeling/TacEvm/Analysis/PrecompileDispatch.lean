import TacEvm.Analysis.AccessControl
import TacEvm.Model.StaticPrecompiles

/-!
# The dispatch to static precompiles

The validation accepts every spelling, the dispatch looks for the one with the checksum, and the
keeper has its own instances. The three agree exactly if every address of the list is in it with its
checksum and has an instance (`dispatches_iff`).
-/

namespace TacEvm.Vm

open FallibleState
open Erc20Keeper (sortStrings)

variable {P : Type} {env : Env} {precompiles : Address → Option P} {params params' : Params}

/-- What the parameters make a static precompile. -/
def Params.Active (params : Params) (a : Address) : Prop :=
  a ∈ precompiledAddressesBerlin ∨ a ∈ params.getActiveStaticPrecompilesAddrs

variable (env precompiles) in
/-- The dispatch answers everywhere, with instances for what is active. -/
structure Dispatches (params : Params) : Prop where
  answers : ∀ a, ∃ found, getStaticPrecompileInstance env precompiles params a = .ok found
  found_iff : ∀ a, (∃ p, getStaticPrecompileInstance env precompiles params a = .ok (some p)) ↔
    params.Active a

variable (env precompiles) in
/-- Listed addresses are found and have instances; so have those of Berlin. -/
structure Dispatchable (params : Params) : Prop where
  checksummed : ∀ a ∈ params.getActiveStaticPrecompilesAddrs,
    a ∈ precompiledAddressesBerlin ∨ addressHex env a ∈ params.activeStaticPrecompiles
  compiled : ∀ a, params.Active a → ∃ p, precompiles a = some p

variable {a : Address}

theorem isAvailable_iff : isAvailableStaticPrecompile env params a = true ↔
    addressHex env a ∈ params.activeStaticPrecompiles ∨ a ∈ precompiledAddressesBerlin := by
  unfold isAvailableStaticPrecompile
  rw [Bool.or_eq_true, decide_eq_true_eq, decide_eq_true_eq]

theorem active_of_isAvailable (h : isAvailableStaticPrecompile env params a = true) :
    params.Active a := by
  rcases isAvailable_iff.1 h with htext | hberlin
  · exact .inr (List.mem_map.2 ⟨_, htext, hexToAddress_addressHex env a⟩)
  · exact .inl hberlin

theorem getStaticPrecompileInstance_some {p : P} :
    getStaticPrecompileInstance env precompiles params a = .ok (some p) ↔
      isAvailableStaticPrecompile env params a = true ∧ precompiles a = some p := by
  unfold getStaticPrecompileInstance
  by_cases havailable : isAvailableStaticPrecompile env params a = true
  · rw [if_pos havailable]
    cases hinstance : precompiles a with
    | none =>
      refine ⟨fun h => ?_, fun h => ?_⟩
      · cases h
      · cases h.2
    | some q =>
      refine ⟨fun h => ?_, fun h => ?_⟩
      · cases h
        exact ⟨havailable, rfl⟩
      · cases h.2
        rfl
  · rw [if_neg havailable]
    refine ⟨fun h => ?_, fun h => absurd h.1 havailable⟩
    cases h

theorem getStaticPrecompileInstance_none (h : isAvailableStaticPrecompile env params a = false) :
    getStaticPrecompileInstance env precompiles params a = .ok none := by
  unfold getStaticPrecompileInstance
  rw [h]
  rfl

theorem Dispatchable.dispatches (h : Dispatchable env precompiles params) :
    Dispatches env precompiles params where
  answers := by
    intro a
    cases havailable : isAvailableStaticPrecompile env params a with
    | true =>
      obtain ⟨p, hp⟩ := h.compiled a (active_of_isAvailable havailable)
      exact ⟨some p, getStaticPrecompileInstance_some.2 ⟨havailable, hp⟩⟩
    | false => exact ⟨none, getStaticPrecompileInstance_none havailable⟩
  found_iff := by
    intro a
    constructor
    · rintro ⟨p, hp⟩
      exact active_of_isAvailable (getStaticPrecompileInstance_some.1 hp).1
    intro hactive
    obtain ⟨p, hp⟩ := h.compiled a hactive
    refine ⟨p, getStaticPrecompileInstance_some.2 ⟨isAvailable_iff.2 ?_, hp⟩⟩
    rcases hactive with hberlin | hlisted
    · exact .inr hberlin
    · exact (h.checksummed a hlisted).symm

theorem Dispatches.dispatchable (h : Dispatches env precompiles params) :
    Dispatchable env precompiles params where
  checksummed := by
    intro a hlisted
    obtain ⟨p, hp⟩ := (h.found_iff a).2 (.inr hlisted)
    exact (isAvailable_iff.1 (getStaticPrecompileInstance_some.1 hp).1).symm
  compiled := by
    intro a hactive
    obtain ⟨p, hp⟩ := (h.found_iff a).2 hactive
    exact ⟨p, (getStaticPrecompileInstance_some.1 hp).2⟩

/-- The same active addresses dispatch the same. -/
theorem Dispatches.same (h : Dispatches env precompiles params)
    (h' : Dispatches env precompiles params')
    (hsame : ∀ a, a ∈ params.getActiveStaticPrecompilesAddrs ↔
      a ∈ params'.getActiveStaticPrecompilesAddrs) (a : Address) :
    getStaticPrecompileInstance env precompiles params a =
      getStaticPrecompileInstance env precompiles params' a := by
  have hactive : params.Active a ↔ params'.Active a := or_congr_right (hsame a)
  obtain ⟨found, hfound⟩ := h.answers a
  obtain ⟨found', hfound'⟩ := h'.answers a
  cases found with
  | some p =>
    obtain ⟨q, hq⟩ := (h'.found_iff a).2 (hactive.1 ((h.found_iff a).1 ⟨p, hfound⟩))
    have hp := (getStaticPrecompileInstance_some.1 hfound).2
    have hinstance := (getStaticPrecompileInstance_some.1 hq).2
    rw [hp] at hinstance
    cases hinstance
    rw [hfound, hq]
  | none =>
    cases found' with
    | none => rw [hfound, hfound']
    | some q =>
      obtain ⟨p, hp⟩ := (h.found_iff a).2 (hactive.2 ((h'.found_iff a).1 ⟨q, hfound'⟩))
      rw [hfound] at hp
      cases hp

/-! ## Parameters that are set -/

section Set

variable {cfg : Config} {st st' : AppStore}

theorem setParams_ok (h : (setParams cfg params).run st = .ok () st') :
    getParams st' =
      { params with activeStaticPrecompiles := sortStrings params.activeStaticPrecompiles } := by
  obtain ⟨_, -, hstore⟩ := KeeperM.check_bind_ok.1 h
  cases hstore
  rfl

theorem mem_sortStrings {l : List Bytes} {s : Bytes} : s ∈ sortStrings l ↔ s ∈ l :=
  (List.perm_insertionSort _ l).mem_iff

theorem dispatchable_setParams (h : (setParams cfg params).run st = .ok () st') :
    Dispatchable env precompiles (getParams st') ↔ Dispatchable env precompiles params := by
  have htext (s : Bytes) : s ∈ (getParams st').activeStaticPrecompiles ↔
      s ∈ params.activeStaticPrecompiles := by
    rw [setParams_ok h]
    exact mem_sortStrings
  have haddrs (a : Address) : a ∈ (getParams st').getActiveStaticPrecompilesAddrs ↔
      a ∈ params.getActiveStaticPrecompilesAddrs := by
    unfold Params.getActiveStaticPrecompilesAddrs
    simp only [List.mem_map, htext]
  have hactive (a : Address) : (getParams st').Active a ↔ params.Active a :=
    or_congr_right (haddrs a)
  constructor
  · rintro ⟨hchecksummed, hcompiled⟩
    exact ⟨fun a ha => (hchecksummed a ((haddrs a).2 ha)).imp_right (htext _).1,
      fun a ha => hcompiled a ((hactive a).2 ha)⟩
  · rintro ⟨hchecksummed, hcompiled⟩
    exact ⟨fun a ha => (hchecksummed a ((haddrs a).1 ha)).imp_right (htext _).2,
      fun a ha => hcompiled a ((hactive a).1 ha)⟩

/-- **When the dispatch is by address**: exactly if listed addresses have checksums and
instances. -/
theorem dispatches_iff {P : Type} (env : Env) (precompiles : Address → Option P) {cfg : Config}
    {params : Params} {st st' : AppStore} (hset : (setParams cfg params).run st = .ok () st') :
    (Dispatches env precompiles (getParams st') ↔ Dispatchable env precompiles params) ∧
      ∀ (params₂ : Params) (st₂ st₂' : AppStore),
        (setParams cfg params₂).run st₂ = .ok () st₂' →
        Dispatchable env precompiles params → Dispatchable env precompiles params₂ →
        (∀ a, a ∈ (getParams st').getActiveStaticPrecompilesAddrs ↔
          a ∈ (getParams st₂').getActiveStaticPrecompilesAddrs) →
        ∀ a, getStaticPrecompileInstance env precompiles (getParams st') a =
          getStaticPrecompileInstance env precompiles (getParams st₂') a := by
  constructor
  · rw [← dispatchable_setParams hset]
    exact ⟨Dispatches.dispatchable, Dispatchable.dispatches⟩
  · intro params₂ st₂ st₂' hset₂ h h₂ hsame
    have hdispatches := ((dispatchable_setParams hset).2 h).dispatches
    have hdispatches₂ := ((dispatchable_setParams hset₂).2 h₂).dispatches
    exact hdispatches.same hdispatches₂ hsame

variable {addresses : List Address}

theorem appendPrecompiles_ok {existing updated : List Bytes}
    (h : appendPrecompiles env existing addresses = .ok updated) :
    updated = sortStrings (existing ++ addresses.map (addressHex env)) := by
  obtain ⟨hexAddresses, hmap, hsort⟩ := except_bind_ok.1 h
  cases hsort
  suffices hexAddresses = addresses.map (addressHex env) by rw [this]
  clear h
  induction addresses generalizing hexAddresses with
  | nil =>
    cases hmap
    rfl
  | cons address addresses ih =>
    simp only [List.mapM_cons, except_bind_ok, pure, Except.pure] at hmap
    grind

/-- **Activating precompiles** that are compiled in is safe. -/
theorem enableStaticPrecompiles_dispatches
    (hrun : (enableStaticPrecompiles env cfg addresses).run st = .ok () st')
    (h : Dispatches env precompiles (getParams st))
    (hcompiled : ∀ a ∈ addresses, ∃ p, precompiles a = some p) :
    Dispatches env precompiles (getParams st') ∧
      ∀ a, (getParams st').Active a ↔ (getParams st).Active a ∨ a ∈ addresses := by
  unfold enableStaticPrecompiles at hrun
  rw [run_get_bind] at hrun
  obtain ⟨updated, hupdated, hset⟩ := KeeperM.check_bind_ok.1 hrun
  have htext (s : Bytes) : s ∈ (getParams st').activeStaticPrecompiles ↔
      s ∈ (getParams st).activeStaticPrecompiles ∨ s ∈ addresses.map (addressHex env) := by
    rw [setParams_ok hset, mem_sortStrings, appendPrecompiles_ok hupdated, mem_sortStrings,
      List.mem_append]
  have hactive (a : Address) : (getParams st').Active a ↔
      (getParams st).Active a ∨ a ∈ addresses := by
    have hread := hexToAddress_addressHex env
    unfold Params.Active Params.getActiveStaticPrecompilesAddrs
    simp only [List.mem_map, htext]
    grind
  obtain ⟨hchecksummed, hinstances⟩ := h.dispatchable
  refine ⟨Dispatchable.dispatches ⟨fun a ha => ?_, fun a ha => ?_⟩, hactive⟩
  · rcases (hactive a).1 (.inr ha) with (hberlin | hold) | hnew
    · exact .inl hberlin
    · exact (hchecksummed a hold).imp_right fun htexted => (htext _).2 (.inl htexted)
    · exact .inr ((htext _).2 (.inr (List.mem_map_of_mem hnew)))
  · exact ((hactive a).1 ha).elim (hinstances a) (hcompiled a)

end Set

/-! ## The precompiles of `evmd` -/

namespace Devnet

/-- Parameters with a list of active precompiles. -/
def activating (list : List Bytes) : Params :=
  { permissioned [] with activeStaticPrecompiles := list }

/-- The precompiles of `evmd`, each by its address. -/
def staticPrecompiles : Address → Option Address := newAvailableStaticPrecompiles id

/-- A store without parameters. -/
def unset : AppStore :=
  Devnet.emptyStore { params := none, legacyParams := permissioned [] }

/-- The store after parameters were set. -/
def activated (list : List Bytes) : AppStore :=
  { unset with rest := { unset.rest with params := some (activating (sortStrings list)) } }

theorem activating_run {list : List Bytes}
    (h : (activating (sortStrings list)).validate config = .ok ()) :
    (setParams config (activating list)).run unset = .ok () (activated list) :=
  KeeperM.check_bind_ok.2 ⟨(), h, rfl⟩

theorem activated_list (list : List Bytes) :
    (getParams (activated list)).activeStaticPrecompiles = sortStrings list := rfl

/-- `0x800` without the leading `0x`. -/
def bareStaking : Bytes := stakingPrecompileAddress.drop 2

end Devnet

open Vm.Devnet

/-- The list of `evmd` without the vesting precompile. -/
def Devnet.compiledList : List Bytes := availableStaticPrecompiles.erase vestingPrecompileAddress

def Devnet.compiledAddresses : List Address :=
  [0x100, 0x400, 0x800, 0x801, 0x802, 0x804, 0x805, 0x806, 0x807]

theorem Devnet.staticPrecompiles_some (h : a ∈ precompiledAddressesBerlin ∨ a ∈ compiledAddresses) :
    ∃ p, staticPrecompiles a = some p := by
  have hcompiled := h.imp_right (List.Perm.swap 0x400 0x100 _).mem_iff.1
  unfold staticPrecompiles newAvailableStaticPrecompiles
  rw [if_pos hcompiled]
  exact ⟨_, rfl⟩

/-- All precompiles of `evmd` that are compiled in. -/
theorem dispatches_evmd :
    Dispatches chainEnv staticPrecompiles (getParams (activated compiledList)) := by
  have hset : (setParams config (activating compiledList)).run unset =
      .ok () (activated compiledList) := activating_run (by decide +kernel)
  have hread : (activating compiledList).getActiveStaticPrecompilesAddrs =
      compiledAddresses := by decide +kernel
  have hwritten : compiledAddresses.map (addressHex chainEnv) = compiledList := by decide +kernel
  refine (dispatches_iff chainEnv staticPrecompiles hset).1.2 ⟨fun a ha => .inr ?_, fun a ha => ?_⟩
  · rw [hread] at ha
    have hmem := List.mem_map_of_mem (f := addressHex chainEnv) ha
    rw [hwritten] at hmem
    exact hmem
  · unfold Params.Active at ha
    rw [hread] at ha
    exact staticPrecompiles_some ha

/-- The staking precompile, activated on its own. -/
theorem enableStaticPrecompiles_staking :
    Dispatches chainEnv staticPrecompiles (getParams (activated [stakingPrecompileAddress])) := by
  have hrun : (enableStaticPrecompiles chainEnv config [0x800]).run (activated []) =
      .ok () (activated [stakingPrecompileAddress]) := by
    unfold enableStaticPrecompiles
    rw [run_get_bind]
    exact KeeperM.check_bind_ok.2 ⟨[stakingPrecompileAddress], by decide +kernel,
      KeeperM.check_bind_ok.2 ⟨(), by decide +kernel, rfl⟩⟩
  have hnone : Dispatchable chainEnv staticPrecompiles (getParams (activated [])) :=
    ⟨fun _ h => (by cases h), fun _ h => staticPrecompiles_some (h.imp_right fun h => by cases h)⟩
  refine (enableStaticPrecompiles_dispatches hrun hnone.dispatches fun a ha => ?_).1
  exact staticPrecompiles_some (.inr (by simp_all [compiledAddresses]))

/-- **The genesis list of `evmd`** is accepted, and a call of `0x803` panics; **in another
spelling** `0x800` is not found. -/
theorem genesisPrecompiles_panic :
    (setParams config (activating availableStaticPrecompiles)).run unset =
        .ok () (activated availableStaticPrecompiles) ∧
      getStaticPrecompileInstance chainEnv staticPrecompiles
          (getParams (activated availableStaticPrecompiles)) 0x803 =
        .error (.panic ("precompiled contract not stored in memory: " ++
          "0x0000000000000000000000000000000000000803")) ∧
      (setParams config (activating [bareStaking])).run unset = .ok () (activated [bareStaking]) ∧
      (getParams (activated [bareStaking])).getActiveStaticPrecompilesAddrs = [0x800] ∧
      getStaticPrecompileInstance chainEnv staticPrecompiles
        (getParams (activated [bareStaking])) 0x800 = .ok none := by
  refine ⟨activating_run (by decide +kernel), ?_,
    activating_run (by decide +kernel), by decide +kernel, ?_⟩
  · have hvesting : addressHex chainEnv 0x803 = vestingPrecompileAddress := by
      decide +kernel
    have hlisted : vestingPrecompileAddress ∈ sortStrings availableStaticPrecompiles :=
      mem_sortStrings.2 (by simp [availableStaticPrecompiles])
    have havailable : isAvailableStaticPrecompile chainEnv
        (getParams (activated availableStaticPrecompiles)) 0x803 = true := by
      refine isAvailable_iff.2 (.inl ?_)
      rw [hvesting, activated_list]
      exact hlisted
    unfold getStaticPrecompileInstance
    rw [havailable, hvesting]
    decide +kernel
  · have hstaking : addressHex chainEnv 0x800 = stakingPrecompileAddress := by
      decide +kernel
    refine getStaticPrecompileInstance_none (Bool.eq_false_iff.2 fun havailable => ?_)
    rcases isAvailable_iff.1 havailable with htext | hberlin
    · rw [hstaking, activated_list] at htext
      exact absurd (mem_sortStrings.1 htext) (by decide +kernel)
    · exact absurd hberlin (by decide)

end TacEvm.Vm
