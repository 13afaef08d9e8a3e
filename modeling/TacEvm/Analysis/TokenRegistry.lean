import TacEvm.Analysis.Erc20Params
import TacEvm.Library.Indexed

/-!
# The registry of token pairs

Every operation of the keeper is a `RegistryStep` on the table of pairs and its two indices, and
each step keeps the indices exact. A denom of 40 hex digits is taken for an address by
`GetTokenPairID`.
-/

namespace TacEvm.Erc20Keeper

open FallibleState Indexed Function Erc20Keeper.TokenPair KeeperM

variable {env : Env} {cfg : Config}

/-- Pairs are stored under their identifiers, both maps are exact. -/
structure Consistent (cfg : Config) (r : Erc20Store) : Prop where
  keyed : ∀ id pair, r.tokenPairs id = some pair → pair.getID cfg = id
  denom : Indexes r.tokenPairs denom r.denomMap
  erc20 : Indexes r.tokenPairs getERC20Contract r.erc20Map

/-- What the operations do to the three maps. -/
inductive RegistryStep (cfg : Config) (r : Erc20Store) : Erc20Store → Prop
  | add (pair : TokenPair) {r' : Erc20Store} (hid : r.tokenPairs (pair.getID cfg) = none)
      (hdenom : r.denomMap pair.denom = none) (herc20 : r.erc20Map pair.getERC20Contract = none)
      (htext : isHexAddress pair.denom = false)
      (hpairs : r'.tokenPairs = update r.tokenPairs (pair.getID cfg) (some pair))
      (hdenoms : r'.denomMap = update r.denomMap pair.denom (some (pair.getID cfg)))
      (herc20s : r'.erc20Map = update r.erc20Map pair.getERC20Contract (some (pair.getID cfg))) :
      RegistryStep cfg r r'
  | flip (id : Hash) (pair : TokenPair) (hpair : r.tokenPairs id = some pair) :
      RegistryStep cfg r { r with
        tokenPairs :=
          update r.tokenPairs id (some { pair with enabled := !pair.enabled }) }
  | remove (pair : TokenPair) (hpair : r.tokenPairs (pair.getID cfg) = some pair) :
      RegistryStep cfg r { r with
        tokenPairs := update r.tokenPairs (pair.getID cfg) none
        denomMap := update r.denomMap pair.denom none
        erc20Map := update r.erc20Map pair.getERC20Contract none }

variable {r r' : Erc20Store} {pair : TokenPair}

/-- Of the next pairs one is new, and no address; the others were there. -/
theorem RegistryStep.origin (hstep : RegistryStep cfg r r') {id : Hash}
    (hpair : r'.tokenPairs id = some pair) :
    (id = pair.getID cfg ∧ isHexAddress pair.denom = false) ∨
      ∃ old, r.tokenPairs id = some old ∧ pair.erc20Address = old.erc20Address ∧
        pair.denom = old.denom := by
  cases hstep with
  | add new hid hdenom herc20 htext hpairs hdenoms herc20s =>
    rw [hpairs, update_apply] at hpair
    split at hpair
    · cases hpair
      exact .inl ⟨‹_›, htext⟩
    · exact .inr ⟨pair, hpair, rfl, rfl⟩
  | flip id' old hold =>
    simp only [update_apply] at hpair
    split at hpair
    · rename_i hkey
      cases hpair
      exact .inr ⟨old, hkey ▸ hold, rfl, rfl⟩
    · exact .inr ⟨pair, hpair, rfl, rfl⟩
  | remove old hold =>
    simp only [update_apply] at hpair
    split at hpair
    · cases hpair
    · exact .inr ⟨pair, hpair, rfl, rfl⟩

/-- **One step keeps the registry consistent.** -/
theorem RegistryStep.consistent (hstep : RegistryStep cfg r r') (h : Consistent cfg r) :
    Consistent cfg r' := by
  have hkeyed : ∀ id pair, r'.tokenPairs id = some pair → pair.getID cfg = id := by
    intro id pair hpair
    rcases hstep.origin hpair with ⟨hid, -⟩ | ⟨old, hold, haddress, hdenom⟩
    · exact hid.symm
    · rw [← h.keyed id old hold, getID, getID, idText, idText, haddress, hdenom]
  cases hstep with
  | add pair hid hdenom herc20 htext hpairs hdenoms herc20s =>
    refine ⟨hkeyed, ?_, ?_⟩
    · rw [hpairs, hdenoms]
      exact h.denom.insert hid hdenom
    · rw [hpairs, herc20s]
      exact h.erc20.insert hid herc20
  | flip id pair hpair => exact ⟨hkeyed, h.denom.replace hpair rfl, h.erc20.replace hpair rfl⟩
  | remove pair hpair => exact ⟨hkeyed, h.denom.erase hpair, h.erc20.erase hpair⟩

/-- No stored denom reads as the address of another contract. -/
def Unambiguous (r : Erc20Store) : Prop :=
  ∀ id pair, r.tokenPairs id = some pair → isHexAddress pair.denom = true →
    hexToAddress pair.denom = pair.getERC20Contract

theorem RegistryStep.unambiguous (hstep : RegistryStep cfg r r') (h : Unambiguous r) :
    Unambiguous r' := by
  intro id pair hpair hhex
  rcases hstep.origin hpair with ⟨-, hnot⟩ | ⟨old, hold, haddress, hdenom⟩
  · rw [hnot] at hhex
    cases hhex
  · rw [hdenom] at hhex ⊢
    rw [getERC20Contract, haddress]
    exact h id old hold hhex

/-! ## The texts of a new pair -/

variable {s denom : Bytes}

theorem isHexCharacter_of_isHexAddress (h : isHexAddress s = true) :
    ∀ c ∈ trim0xPrefix s, isHexCharacter c = true := by
  unfold isHexAddress isHex at h
  simp only [Bool.and_eq_true, List.all_eq_true] at h
  exact h.2.2

theorem separator_not_mem_of_isHexAddress (h : isHexAddress s = true) : (124 : UInt8) ∉ s := by
  have hdigits := isHexCharacter_of_isHexAddress h
  intro hmem
  unfold trim0xPrefix at hdigits
  split at hdigits
  · rename_i hfront
    match s, hfront with
    | c :: d :: s, hfront =>
      rcases List.mem_cons.mp hmem with rfl | hmem
      · simp [has0xPrefix] at hfront
      rcases List.mem_cons.mp hmem with rfl | hmem
      · simp [has0xPrefix] at hfront
      · exact absurd (hdigits _ hmem) (by decide)
  · exact absurd (hdigits _ hmem) (by decide)

theorem isHexAddress_eq_false {c : UInt8} (hc : c ∈ s) (hhex : isHexCharacter c = false)
    (hfront : has0xPrefix s = false) : isHexAddress s = false := by
  by_contra h
  have hdigits := isHexCharacter_of_isHexAddress (Bool.not_eq_false _ ▸ h)
  unfold trim0xPrefix at hdigits
  rw [hfront] at hdigits
  rw [hdigits c hc] at hhex
  cases hhex

theorem isHexAddress_createDenom (address : Bytes) :
    isHexAddress (createDenom address) = false :=
  isHexAddress_eq_false (c := 114) (by simp [createDenom, ascii]) (by decide) rfl

theorem separator_not_mem_createDenom (a : Address) :
    (124 : UInt8) ∉ createDenom (addressHex env a) := by
  have hnot := separator_not_mem_of_isHexAddress (isHexAddress_addressHex env a)
  intro hmem
  rcases List.mem_append.mp hmem with hmem | hmem
  · exact absurd hmem (by decide)
  · exact hnot hmem

theorem decodeString_ok {bz : Bytes} (h : decodeString s = .ok bz) :
    ∀ c ∈ s, isHexCharacter c = true := by
  induction s using decodeString.induct generalizing bz with
  | case1 => simp
  | case2 c hc => simp [decodeString, hc] at h
  | case3 c x hc => simp [decodeString, hc] at h
  | case4 c d rest hc => simp [decodeString, hc] at h
  | case5 c d rest x hc hd => simp [decodeString, hc, hd] at h
  | case6 c d rest x y hc hd ih =>
    simp only [decodeString, hc, hd] at h
    cases hrest : decodeString rest with
    | error e =>
      rw [hrest] at h
      cases h
    | ok bz' =>
      intro b hb
      rcases List.mem_cons.mp hb with hb | hb
      · simp [isHexCharacter, *]
      rcases List.mem_cons.mp hb with hb | hb
      · simp [isHexCharacter, *]
      · exact ih hrest b hb

variable {a : Address}

theorem getIBCDenomAddress_ok (h : getIBCDenomAddress denom = .ok a) :
    ∃ digits, denom = ascii "ibc/".toList ++ digits ∧ ∀ c ∈ digits, isHexCharacter c = true := by
  unfold getIBCDenomAddress at h
  split at h
  · cases h
  rename_i hfront
  obtain ⟨digits, rfl⟩ : ascii "ibc/".toList <+: denom := by
    rw [← List.isPrefixOf_iff_prefix]
    simpa using hfront
  refine ⟨digits, rfl, ?_⟩
  split at h
  · cases h
  rw [show (ascii "ibc/".toList ++ digits).drop 4 = digits from rfl] at h
  unfold parseHexHash at h
  cases hdecoded : decodeString digits with
  | error e =>
    rw [hdecoded] at h
    cases e <;> cases h
  | ok bz => exact decodeString_ok hdecoded

theorem separator_not_mem_ibcDenom (h : getIBCDenomAddress denom = .ok a) :
    (124 : UInt8) ∉ denom := by
  obtain ⟨digits, rfl, hdigits⟩ := getIBCDenomAddress_ok h
  intro hmem
  rcases List.mem_append.mp hmem with hmem | hmem
  · exact absurd hmem (by decide)
  · exact absurd (hdigits _ hmem) (by decide)

theorem isHexAddress_ibcDenom (h : getIBCDenomAddress denom = .ok a) :
    isHexAddress denom = false := by
  obtain ⟨digits, rfl, -⟩ := getIBCDenomAddress_ok h
  exact isHexAddress_eq_false (c := 105) (by simp [ascii]) (by decide) rfl

theorem TokenPair.denom_eq_of_idText_eq {other : TokenPair}
    (haddress : (124 : UInt8) ∉ pair.erc20Address) (hdenom : (124 : UInt8) ∉ pair.denom)
    (h : other.idText = pair.idText) : other.denom = pair.denom := by
  have htext : ∀ p : TokenPair, p.idText = p.erc20Address ++ 124 :: p.denom := by
    intro p
    rw [idText, List.append_assoc]
    rfl
  rw [htext, htext] at h
  rcases List.append_eq_append_iff.mp h with ⟨e, hleft, hright⟩ | ⟨e, hleft, hright⟩
  · cases e with
    | nil => exact (List.cons.inj hright).2
    | cons c e =>
      obtain ⟨rfl, -⟩ := List.cons.inj hright
      exact absurd (by simp [hleft]) haddress
  · cases e with
    | nil => exact (List.cons.inj hright).2.symm
    | cons c e =>
      obtain ⟨-, htail⟩ := List.cons.inj hright
      exact absurd (by simp [htail]) hdenom

/-- No stored pair with another text has its identifier. -/
def NoCollision (cfg : Config) (r : Erc20Store) (pair : TokenPair) : Prop :=
  ∀ id other, r.tokenPairs id = some other → other.getID cfg = pair.getID cfg →
    other.idText = pair.idText

theorem Consistent.free (h : Consistent cfg r) (hclear : NoCollision cfg r pair)
    (haddress : (124 : UInt8) ∉ pair.erc20Address) (hdenom : (124 : UInt8) ∉ pair.denom)
    (hnew : r.denomMap pair.denom = none) : r.tokenPairs (pair.getID cfg) = none := by
  cases hstored : r.tokenPairs (pair.getID cfg) with
  | none => rfl
  | some other =>
    have htext := hclear _ other hstored (h.keyed _ other hstored)
    have hentry := h.denom.lookup hstored
    rw [denom_eq_of_idText_eq haddress hdenom htext, hnew] at hentry
    cases hentry

/-- The pair `registerERC20` makes for a contract. -/
def erc20Pair (env : Env) (contract : Address) : TokenPair :=
  newTokenPair env contract (createDenom (addressHex env contract)) .external

variable {st st' : AppStore}

/-- What a registration writes. -/
theorem registerERC20_ok {contract : Address}
    (hrun : (registerERC20 env cfg contract).run st = .ok pair st') :
    pair = erc20Pair env contract ∧ st.rest.erc20Map contract = none ∧
      st.rest.denomMap pair.denom = none ∧
      ∃ metadata, st'.rest = { st.rest with
        denomMetaData := metadata
        tokenPairs := update st.rest.tokenPairs (pair.getID cfg) (some pair)
        denomMap := update st.rest.denomMap pair.denom (some (pair.getID cfg))
        erc20Map :=
          update st.rest.erc20Map pair.getERC20Contract (some (pair.getID cfg)) } := by
  unfold registerERC20 at hrun
  rw [run_get_bind] at hrun
  obtain ⟨herc20, hrest⟩ := ensure_bind_ok.mp hrun
  obtain ⟨metadata, st₂, hmetadata, hset⟩ := bind_ok.mp hrest
  -- the metadata is that of the contract
  obtain ⟨erc20Data, -, htail₁⟩ := read_bind_ok.mp (mapError_ok.mp hmetadata)
  rw [run_get_bind] at htail₁
  obtain ⟨-, htail₂⟩ := ensure_bind_ok.mp htail₁
  obtain ⟨hdenom, htail₃⟩ := ensure_bind_ok.mp htail₂
  obtain ⟨_, st₆, hvalid, hstore⟩ := bind_ok.mp htail₃
  obtain ⟨-, rfl⟩ := check_ok.mp (mapError_ok.mp hvalid)
  cases hstore
  cases hset
  exact ⟨rfl, herc20, hdenom, _, rfl⟩

theorem toggleConversion_ok {token : Bytes}
    (hrun : (toggleConversion cfg token).run st = .ok pair st') :
    ∃ id stored, getTokenPairID token st = some id ∧ st.rest.tokenPairs id = some stored ∧
      pair = { stored with enabled := !stored.enabled } ∧
      st' = { st with rest := { st.rest with
        tokenPairs := update st.rest.tokenPairs (stored.getID cfg) (some pair) } } := by
  unfold toggleConversion at hrun
  rw [run_get_bind] at hrun
  cases hid : getTokenPairID token st with
  | none =>
    rw [hid] at hrun
    cases hrun
  | some id =>
    rw [hid] at hrun
    cases hstored : st.rest.tokenPairs id with
    | none =>
      simp only [getTokenPair, Option.bind_some, hstored] at hrun
      cases hrun
    | some stored =>
      simp only [getTokenPair, Option.bind_some, hstored] at hrun
      cases hrun
      exact ⟨id, stored, rfl, hstored, rfl, rfl⟩

theorem enableDynamicPrecompile_ok {address : Address}
    (hrun : (enableDynamicPrecompile env cfg address).run st = .ok () st') :
    st'.rest.tokenPairs = st.rest.tokenPairs ∧ st'.rest.denomMap = st.rest.denomMap ∧
      st'.rest.erc20Map = st.rest.erc20Map := by
  obtain ⟨params, hparams, hrest⟩ := read_bind_ok.mp hrun
  obtain ⟨updated, -, hset⟩ := check_bind_ok.mp hrest
  obtain ⟨st₃, hupdate, rfl⟩ := setParams_ok hset
  obtain ⟨_, _, -, -, hrecoded⟩ := updateCodeHash_ok hparams hupdate
  rw [hrecoded.rest]
  exact ⟨rfl, rfl, rfl⟩

theorem registerERC20Extension_ok
    (hrun : (registerERC20Extension env cfg denom).run st = .ok pair st') :
    newTokenPairSTRv2 env denom = .ok pair ∧
      st'.rest.tokenPairs = update st.rest.tokenPairs (pair.getID cfg) (some pair) ∧
      st'.rest.denomMap = update st.rest.denomMap pair.denom (some (pair.getID cfg)) ∧
      st'.rest.erc20Map =
        update st.rest.erc20Map pair.getERC20Contract (some (pair.getID cfg)) := by
  obtain ⟨created, st₁, hcreate, hrest⟩ := bind_ok.mp hrun
  obtain ⟨created', hnew, hset⟩ := check_bind_ok.mp hcreate
  obtain ⟨_, st₃, henable, hpure⟩ := bind_ok.mp hrest
  obtain ⟨hpairs, hdenoms, herc20s⟩ := enableDynamicPrecompile_ok henable
  cases hpure
  cases hset
  exact ⟨hnew, hpairs, hdenoms, herc20s⟩

theorem newTokenPairSTRv2_ok (h : newTokenPairSTRv2 env denom = .ok pair) :
    ∃ a, getIBCDenomAddress denom = .ok a ∧ pair.erc20Address = addressHex env a ∧
      pair.denom = denom := by
  obtain ⟨a, haddress, h⟩ := except_bind_ok.mp h
  cases h
  exact ⟨a, haddress, rfl, rfl⟩

/-- An operation on the registry while the chain runs. -/
inductive RegistryOp
  | registerERC20 (contract : Address)
  | registerERC20Extension (denom : Bytes)
  | toggleConversion (token : Bytes)
  | deleteTokenPair (pair : TokenPair)

/-- Extensions are new, deleted pairs stored, identifiers distinct. -/
def RegistryOp.Allowed (env : Env) (cfg : Config) (r : Erc20Store) : RegistryOp → Prop
  | registerERC20 contract => NoCollision cfg r (erc20Pair env contract)
  | registerERC20Extension denom => ∀ pair, newTokenPairSTRv2 env denom = .ok pair →
      r.denomMap denom = none ∧ r.erc20Map pair.getERC20Contract = none ∧ NoCollision cfg r pair
  | toggleConversion _ => True
  | deleteTokenPair pair => r.tokenPairs (pair.getID cfg) = some pair

def RegistryOp.run (env : Env) (cfg : Config) : RegistryOp → Erc20M Unit
  | registerERC20 contract => discard (Erc20Keeper.registerERC20 env cfg contract)
  | registerERC20Extension denom => discard (Erc20Keeper.registerERC20Extension env cfg denom)
  | toggleConversion token => discard (Erc20Keeper.toggleConversion cfg token)
  | deleteTokenPair pair => Erc20Keeper.deleteTokenPair cfg pair

/-- A sequence of operations that succeed. -/
inductive RegistryRun (env : Env) (cfg : Config) : AppStore → List RegistryOp → AppStore → Prop
  | nil (st : AppStore) : RegistryRun env cfg st [] st
  | cons {st st' st'' : AppStore} {op : RegistryOp} {ops : List RegistryOp}
      (hallowed : op.Allowed env cfg st.rest) (hrun : (op.run env cfg).run st = .ok () st')
      (hrest : RegistryRun env cfg st' ops st'') : RegistryRun env cfg st (op :: ops) st''

/-- **Every operation is a step of the registry.** -/
theorem RegistryOp.step {op : RegistryOp} (h : Consistent cfg st.rest)
    (hallowed : op.Allowed env cfg st.rest) (hrun : (op.run env cfg).run st = .ok () st') :
    RegistryStep cfg st.rest st'.rest := by
  cases op with
  | registerERC20 contract =>
    obtain ⟨pair, hrun⟩ := discard_ok.mp hrun
    obtain ⟨rfl, herc20, hdenom, metadata, hrest⟩ := registerERC20_ok hrun
    have hcontract : (erc20Pair env contract).getERC20Contract = contract :=
      hexToAddress_addressHex env contract
    have hid := h.free hallowed
      (separator_not_mem_of_isHexAddress (isHexAddress_addressHex env contract))
      (separator_not_mem_createDenom contract) hdenom
    refine .add (erc20Pair env contract) hid hdenom ?_ (isHexAddress_createDenom _) ?_ ?_ ?_
    · rw [hcontract]
      exact herc20
    all_goals rw [hrest]
  | registerERC20Extension denom =>
    obtain ⟨pair, hrun⟩ := discard_ok.mp hrun
    obtain ⟨hnew, hpairs, hdenoms, herc20s⟩ := registerERC20Extension_ok hrun
    obtain ⟨hdenom, herc20, hclear⟩ := hallowed pair hnew
    obtain ⟨a, haddress, htext, rfl⟩ := newTokenPairSTRv2_ok hnew
    have hseparator : (124 : UInt8) ∉ pair.erc20Address := by
      rw [htext]
      exact separator_not_mem_of_isHexAddress (isHexAddress_addressHex env a)
    have hid := h.free hclear hseparator (separator_not_mem_ibcDenom haddress) hdenom
    exact .add pair hid hdenom herc20 (isHexAddress_ibcDenom haddress) hpairs hdenoms herc20s
  | toggleConversion token =>
    obtain ⟨pair, hrun⟩ := discard_ok.mp hrun
    obtain ⟨id, stored, -, hstored, rfl, rfl⟩ := toggleConversion_ok hrun
    rw [h.keyed id stored hstored]
    exact .flip id stored hstored
  | deleteTokenPair pair =>
    cases hrun
    exact .remove pair hallowed

theorem RegistryRun.keeps {P : Erc20Store → Prop} (hP : ∀ r r', RegistryStep cfg r r' → P r → P r')
    {ops : List RegistryOp} (hrun : RegistryRun env cfg st ops st') (h : Consistent cfg st.rest)
    (hst : P st.rest) : Consistent cfg st'.rest ∧ P st'.rest := by
  induction hrun with
  | nil st => exact ⟨h, hst⟩
  | cons hallowed hrun hrest ih =>
    have hstep := RegistryOp.step h hallowed hrun
    exact ih (hstep.consistent h) (hP _ _ hstep hst)

/-- A toggle flips the flag of one pair, and nothing else. -/
def TogglesOne (cfg : Config) (st : AppStore) : Prop :=
  ∀ token pair st', (toggleConversion cfg token).run st = .ok pair st' →
    ∃ id stored, getTokenPairID token st = some id ∧ st.rest.tokenPairs id = some stored ∧
      st' = { st with rest := { st.rest with
        tokenPairs := update st.rest.tokenPairs id
          (some { stored with enabled := !stored.enabled }) } }

/-- A pair is found under its denom and every spelling of its contract. -/
def LookupsAgree (st : AppStore) : Prop :=
  ∀ id pair, st.rest.tokenPairs id = some pair →
    getTokenPair (getTokenPairID pair.denom st) st = some pair ∧
    ∀ s, isHexAddress s = true → hexToAddress s = pair.getERC20Contract →
      getTokenPair (getTokenPairID s st) st = some pair

theorem Consistent.togglesOne (h : Consistent cfg st.rest) : TogglesOne cfg st := by
  intro token pair st' hrun
  obtain ⟨id, stored, hid, hstored, rfl, rfl⟩ := toggleConversion_ok hrun
  rw [h.keyed id stored hstored]
  exact ⟨id, stored, hid, hstored, rfl⟩

/-- The lookups agree just if none is ambiguous. -/
theorem Consistent.lookupsAgree_iff (h : Consistent cfg st.rest) :
    LookupsAgree st ↔ Unambiguous st.rest := by
  constructor
  · intro hagree id pair hpair hhex
    have hfound := (hagree id pair hpair).1
    unfold getTokenPairID at hfound
    rw [if_pos hhex] at hfound
    obtain ⟨id', hid', hpair'⟩ := Option.bind_eq_some_iff.mp hfound
    obtain ⟨other, hother, hcontract⟩ := (h.erc20 _ _).mp hid'
    rw [hpair'] at hother
    cases hother
    exact hcontract.symm
  · intro hclear id pair hpair
    have hcontract : ∀ s, isHexAddress s = true → hexToAddress s = pair.getERC20Contract →
        getTokenPair (getTokenPairID s st) st = some pair := by
      intro s hs haddress
      unfold getTokenPairID getTokenPair
      rw [if_pos hs, haddress, h.erc20.lookup hpair]
      exact hpair
    refine ⟨?_, hcontract⟩
    by_cases hhex : isHexAddress pair.denom = true
    · exact hcontract pair.denom hhex (hclear id pair hpair hhex)
    · unfold getTokenPairID getTokenPair
      rw [if_neg hhex, h.denom.lookup hpair]
      exact hpair

/-- **The registry of token pairs.** It stays consistent, toggles change one flag and lookups agree,
if and only if no first denom reads as the address of another contract. -/
theorem registryRun_iff {st : AppStore} (h : Consistent cfg st.rest) :
    (∀ ops st', RegistryRun env cfg st ops st' →
      Consistent cfg st'.rest ∧ TogglesOne cfg st' ∧ LookupsAgree st') ↔
    ∀ id pair, st.rest.tokenPairs id = some pair → isHexAddress pair.denom = true →
      hexToAddress pair.denom = pair.getERC20Contract := by
  constructor
  · intro hall
    obtain ⟨-, -, hagree⟩ := hall [] st (.nil st)
    exact h.lookupsAgree_iff.mp hagree
  · intro hclear ops st' hrun
    obtain ⟨h', hclear'⟩ := hrun.keeps (P := Unambiguous)
      (fun _ _ hstep => hstep.unambiguous) h hclear
    exact ⟨h', h'.togglesOne, h'.lookupsAgree_iff.mpr hclear'⟩

/-! ## A registry with one pair -/

namespace Devnet

/-- A denom of forty letters `a`. -/
def hexDenom : Bytes := List.replicate 40 97

def pairOf (denom : Bytes) : TokenPair where
  erc20Address := address
  denom := denom
  enabled := true
  contractOwner := .module

/-- The state in which one pair is registered. -/
def registered (denom : Bytes) : AppStore :=
  { store with
    rest := { emptyErc20 with
      tokenPairs := update emptyErc20.tokenPairs ((pairOf denom).getID config) (some (pairOf denom))
      denomMap := update emptyErc20.denomMap denom (some ((pairOf denom).getID config))
      erc20Map := update emptyErc20.erc20Map (pairOf denom).getERC20Contract
        (some ((pairOf denom).getID config)) } }

theorem registered_consistent (denom : Bytes) : Consistent config (registered denom).rest := by
  have hdenom : Indexes emptyErc20.tokenPairs TokenPair.denom emptyErc20.denomMap := by
    intro a k
    simp [emptyErc20]
  have herc20 : Indexes emptyErc20.tokenPairs TokenPair.getERC20Contract emptyErc20.erc20Map := by
    intro a k
    simp [emptyErc20]
  refine ⟨fun id pair hpair => ?_, ?_, ?_⟩
  · simp only [registered, Function.update_apply] at hpair
    split at hpair
    · cases hpair
      exact (‹id = _›).symm
    · cases hpair
  · exact hdenom.insert (v := pairOf denom) rfl rfl
  · exact herc20.insert (v := pairOf denom) rfl rfl

end Devnet

open Erc20Keeper.Devnet

/-- On the small chain: the pair of a coin that is named `tac`. -/
theorem registryRun_devnet :
    (∀ ops st', RegistryRun Devnet.chain config (registered (ascii "tac".toList))
        ops st' →
      Consistent config st'.rest ∧ TogglesOne config st' ∧ LookupsAgree st') ↔
    ∀ id pair, (registered (ascii "tac".toList)).rest.tokenPairs id = some pair →
      isHexAddress pair.denom = true → hexToAddress pair.denom = pair.getERC20Contract :=
  registryRun_iff (registered_consistent _)

/-- **A denom that is taken for an address.** -/
theorem lookups_disagree :
    Consistent config (registered hexDenom).rest ∧
      (registered hexDenom).rest.tokenPairs
        ((pairOf hexDenom).getID config) = some (pairOf hexDenom) ∧
      getTokenPair (getTokenPairID address (registered hexDenom))
        (registered hexDenom) = some (pairOf hexDenom) ∧
      getTokenPair (getTokenPairID hexDenom (registered hexDenom)) (registered hexDenom) = none :=
  ⟨registered_consistent _, by decide +kernel, by decide +kernel, by decide +kernel⟩

end TacEvm.Erc20Keeper
