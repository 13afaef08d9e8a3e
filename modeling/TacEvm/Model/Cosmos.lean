import TacEvm.Model.Precompile

/-!
# The Cosmos modules behind the precompiles

`Cosmos` is what the precompiles use of the keepers and message servers of the SDK and of IBC. Its
fields are left open, as are the events, the logs and the gas of a method; what a proof needs to
know of them it states as a hypothesis.
-/

namespace TacEvm

open FallibleState

structure Description where
  moniker : String
  identity : String
  website : String
  securityContact : String
  details : String
  deriving DecidableEq, Repr

/-- `stakingtypes.CommissionRates`, in units of `10 ^ -18`. -/
structure CommissionRates where
  rate : ℤ
  maxRate : ℤ
  maxChangeRate : ℤ
  deriving DecidableEq, Repr

/-- The delegator and the validator are one address. -/
structure MsgCreateValidator where
  description : Description
  commission : CommissionRates
  minSelfDelegation : ℤ
  validatorAddress : Address
  pubkey : Bytes
  value : Coin
  deriving DecidableEq

structure MsgEditValidator where
  description : Description
  validatorAddress : Address
  commissionRate : Option ℤ
  minSelfDelegation : Option ℤ
  deriving DecidableEq

/-- The messages of `x/staking` that a delegator sends. -/
inductive StakingMsg
  | delegate (delegatorAddress : Address) (validatorAddress : String) (amount : Coin)
  | undelegate (delegatorAddress : Address) (validatorAddress : String) (amount : Coin)
  | beginRedelegate (delegatorAddress : Address) (validatorSrcAddress validatorDstAddress : String)
      (amount : Coin)
  | cancelUnbondingDelegation (delegatorAddress : Address) (validatorAddress : String)
      (amount : Coin) (creationHeight : ℤ)
  deriving DecidableEq, Repr

namespace StakingMsg

def delegatorAddress : StakingMsg → Address
  | delegate delegator _ _ => delegator
  | undelegate delegator _ _ => delegator
  | beginRedelegate delegator _ _ _ => delegator
  | cancelUnbondingDelegation delegator _ _ _ => delegator

def amount : StakingMsg → Coin
  | delegate _ _ amount => amount
  | undelegate _ _ amount => amount
  | beginRedelegate _ _ _ amount => amount
  | cancelUnbondingDelegation _ _ amount _ => amount

/-- The validator a stake authorization is about. -/
def authorizedValidator : StakingMsg → String
  | delegate _ validator _ => validator
  | undelegate _ validator _ => validator
  | beginRedelegate _ _ validatorDst _ => validatorDst
  | cancelUnbondingDelegation _ validator _ _ => validator

/-- The authorization type a message needs. -/
def authorizationType : StakingMsg → AuthorizationType
  | delegate .. => .delegate
  | undelegate .. => .undelegate
  | beginRedelegate .. => .redelegate
  | cancelUnbondingDelegation .. => .cancelUnbondingDelegation

end StakingMsg

structure MsgTransfer where
  sourcePort : String
  sourceChannel : String
  token : Coin
  sender : Address
  receiver : String
  /-- Revision number and revision height. -/
  timeoutHeight : ℕ × ℕ
  timeoutTimestamp : UInt64
  memo : String
  deriving DecidableEq

inductive Owner
  | unspecified
  | module
  | external
  deriving DecidableEq, Repr

structure TokenPair where
  erc20Address : Address
  denom : Denom
  enabled : Bool
  contractOwner : Owner
  deriving DecidableEq

def TokenPair.isNativeERC20 (pair : TokenPair) : Bool := pair.contractOwner = .external

structure AcceptResponse where
  accept : Bool
  delete : Bool
  updated : Option Authorization
  deriving DecidableEq

/-- The keepers and message servers the precompiles call. -/
structure Cosmos (Ω : Type) where
  /-- `sdk.GetBaseDenom`. -/
  getBaseDenom : Except Err Denom
  bondDenom : Store Ω → Except Err Denom
  maxValidators : Store Ω → Except Err ℕ
  /-- The operators `IterateValidators` visits that are not jailed. -/
  unjailedValidators : Store Ω → Except Err (List String)
  /-- `base64.StdEncoding.DecodeString`. -/
  decodeBase64 : String → Except Err Bytes
  createValidator : MsgCreateValidator → KeeperM Ω Unit
  editValidator : MsgEditValidator → KeeperM Ω Unit
  /-- The message server of `x/staking`. -/
  stakingMsg : StakingMsg → KeeperM Ω Unit
  getDelegatorValidators : Address → ℕ → Store Ω → Except Err (List String)
  /-- `HexAddressFromBech32String`. -/
  hexAddressFromBech32 : String → Except Err Address
  withdrawDelegationRewards : Address → String → KeeperM Ω Coins
  withdrawValidatorCommission : String → KeeperM Ω Coins
  fundCommunityPool : Address → Coins → KeeperM Ω Unit
  setWithdrawAddress : Address → String → KeeperM Ω Unit
  getDelegatorWithdrawAddr : Address → Store Ω → Except Err Address
  hasChannel : String → String → Store Ω → Bool
  /-- `MsgTransfer.ValidateBasic`. -/
  validateTransfer : MsgTransfer → Except Err Unit
  /-- `TransferAuthorization.ValidateBasic`. -/
  validateAllocations : List Allocation → Except Err Unit
  /-- `TransferAuthorization.Accept`. -/
  acceptTransfer : List Allocation → MsgTransfer → Except Err AcceptResponse
  /-- `SendAuthorization.Accept`: spend limit, allow list, recipient, amount. -/
  acceptSend : Coins → List String → Address → Coin → Except Err AcceptResponse
  /-- `Transfer` of ibc-go. -/
  ibcTransfer : MsgTransfer → KeeperM Ω Unit
  getEscrowAddress : String → String → Address
  /-- The token pair registered for a denom or a contract address. -/
  getTokenPair : String → Store Ω → Option TokenPair
  isERC20Enabled : Store Ω → Bool
  /-- `ConvertERC20`: amount, receiver, contract, sender. -/
  convertERC20 : ℤ → Address → Address → Address → KeeperM Ω Unit
  /-- `IsSendEnabledCoins`. -/
  isSendEnabled : Denom → Store Ω → Except Err Unit

section

variable {Ω : Type}

/-- A read of the store that may fail. -/
def KeeperM.read {α : Type} (f : Store Ω → Except Err α) : KeeperM Ω α := fun st =>
  match f st with
  | .ok a => .ok a st
  | .error e => .error e st

/-- A check that does not look at the store. -/
def KeeperM.check {α : Type} (r : Except Err α) : KeeperM Ω α := KeeperM.read fun _ => r

/-- Stops with `e` unless `p` holds. -/
def KeeperM.ensure (p : Prop) [Decidable p] (e : Err) : KeeperM Ω Unit :=
  if p then pure () else throw e

variable {α β : Type} {f : Store Ω → Except Err α} {st st' : Store Ω} {e : Err}

theorem KeeperM.read_run_of_error (h : f st = .error e) :
    (KeeperM.read f).run st = .error e st := by
  simp only [KeeperM.read, EStateM.run, h]

theorem KeeperM.read_ok {a : α} :
    (KeeperM.read f).run st = .ok a st' ↔ f st = .ok a ∧ st' = st := by
  simp only [KeeperM.read, EStateM.run]
  cases f st with
  | ok b =>
    constructor
    · intro h
      cases h
      exact ⟨rfl, rfl⟩
    · rintro ⟨hb, rfl⟩
      cases hb
      rfl
  | error e =>
    constructor
    · intro h
      cases h
    · rintro ⟨hb, -⟩
      cases hb

variable {Q : Store Ω → Prop}

theorem KeeperM.read_leaves (f : Store Ω → Except Err α) (hQ : Q st) :
    Leaves Q (KeeperM.read f) st := by
  unfold Leaves EStateM.run KeeperM.read
  cases f st with
  | ok a => exact hQ
  | error e => exact hQ

theorem KeeperM.check_ok {r : Except Err α} {a : α} :
    (KeeperM.check r).run st = .ok a st' ↔ r = .ok a ∧ st' = st := KeeperM.read_ok

theorem KeeperM.check_leaves (r : Except Err α)
    (hQ : Q st) : Leaves Q (KeeperM.check r) st := KeeperM.read_leaves _ hQ

variable {p : Prop}

theorem KeeperM.ensure_ok [Decidable p] :
    (KeeperM.ensure p e).run st = .ok () st' ↔ p ∧ st' = st := by
  unfold KeeperM.ensure
  by_cases hp : p
  · simp only [hp, if_true, run_pure, true_and]
    constructor
    · intro h
      cases h
      rfl
    · rintro rfl
      rfl
  · simp [hp]

theorem KeeperM.ensure_leaves [Decidable p] (e : Err) (hQ : Q st) :
    Leaves Q (KeeperM.ensure p e) st := by
  unfold KeeperM.ensure
  split
  · exact hQ
  · exact hQ

variable {b : β}

theorem KeeperM.read_bind_ok {k : α → KeeperM Ω β} :
    (KeeperM.read f >>= k).run st = .ok b st' ↔ ∃ a, f st = .ok a ∧ (k a).run st = .ok b st' := by
  rw [bind_ok]
  constructor
  · rintro ⟨a, st₁, hread, hrest⟩
    obtain ⟨ha, rfl⟩ := KeeperM.read_ok.mp hread
    exact ⟨a, ha, hrest⟩
  · rintro ⟨a, ha, hrest⟩
    exact ⟨a, st, KeeperM.read_ok.mpr ⟨ha, rfl⟩, hrest⟩

theorem KeeperM.check_bind_ok {r : Except Err α} {k : α → KeeperM Ω β} :
    (KeeperM.check r >>= k).run st = .ok b st' ↔ ∃ a, r = .ok a ∧ (k a).run st = .ok b st' :=
  KeeperM.read_bind_ok

theorem KeeperM.ensure_bind_ok [Decidable p] {k : Unit → KeeperM Ω β} :
    (KeeperM.ensure p e >>= k).run st = .ok b st' ↔ p ∧ (k ()).run st = .ok b st' := by
  rw [bind_ok]
  constructor
  · rintro ⟨⟨⟩, st₁, hensure, hrest⟩
    obtain ⟨hp, rfl⟩ := KeeperM.ensure_ok.mp hensure
    exact ⟨hp, hrest⟩
  · rintro ⟨hp, hrest⟩
    exact ⟨(), st, KeeperM.ensure_ok.mpr ⟨hp, rfl⟩, hrest⟩

variable {R : Store Ω → Store Ω → Prop}

theorem KeeperM.read_within [Std.Refl R] (f : Store Ω → Except Err α) :
    Within R (KeeperM.read f) := by
  intro st a st' h
  obtain ⟨-, rfl⟩ := KeeperM.read_ok.mp h
  exact refl_of R _

theorem KeeperM.check_within [Std.Refl R]
    (r : Except Err α) : Within R (KeeperM.check r) := KeeperM.read_within _

theorem KeeperM.ensure_within [Decidable p] [Std.Refl R] (e : Err) :
    Within R (KeeperM.ensure p e) := by
  intro st a st' h
  obtain ⟨-, rfl⟩ := KeeperM.ensure_ok.mp h
  exact refl_of R _

/-- The events, the logs and the gas of a method. -/
structure Emitted where
  events : List Event
  logs : List EmittedLog
  cost : ℕ

/-- The handler of a method that computes balance changes. -/
def Handler.of (emitted : Frame → Store Ω → Emitted)
    (method : Frame → KeeperM Ω BalanceChanges) : Handler Ω := fun c st =>
  let (store, result) := match (method c).run st with
    | .ok entries st' => (st', .ok entries)
    | .error e st' => (st', .error e)
  { store := store
    events := (emitted c st).events
    logs := (emitted c st).logs
    cost := (emitted c st).cost
    result := result }

theorem Handler.of_store (emitted : Frame → Store Ω → Emitted)
    (method : Frame → KeeperM Ω BalanceChanges) (c : Frame) (st : Store Ω) :
    (Handler.of emitted method c st).store = left ((method c).run st) := by
  unfold Handler.of
  cases (method c).run st <;> rfl

theorem Handler.of_ok {emitted : Frame → Store Ω → Emitted}
    {method : Frame → KeeperM Ω BalanceChanges} {c : Frame}
    {entries : BalanceChanges} (h : (Handler.of emitted method c st).result = .ok entries)
    : (method c).run st = .ok entries (Handler.of emitted method c st).store := by
  unfold Handler.of at h ⊢
  cases hrun : (method c).run st with
  | error e st' =>
    rw [hrun] at h
    cases h
  | ok entries' st' =>
    rw [hrun] at h
    cases h
    rfl

theorem Precompile.prepare_ok {p : Precompile Ω} {c : Frame} {handler : Handler Ω}
    (h : p.prepare c = .ok handler) :
    ∃ m bz, p.selectMethod c = .ok m ∧ p.unpack m bz = .ok handler := by
  obtain ⟨m, hm, h⟩ := except_bind_ok.mp h
  dsimp only at h
  split at h
  · cases h
  obtain ⟨handler', hunpack, h⟩ := except_bind_ok.mp h
  split at h
  · cases h
  · cases h
    exact ⟨m, _, hm, hunpack⟩

/-- The ABI of a precompile with the methods `Call`. -/
structure Abi (Ω : Type) {Call : Type} (name : Call → String) where
  methodById : Bytes → Except Err Method
  unpack : Method → Bytes → Except Err Call
  unpack_name : ∀ m bz call, unpack m bz = .ok call → name call = m.name
  emitted : Call → Frame → Store Ω → Emitted
  /-- The queries, which only read. -/
  query : String → Frame → Store Ω → Except Err Unit

end

end TacEvm
