import TacEvm.Model.StateTransition

/-!
# A small chain

A concrete environment to run the model in. Its staking module has one validator, whose coins lie in
the account `0xB0`; its blocks have no gas limit and a base fee of one; every transaction is signed
by the account `0xA1`, and the EVM does nothing.
-/

namespace TacEvm.Devnet

/-- Stands in for `keccak256`: the bytes, with a leading one. -/
def keccak256 (b : Bytes) : Hash := BitVec.ofNat 256 (beNat (1 :: b))

/-- Coins cannot be sent to the accounts of modules and to precompiles. -/
def env (decimals : Decimals) : Env where
  keccak256 := keccak256
  evmCoinInfo := { denom := "utac", decimals := decimals }
  evmModule := 0xE0
  blockedAddr := fun a => a ∈ [0xB0, 0xD0, 0xE0, 0xFC] ∨ 0x800 ≤ a ∧ a ≤ 0x806
  lockedCoins := fun _ _ => 0
  accAddressString := fun a => toString a.toNat
  blockTime := 0

/-- Coins have the decimals of the EVM. -/
abbrev env18 : Env := env .eighteenDecimals

/-- Coins have six decimals. -/
abbrev env6 : Env := env .sixDecimals

def emptyStore {Ω : Type} (rest : Ω) : Store Ω where
  sequence := fun _ => none
  codeHash := fun _ => none
  code := fun _ => none
  storage := fun _ _ => none
  balance := fun _ _ => 0
  supply := fun _ => 0
  grants := fun _ _ _ => none
  rest := rest

/-- A store with one contract, at `0xC0`. -/
def contractStore : Store Unit :=
  { emptyStore () with
    sequence := fun a => if a = 0xC0 then some 1 else none
    codeHash := fun a => if a = 0xC0 then some (keccak256 [7]) else none
    code := fun h => if h = keccak256 [7] then some [7] else none
    balance := fun a d => if a = 0xC0 ∧ d = "utac" then 5 else 0
    supply := fun d => if d = "utac" then 5 else 0 }

def txConfig : TxConfig := { blockHash := 0, txHash := 0, txIndex := 0, logIndex := 0 }

/-- A context over a store, before anything is emitted. -/
def ctx {Ω : Type} (store : Store Ω) : Context Ω := { store := store, events := [] }

/-- A precompile with one method, whose body is `handler`. -/
def precompile {Ω : Type} (handler : Handler Ω) : Precompile Ω where
  address := 0x800
  guard := fun _ => none
  methodById := fun id =>
    if id = [0, 0, 0, 1] then .ok { name := "run", type := .function }
    else .error (.new "no method with id")
  receive := none
  fallback := none
  isTransaction := fun _ => true
  unpack := fun _ _ => .ok handler

/-- A frame in which an account calls with the calldata `input`. -/
def frame (caller : Address) (input : Bytes) : Frame where
  origin := caller
  caller := caller
  value := 0
  input := input
  gas := 100
  initialGas := 0
  readOnly := false

/-- A handler that sends the coins of `0xA1` away, unregistered. -/
def spend : Handler Unit := fun _ st =>
  { store := st.setBankBalance 0xA1 "utac" 0
    events := []
    logs := [(0x800, [], [])]
    cost := 1
    result := .ok [] }

/-- A handler that does nothing. -/
def idle : Handler Unit := fun _ st =>
  { store := st, events := [], logs := [], cost := 0, result := .ok [] }

/-- Auth accounts for the caller `0xA1` and the precompile. -/
def accountsStore : Store Unit :=
  { emptyStore () with
    sequence := fun a => if a = 0xA1 ∨ a = 0x800 then some 0 else none }

abbrev accountsState : StateDB Unit := .new (ctx accountsStore) txConfig

/-- A delegation: delegator, validator and amount. -/
abbrev Delegations := List (Address × String × ℤ)

/-- Coins move between the delegator and the pool. -/
def stakingMsg (env : Env) : StakingMsg → KeeperM Delegations Unit
  | .delegate delegator validator coin => do
    Bank.sendCoins env delegator 0xB0 coin.denom coin.amount
    modify fun st => { st with rest := (delegator, validator, coin.amount) :: st.rest }
  | .undelegate delegator validator coin =>
    modify fun st => { st with rest := (delegator, validator, -coin.amount) :: st.rest }
  | .beginRedelegate _ _ _ _ => pure ()
  | .cancelUnbondingDelegation _ _ _ _ => pure ()

def cosmos (env : Env) : Cosmos Delegations where
  getBaseDenom := .ok "utac"
  bondDenom := fun _ => .ok "utac"
  maxValidators := fun _ => .ok 100
  unjailedValidators := fun _ => .ok ["val"]
  decodeBase64 := fun _ => .ok (List.replicate 32 0)
  createValidator := fun msg =>
    Bank.sendCoins env msg.validatorAddress 0xB0 msg.value.denom msg.value.amount
  editValidator := fun _ => pure ()
  stakingMsg := stakingMsg env
  getDelegatorValidators := fun _ _ _ => .ok ["val"]
  hexAddressFromBech32 := fun _ => .error (.new "decoding bech32 failed")
  withdrawDelegationRewards := fun _ _ => pure []
  withdrawValidatorCommission := fun _ => pure []
  fundCommunityPool := fun depositor coins =>
    coins.forM fun coin => Bank.sendCoins env depositor 0xD0 coin.denom coin.amount
  setWithdrawAddress := fun _ _ => pure ()
  getDelegatorWithdrawAddr := fun delegator _ => .ok delegator
  hasChannel := fun _ _ _ => true
  validateTransfer := fun _ => .ok ()
  validateAllocations := fun _ => .ok ()
  acceptTransfer := fun _ _ => .ok { accept := true, delete := true, updated := none }
  acceptSend := fun _ _ _ _ => .ok { accept := true, delete := true, updated := none }
  ibcTransfer := fun msg => Bank.sendCoins env msg.sender 0xE5 msg.token.denom msg.token.amount
  getEscrowAddress := fun _ _ => 0xE5
  getTokenPair := fun _ _ => none
  isERC20Enabled := fun _ => true
  convertERC20 := fun _ _ _ _ => throw (.new "not supported")
  isSendEnabled := fun _ _ => .ok ()

/-- The ABI that numbers the calls of a list. -/
def abi {Call : Type} (name : Call → String) (calls : List Call) : Abi Delegations name where
  methodById := fun id =>
    match calls[(id.getLast?.getD 0).toNat]? with
    | some call => .ok { name := name call, type := .function }
    | none => .error (.new "no method with id")
  unpack := fun m bz =>
    match calls[(bz.head?.getD 0).toNat]? with
    | some call => if name call = m.name then .ok call else .error (.new "abi: cannot unpack")
    | none => .error (.new "abi: cannot unpack")
  unpack_name := by
    intro m bz call h
    split at h
    · split at h
      · cases h
        assumption
      · cases h
    · cases h
  emitted := fun _ _ _ => { events := [], logs := [], cost := 0 }
  query := fun _ _ _ => .ok ()

/-- The calldata of the call at a place of the list. -/
def calldata (place : UInt8) : Bytes := [0, 0, 0, place, place]

/-- Accounts for `0xA1`, with ten coins, `0xC1` and the precompiles. -/
def stakingStore : Store Delegations :=
  { emptyStore [] with
    sequence := fun a =>
      if a = 0xA1 ∨ a = 0xC1 ∨ a = 0x800 ∨ a = 0x801 ∨ a = 0x802 then some 0 else none
    balance := fun a d => if a = 0xA1 ∧ d = "utac" then 10 else 0
    supply := fun d => if d = "utac" then 10 else 0 }

def chain (decimals : Decimals) : Chain where
  env := env decimals
  rules := { isHomestead := true, isIstanbul := true, isBerlin := true, isLondon := true }
  evmParams := { allowUnprotectedTxs := true, create := .permissionless, call := .permissionless }
  feeMarketParams :=
    { noBaseFee := false
      baseFee := some (.newDec 1)
      enableHeight := 0
      minGasPrice := .newDec 0
      minGasMultiplier := .newDec 0 }
  baseFeeV1 := none
  height := 1
  headerHash := 0
  maxGas := some (-1)
  minGasPrices := .newDec 0
  maxGasWanted := 0
  feeCollector := 0xFC
  coinbase := .ok 0xCB
  sender := fun _ => .ok 0xA1
  isProtected := fun _ => true
  txHash := fun txData => BitVec.ofNat 256 txData.getNonce.toNat
  intrinsicGas := fun _ _ _ => .ok 21000

abbrev chain18 : Chain := chain .eighteenDecimals

/-- A transaction that pays the base fee, or a creation. -/
def legacyTx (nonce gasLimit : UInt64) (recipient : Bytes) : TxData :=
  .legacy
    { nonce := nonce
      gasPrice := some 1
      gasLimit := gasLimit
      recipient := recipient
      amount := none
      data := []
      v := []
      r := []
      s := [] }

/-- A transaction with a tip, for a chain of six decimals. -/
def tippingTx : TxData :=
  .dynamicFee
    { chainID := none
      nonce := 0
      gasTipCap := some 5
      gasFeeCap := some 3000000000000
      gasLimit := 30000
      recipient := [1]
      amount := none
      data := []
      accesses := none
      v := []
      r := []
      s := [] }

/-- An Ethereum transaction that declares these totals. -/
def cosmosTx (txDatas : List TxData) (gasLimit : UInt64) (amount : ℤ) : CosmosTx where
  memo := ""
  timeoutHeight := 0
  extensionOptions := 1
  nonCriticalExtensionOptions := 0
  signerInfos := 0
  signatures := 0
  fee :=
    { amount := [{ denom := "utac", amount := amount }]
      gasLimit := gasLimit
      payer := ""
      granter := "" }
  msgs := txDatas.map fun txData =>
    .ethereumTx { data := .ok txData, sender := [], hash := "" }

/-- The state in which `0xA1` has `balance` coins. -/
def chainState (balance : ℕ) : ChainState Unit where
  ctx := ctx
    { emptyStore () with
      sequence := fun a => if a = 0xA1 then some 0 else none
      balance := fun a d => if a = 0xA1 ∧ d = "utac" then balance else 0
      supply := fun d => if d = "utac" then balance else 0 }
  transient := .empty
  gasMeter := { limit := 0, consumed := 0 }
  blockGasMeter := some { limit := 0, consumed := 0 }

/-- An EVM that does nothing and leaves the gas it is given. -/
def evm : Evm Unit where
  create := fun _ gas _ => { actions := [], leftoverGas := gas, vmErr := none, ret := [] }
  call := fun _ gas _ => { actions := [], leftoverGas := gas, vmErr := none, ret := [] }

/-- The contract `0xC1` adds a log, and one that is reverted. -/
def loggingEvm : Evm Unit where
  create := evm.create
  call := fun _ gas _ =>
    { actions := [.op (.write (.addLog 0xC1 [] [])), .op .snapshot,
        .op (.write (.addLog 0xC1 [7] [])), .op (.revertToSnapshot 0)]
      leftoverGas := gas
      vmErr := none
      ret := [] }

/-- An EVM of invalid instructions, which take all gas. -/
def invalidEvm : Evm Unit where
  create := fun _ _ _ =>
    { actions := [], leftoverGas := 0, vmErr := some "invalid opcode: INVALID", ret := [] }
  call := fun _ _ _ =>
    { actions := [], leftoverGas := 0, vmErr := some "invalid opcode: INVALID", ret := [] }

theorem exists_of_any {α : Type} {o : Option α} {p : α → Prop} [DecidablePred p]
    (h : (o.any fun a => p a) = true) : ∃ a, o = some a ∧ p a := by
  cases o with
  | none => cases h
  | some a => exact ⟨a, rfl, of_decide_eq_true h⟩

/-- A write that succeeds and leaves a state that passes a test. -/
def okAnd {ε σ : Type} (r : EStateM.Result ε σ Unit) (p : σ → Bool) : Bool :=
  match r with
  | .ok _ s => p s
  | .error _ _ => false

/-- A computation whose result and state pass a test. -/
def okWith {ε σ α : Type} (r : EStateM.Result ε σ α) (p : α → σ → Bool) : Bool :=
  match r with
  | .ok a s => p a s
  | .error _ _ => false

theorem exists_of_okWith {ε σ α : Type} {r : EStateM.Result ε σ α} {p : α → σ → Prop}
    [∀ a, DecidablePred (p a)] (h : okWith r (fun a s => p a s) = true) :
    ∃ a s, r = .ok a s ∧ p a s := by
  cases r with
  | error e s => cases h
  | ok a s => exact ⟨a, s, rfl, of_decide_eq_true h⟩

theorem exists_of_okAnd {ε σ : Type} {r : EStateM.Result ε σ Unit} {p : σ → Prop} [DecidablePred p]
    (h : okAnd r (fun s => p s) = true) : ∃ s, r = .ok () s ∧ p s := by
  cases r with
  | error e s => cases h
  | ok u s => exact ⟨s, rfl, of_decide_eq_true h⟩

/-- Successful calls that leave a state that passes a test. -/
def callsLeave {Ω : Type} (env : Env) (calls : List (PrecompileCall Ω)) (p : StateDB Ω → Bool)
    (s : StateDB Ω) : Bool :=
  match calls with
  | [] => p s
  | c :: calls =>
    match s.callPrecompile env c with
    | some (none, s') => callsLeave env calls p s'
    | _ => false

theorem exists_of_callsLeave {Ω : Type} {env : Env} {c : PrecompileCall Ω}
    {calls : List (PrecompileCall Ω)} {p : StateDB Ω → Bool} {s : StateDB Ω}
    (h : callsLeave env (c :: calls) p s = true) :
    ∃ s', s.callPrecompile env c = some (none, s') ∧ callsLeave env calls p s' = true := by
  unfold callsLeave at h
  split at h
  · exact ⟨_, by assumption, h⟩
  · cases h

end TacEvm.Devnet
