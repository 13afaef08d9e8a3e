import TacEvm.Model.AnteHandler
import TacEvm.Model.MsgServer

/-!
# Transactions of a block

The ante handler works on a branch of the stores that is kept if it accepts, the messages on a
second one that is kept if all of them succeed. If the gas of the block is not enough the messages
are dropped as well.

SOURCE: the SDK's `baseapp` (`runTx`, `runMsgs`, `createEvents`, the recovery from panics);
x/vm/keeper/msg_server.go
-/

namespace TacEvm

open FallibleState

/-- `abci.ExecTxResult`. The code of an error is not zero. -/
structure ExecTxResult where
  code : ℕ
  log : String
  gasUsed : UInt64
  events : List Event
  deriving DecidableEq

/-- An argument as it is printed; addresses are printed in hex. -/
def Arg.text (env : Env) : Arg → String
  | .addr a => quote (addressHex env a)
  | .hash h => quote (hashHex h)
  | .num n => toString n
  | .str s => s

/-- The verbs of a format are replaced by the arguments. -/
def fillFormat : List Char → List String → List Char
  | '%' :: _ :: rest, arg :: args => arg.toList ++ fillFormat rest args
  | c :: rest, args => c :: fillFormat rest args
  | [], _ => []

/-- `err.Error()`. -/
def Err.text (env : Env) (e : Err) : String :=
  String.ofList (fillFormat e.format.toList (e.args.map (Arg.text env)))

/-- What the recovery makes of a panic; the stack is left out. -/
def Err.recovered : Err → Err
  | .panic text => (Err.new "panic").wrapf ("recovered: " ++ text) []
  | e => e

/-! ## Gas of the block -/

/-- `IsOutOfGas`; a meter without a limit never is. -/
def GasMeter.isOutOfGas (meter : GasMeter) : Bool :=
  decide (meter.limit ≠ 0) && decide (meter.limit ≤ meter.consumed)

/-- `ConsumeGas` on the meter of the block. -/
def GasMeter.consumeGas (meter : GasMeter) (amount gasWanted gasUsed : UInt64) :
    Option Err × GasMeter :=
  if 2 ^ 64 ≤ meter.consumed.toNat + amount.toNat then
    (some (Err.recovered (.panic "gas overflow")),
      { meter with consumed := 18446744073709551615 })
  else
    let meter' := { meter with consumed := meter.consumed + amount }
    if meter.limit ≠ 0 ∧ meter.limit < meter'.consumed then
      (some (errOutOfGas.wrapf
        "out of gas in location: block gas meter; gasWanted: %d, gasUsed: %d"
        [.num gasWanted.toNat, .num gasUsed.toNat]), meter')
    else (none, meter')

/-- What the application is put together from, besides the chain. -/
structure App (Ω : Type) where
  evm : Evm Ω
  decorators : Mode → AppTx → ChainM Ω ℤ
  validateOther : SdkMsg → Except Err Unit
  handleOther : SdkMsg → ChainM Ω Unit
  codec : LogCodec
  cometHash : AppTx → Option String

section

variable (chain : Chain) {Ω : Type} (app : App Ω)

variable (tx : AppTx)

def validateBasicTxMsgs : Except Err Unit :=
  if tx.msgs = [] then
    .error (errInvalidRequest.wrapf "must contain at least one message" [])
  else tx.msgs.forM fun
    | .ethereumTx msg => msg.validateBasic chain
    | msg => app.validateOther msg

/-- The handler the router gives for a message. -/
def handleMsg : SdkMsg → ChainM Ω Unit
  | .ethereumTx msg => do
    let _ ← ethereumTx chain app.evm app.codec (app.cometHash tx) msg
  | msg => app.handleOther msg

/-- The events of a message, with one before them and its place in all. -/
def createEvents (typeURL : String) (msgIndex : ℕ) (events : List Event) : List Event :=
  ({ kind := "message", attributes := [("action", typeURL)] } :: events).map fun event =>
    { event with attributes := event.attributes ++ [("msg_index", toString msgIndex)] }

/-- One round of `runMsgs`, with events of its own. -/
def runMsg (events : List Event) (indexed : SdkMsg × ℕ) :
    ChainM Ω (List Event) := do
  modify fun s => { s with ctx := { s.ctx with events := [] } }
  mapError (.wrapf "failed to execute message; message index: %d" [.num indexed.2])
    (handleMsg chain app tx indexed.1)
  let s ← get
  return events ++ createEvents indexed.1.typeURL indexed.2 s.ctx.events

/-- The events of all messages. -/
def runMsgs : ChainM Ω (List Event) :=
  tx.msgs.zipIdx.foldlM (runMsg chain app tx) []

/-- The end of `runTx`: the states without and with the messages. -/
def finishTx (dropped written : ChainState Ω) (meter : GasMeter)
    (anteEvents : List Event) (outcome : Except Err (List Event)) :
    ExecTxResult × ChainState Ω :=
  let (exceeded, blockGasMeter) :=
    match dropped.blockGasMeter with
    | none => (none, none)
    | some blockGasMeter =>
      let r := blockGasMeter.consumeGas meter.consumedToLimit meter.limit meter.consumed
      (r.1, some r.2)
  let failed (e : Err) : ExecTxResult × ChainState Ω :=
    ({ code := 1, log := e.text chain.env, gasUsed := meter.consumed, events := anteEvents },
      { dropped with blockGasMeter := blockGasMeter })
  match exceeded with
  | some e => failed e
  | none =>
    match outcome with
    | .error e => failed e.recovered
    | .ok events =>
      ({ code := 0, log := "", gasUsed := meter.consumed, events := anteEvents ++ events },
        { written with blockGasMeter := blockGasMeter })

/-- The context a transaction starts with. -/
def ChainState.newContext (s : ChainState Ω) : ChainState Ω :=
  { s with
    ctx := { s.ctx with events := [] }
    gasMeter := { limit := 0, consumed := 0 } }

/-- `runTx`, for a transaction of a block. -/
def runTx (s : ChainState Ω) : ExecTxResult × ChainState Ω :=
  if s.blockGasMeter.any GasMeter.isOutOfGas then
    ({ code := 1
       log := (errOutOfGas.wrapf "no block gas left to run tx" []).text chain.env
       gasUsed := 0
       events := [] }, s)
  else
    let s₀ := s.newContext
    match validateBasicTxMsgs chain app tx with
    | .error e => finishTx chain s₀ s₀ s₀.gasMeter [] (.error e)
    | .ok () =>
      match (newAnteHandler chain app.decorators .deliver tx).run s₀ with
      | .error e s₁ => finishTx chain s₀ s₀ s₁.gasMeter [] (.error e)
      | .ok _ s₁ =>
        match (runMsgs chain app tx).run s₁ with
        | .error e s₂ => finishTx chain s₁ s₁ s₂.gasMeter s₁.ctx.events (.error e)
        | .ok events s₂ => finishTx chain s₁ s₂ s₂.gasMeter s₁.ctx.events (.ok events)

/-- The results of the transactions of a block, and the state. -/
def runTxs : List AppTx → ChainState Ω → List ExecTxResult × ChainState Ω
  | [], s => ([], s)
  | tx :: txs, s =>
    let r := runTx chain app tx s
    let rest := runTxs txs r.2
    (r.1 :: rest.1, rest.2)

end

end TacEvm
