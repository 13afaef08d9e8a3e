import TacEvm.Analysis.TokenCalls

/-!
# A token contract

A contract that keeps the balance of every account in a slot of its own and answers two
selectors, in the place of the interpreter.  It is a standard token, on every chain and at every
address.
-/

namespace TacEvm.Devnet

open TokenAbi StateDB

variable {Ω : Type} {env : Env}

/-- The slot of an account. -/
def slotOf (a : Address) : Hash := a.setWidth 256

def tokenBalance (slots : Hash → Hash) (a : Address) : ℕ := (slots (slotOf a)).toNat

/-- The writes that store new balances of two accounts. -/
def storeBalances (contract : Address) (balance : Address → ℕ) (src dst : Address) : List Op :=
  [.write (.setState contract (slotOf src) (BitVec.ofNat 256 (balance src))),
    .write (.setState contract (slotOf dst) (BitVec.ofNat 256 (balance dst)))]

/-- What a call of the token does, by its selector. -/
def callToken (contract : Address) (slots : Hash → Hash) (sender : Address)
    (data : Bytes) (gas : UInt64) : Outcome Ω :=
  if data.take 4 = balanceOfSelector then
    { actions := []
      leftoverGas := gas
      vmErr := none
      ret := beBytes 32 (tokenBalance slots (BitVec.ofNat 160 (beNat (data.drop 4)))) }
  else if data.take 4 = transferSelector then
    let receiver := BitVec.ofNat 160 (beNat ((data.drop 4).take 32))
    let amount := beNat ((data.drop 4).drop 32)
    let moved := moveTokens (tokenBalance slots) sender receiver amount
    if amount ≤ tokenBalance slots sender ∧ moved receiver < 2 ^ 256 then
      { actions := (storeBalances contract moved sender receiver).map Action.op
        leftoverGas := gas
        vmErr := none
        ret := beBytes 32 1 }
    else { actions := [], leftoverGas := gas, vmErr := none, ret := beBytes 32 0 }
  else { actions := [], leftoverGas := 0, vmErr := some "execution reverted", ret := [] }

/-- An EVM with one contract, which is a token. -/
def tokenEvm (env : Env) (contract : Address) : Evm Ω where
  create := fun _ _ _ =>
    { actions := [], leftoverGas := 0, vmErr := some "execution reverted", ret := [] }
  call := fun msg gas db =>
    if (db.hasSuicided env contract).1 then
      { actions := [], leftoverGas := 0, vmErr := some "execution reverted", ret := [] }
    else callToken contract (db.slots env contract) msg.sender msg.data gas

theorem slotOf_inj {a b : Address} : slotOf a = slotOf b ↔ a = b := by
  refine ⟨fun h => ?_, fun h => by rw [h]⟩
  have htrunc := congrArg (BitVec.setWidth 160) h
  simpa [slotOf] using htrunc

theorem unpackWord_beBytes (n : ℕ) : unpackWord (beBytes 32 n) = .ok (beBytes 32 n) := by
  have hlength := length_beBytes 32 n
  unfold unpackWord
  rw [if_neg (by omega), if_neg, List.take_of_length_le (by omega)]
  intro hnil
  rw [hnil] at hlength
  cases hlength

theorem unpackUint256_beBytes {n : ℕ} (h : n < 2 ^ 256) :
    unpackUint256 (beBytes 32 n) = .ok n := by
  unfold unpackUint256
  rw [unpackWord_beBytes]
  show Except.ok (beNat (beBytes 32 n)) = _
  rw [beNat_beBytes, Nat.mod_eq_of_lt (by omega)]

theorem unpackBool_beBytes (b : Bool) : unpackBool (beBytes 32 b.toNat) = .ok b := by
  have hread : beNat (beBytes 32 b.toNat) = b.toNat := by
    rw [beNat_beBytes]
    cases b <;> rfl
  have hword := unpackWord_beBytes b.toNat
  generalize beBytes 32 b.toNat = ret at hread hword ⊢
  unfold unpackBool
  rw [hword]
  show (if beNat ret = 0 then _ else _) = _
  rw [hread]
  cases b <;> rfl

theorem ofNat_packAddress (a : Address) :
    BitVec.ofNat 160 (beNat (packAddress a)) = a := by
  unfold packAddress
  rw [beNat_beBytes, Nat.mod_eq_of_lt (by omega), BitVec.ofNat_toNat, BitVec.setWidth_eq]

theorem callToken_balanceOf (contract : Address) (slots : Hash → Hash) (sender account : Address)
    (gas : UInt64) :
    callToken (Ω := Ω) contract slots sender (packBalanceOf account) gas =
      { actions := [], leftoverGas := gas, vmErr := none,
        ret := beBytes 32 (tokenBalance slots account) } := by
  have hselector : (packBalanceOf account).take 4 = balanceOfSelector :=
    List.take_left' rfl
  have harguments : (packBalanceOf account).drop 4 = packAddress account :=
    List.drop_left' rfl
  unfold callToken
  rw [if_pos hselector, harguments, ofNat_packAddress]

variable {amount : ℕ}

theorem callToken_transfer (contract : Address) (slots : Hash → Hash)
    (sender receiver : Address) (hamount : amount < 2 ^ 256) (gas : UInt64) :
    callToken (Ω := Ω) contract slots sender (packTransfer receiver amount) gas =
      let moved := moveTokens (tokenBalance slots) sender receiver amount
      if amount ≤ tokenBalance slots sender ∧ moved receiver < 2 ^ 256 then
        { actions := (storeBalances contract moved sender receiver).map Action.op
          leftoverGas := gas, vmErr := none, ret := beBytes 32 1 }
      else { actions := [], leftoverGas := gas, vmErr := none, ret := beBytes 32 0 } := by
  have hselector : (packTransfer receiver amount).take 4 = transferSelector :=
    List.take_left' rfl
  have harguments : (packTransfer receiver amount).drop 4 =
      packAddress receiver ++ packUint256 amount := List.drop_left' rfl
  have hlength : (packAddress receiver).length = 32 := length_beBytes 32 _
  have hother : transferSelector ≠ balanceOfSelector := by decide
  have hread : beNat (packUint256 amount) = amount := by
    unfold packUint256
    rw [beNat_beBytes, Int.emod_eq_of_lt (by omega) (by exact_mod_cast hamount), Int.toNat_natCast,
      Nat.mod_eq_of_lt (by omega)]
  unfold callToken
  rw [if_neg (by rw [hselector]; exact hother), if_pos hselector, harguments,
    List.take_left' hlength, List.drop_left' hlength, ofNat_packAddress, hread]

variable {v : ObjectView} {src dst : Address}

theorem storeBalances_run {contract : Address} {db db' : StateDB Ω}
    (hv : (db.observe env).objects contract = some v) {balance : Address → ℕ}
    (h : db.run env ((storeBalances contract balance src dst).map Action.op) = some db') :
    (db'.observe env).objects contract =
      some ((v.setState (slotOf src) (BitVec.ofNat 256 (balance src))).setState (slotOf dst)
        (BitVec.ofNat 256 (balance dst))) := by
  cases h
  exact objects_setState (objects_setState hv _ _) _ _

theorem tokenBalance_moved (hdst : moveTokens (tokenBalance v.state) src dst amount dst < 2 ^ 256) :
    tokenBalance ((v.setState (slotOf src)
        (BitVec.ofNat 256 (moveTokens (tokenBalance v.state) src dst amount src))).setState
          (slotOf dst)
          (BitVec.ofNat 256 (moveTokens (tokenBalance v.state) src dst amount dst))).state =
      moveTokens (tokenBalance v.state) src dst amount := by
  funext a
  show ((Function.update (Function.update v.state (slotOf src) _) (slotOf dst) _)
    (slotOf a)).toNat = _
  by_cases hd : a = dst
  · subst hd
    rw [Function.update_self, BitVec.toNat_ofNat, Nat.mod_eq_of_lt hdst]
  rw [Function.update_of_ne (fun h => hd (slotOf_inj.mp h))]
  by_cases hs : a = src
  · subst hs
    have hle : moveTokens (tokenBalance v.state) a dst amount a ≤ tokenBalance v.state a := by
      rw [moveTokens_src hd]
      exact Nat.sub_le _ _
    have hlt : tokenBalance v.state a < 2 ^ 256 := (v.state (slotOf a)).isLt
    rw [Function.update_self, BitVec.toNat_ofNat, Nat.mod_eq_of_lt (by omega)]
  · rw [Function.update_of_ne (fun h => hs (slotOf_inj.mp h))]
    simp [moveTokens, Function.update_of_ne hd, Function.update_of_ne hs, tokenBalance]

/-- A call of the token transfers the amount. -/
theorem callToken_transferred {contract : Address} (hamount : amount < 2 ^ 256) {gas : UInt64}
    {db db' : StateDB Ω} (hv : (db.observe env).objects contract = some v) (hs : v.suicided = false)
    (hrun : db.run env (callToken contract (db.slots env contract) src
      (packTransfer dst amount) gas).actions = some db') :
    TokenTransfer env contract tokenBalance src dst amount
      (callToken contract (db.slots env contract) src (packTransfer dst amount) gas)
      db db' := by
  have hslots : db.slots env contract = v.state := by
    rw [slots_eq, hv]
    rfl
  rw [callToken_transfer _ _ _ _ hamount, hslots] at hrun ⊢
  by_cases hcan : amount ≤ tokenBalance v.state src ∧
      moveTokens (tokenBalance v.state) src dst amount dst < 2 ^ 256
  · rw [if_pos hcan] at hrun ⊢
    have hv' := storeBalances_run hv hrun
    refine ⟨⟨_, rfl⟩, ?_, ?_, true, unpackBool_beBytes true, ?_⟩
    · rw [hasSuicided_view, hv']
      exact hs
    · rw [getCodeHash_eq, getCodeHash_eq, hv', hv]
      rfl
    · rw [if_pos rfl, hslots]
      refine ⟨hcan.1, ?_⟩
      rw [slots_eq, hv']
      exact tokenBalance_moved hcan.2
  · rw [if_neg hcan] at hrun ⊢
    cases hrun
    refine ⟨⟨[], rfl⟩, ?_, rfl, false, unpackBool_beBytes false, ?_⟩
    · rw [hasSuicided_view, hv]
      exact hs
    · rw [if_neg Bool.false_ne_true]

/-- **The token is a standard one.** -/
def standardToken (env : Env) (contract : Address) (codeHash : Hash) (hcode : codeHash ≠ 0) :
    StandardErc20 env (tokenEvm (Ω := Ω) env contract) contract where
  codeHash := codeHash
  balance := tokenBalance
  balanceOf := by
    intro msg gas db account hrecipient hdata hhash hok
    unfold tokenEvm at hok ⊢
    dsimp only at hok ⊢
    split at hok
    · simp at hok
    · rename_i halive
      rw [if_neg halive, hdata, callToken_balanceOf]
      exact unpackUint256_beBytes (BitVec.isLt _)
  transfer := by
    intro msg gas db db' receiver amount hamount hrecipient hdata hhash hok hrun
    obtain ⟨v, hv⟩ : ∃ v, (db.observe env).objects contract = some v := by
      cases hobj : (db.observe env).objects contract with
      | some v => exact ⟨v, rfl⟩
      | none =>
        rw [getCodeHash_eq, hobj] at hhash
        exact absurd hhash.symm hcode
    unfold tokenEvm at hok hrun ⊢
    dsimp only at hok hrun ⊢
    split at hok
    · simp at hok
    rename_i halive
    rw [if_neg halive, hdata] at hrun ⊢
    refine callToken_transferred hamount hv ?_ hrun
    rw [hasSuicided_view, hv] at halive
    simpa using halive

end TacEvm.Devnet
