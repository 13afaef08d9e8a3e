import Mathlib.Data.BitVec
import Mathlib.Tactic.Ring
import Mathlib.Tactic.Positivity

/-!
# Words, amounts and the EVM coin

Addresses, hashes, byte strings, errors, and the coin of the EVM, which counts in 18 decimals; one
bank unit is `Decimals.conversionFactor` of them. `Env` is what one transaction finds fixed.
-/

namespace TacEvm

/-- `common.Address`, 20 bytes. -/
abbrev Address := BitVec 160

/-- `common.Hash`, 32 bytes. -/
abbrev Hash := BitVec 256

abbrev Bytes := List UInt8

instance : LawfulBEq Address := inferInstanceAs (LawfulBEq (BitVec 160))
instance : LawfulBEq Hash := inferInstanceAs (LawfulBEq (BitVec 256))
instance : LawfulBEq Bytes := inferInstanceAs (LawfulBEq (List UInt8))

/-! The orders in which addresses and hashes are walked through. -/

instance : Std.Total fun a b : Address => a ≤ b := ⟨fun a b => BitVec.le_total a b⟩
instance : IsTrans Address fun a b => a ≤ b := ⟨fun _ _ _ => BitVec.le_trans⟩
instance : Std.Antisymm fun a b : Address => a ≤ b := ⟨fun _ _ => BitVec.le_antisymm⟩
instance : Std.Total fun a b : Hash => a ≤ b := ⟨fun a b => BitVec.le_total a b⟩
instance : IsTrans Hash fun a b => a ≤ b := ⟨fun _ _ _ => BitVec.le_trans⟩
instance : Std.Antisymm fun a b : Hash => a ≤ b := ⟨fun _ _ => BitVec.le_antisymm⟩

abbrev Denom := String

/-! ## Hashes as stored bytes -/

/-- The low `k` bytes of `n`, most significant first. -/
def beBytes : ℕ → ℕ → Bytes
  | 0, _ => []
  | k + 1, n => beBytes k (n / 256) ++ [UInt8.ofNat (n % 256)]

/-- The number a byte string spells, most significant byte first. -/
def beNat (b : Bytes) : ℕ :=
  b.foldl (fun n x => n * 256 + x.toNat) 0

/-- `Hash.Bytes`. -/
def hashBytes (h : Hash) : Bytes := beBytes 32 h.toNat

/-- Longer inputs are cropped from the left. -/
def bytesToHash (b : Bytes) : Hash := BitVec.ofNat 256 (beNat b)

theorem length_beBytes (k n : ℕ) : (beBytes k n).length = k := by
  induction k generalizing n with
  | zero => rfl
  | succ k ih => simp [beBytes, ih]

theorem beNat_beBytes (k n : ℕ) : beNat (beBytes k n) = n % 256 ^ k := by
  induction k generalizing n with
  | zero => simp [beBytes, beNat, Nat.mod_one]
  | succ k ih =>
    have hbyte : (UInt8.ofNat (n % 256)).toNat = n % 256 := by
      simp [UInt8.toNat_ofNat']
    have hfold : beNat (beBytes (k + 1) n) = beNat (beBytes k (n / 256)) * 256 + n % 256 := by
      simp only [beNat, beBytes, List.foldl_append, List.foldl_cons, List.foldl_nil, hbyte]
    rw [hfold, ih, pow_succ', Nat.mod_mul]
    ring

@[simp]
theorem length_hashBytes (h : Hash) : (hashBytes h).length = 32 :=
  length_beBytes 32 h.toNat

@[simp]
theorem bytesToHash_hashBytes (h : Hash) : bytesToHash (hashBytes h) = h := by
  apply BitVec.eq_of_toNat_eq
  have hlt := h.isLt
  rw [bytesToHash, BitVec.toNat_ofNat, hashBytes, beNat_beBytes, Nat.mod_mod_of_dvd _ (by norm_num)]
  exact Nat.mod_eq_of_lt hlt

/-- What an error message quotes. -/
inductive Arg
  | addr (a : Address)
  | hash (h : Hash)
  | num (n : ℤ)
  | str (s : String)
  deriving DecidableEq, Repr

/-- An error value with what it quotes, a text before one, or a Go panic. -/
inductive Err
  | errorf (format : String) (args : List Arg)
  | wrapped (cause : Err) (format : String) (args : List Arg)
  | panic (text : String)
  deriving DecidableEq, Repr

/-- An error with a constant text. -/
def Err.new (text : String) : Err := .errorf text []

/-- `errorsmod.Wrapf`; a panic passes through. -/
def Err.wrapf (format : String) (args : List Arg) : Err → Err
  | .panic text => .panic text
  | cause => .wrapped cause format args

/-- The format of `err.Error()`, the outermost text first. -/
def Err.format : Err → String
  | .errorf format _ => format
  | .wrapped cause format _ => format ++ ": " ++ cause.format
  | .panic text => text

/-- What `err.Error()` quotes. -/
def Err.args : Err → List Arg
  | .errorf _ args => args
  | .wrapped cause _ args => args ++ cause.args
  | .panic _ => []

/-- `errorsmod.Wrapf` with a text that ends in `err.Error()`. -/
def Err.quote (cause : Err) (text : String) : Err → Err
  | .panic text => .panic text
  | e => .wrapped cause (text ++ e.format) e.args

/-- Dereferencing a nil pointer. -/
def Err.nilDereference : Err :=
  .panic "runtime error: invalid memory address or nil pointer dereference"

/-- An error value and not a panic. -/
def Err.IsValue (e : Err) : Prop := ∀ text, e ≠ .panic text

theorem Err.isValue_errorf (format : String) (args : List Arg) :
    (Err.errorf format args).IsValue := by
  intro text h
  cases h

theorem Err.IsValue.wrapf {e : Err} (h : e.IsValue) (format : String) (args : List Arg) :
    (e.wrapf format args).IsValue := by
  cases e with
  | panic text => exact absurd rfl (h text)
  | errorf _ _ =>
    intro text heq
    cases heq
  | wrapped _ _ _ =>
    intro text heq
    cases heq

/-- `types.Decimals`, the two supported values.
x/vm/types/denom.go:13-35 -/
inductive Decimals
  | sixDecimals
  | eighteenDecimals
  deriving DecidableEq, Repr

/-- denom.go:44-50 -/
def Decimals.conversionFactor : Decimals → ℕ
  | .sixDecimals => 1000000000000
  | .eighteenDecimals => 1

/-- `EvmCoinInfo`, without the display denom. -/
structure EvmCoinInfo where
  denom : Denom
  decimals : Decimals

/-- What is fixed during one transaction. -/
structure Env where
  keccak256 : Bytes → Hash
  evmCoinInfo : EvmCoinInfo
  /-- The account of `x/vm`, through which coins are minted. -/
  evmModule : Address
  /-- Accounts that may not receive coins from a module. -/
  blockedAddr : Address → Bool
  /-- What a vesting account may not spend yet. -/
  lockedCoins : Address → Denom → ℕ
  /-- `AccAddress.String`, as events of the bank show addresses. -/
  accAddressString : Address → String
  blockTime : ℤ

namespace Env

variable (env : Env)

/-- `types.GetEVMCoinDenom`. -/
def evmDenom : Denom := env.evmCoinInfo.denom

def conversionFactor : ℕ := env.evmCoinInfo.decimals.conversionFactor

/-- `types.EmptyCodeHash`, the hash of the empty code. -/
def emptyCodeHash : Hash := env.keccak256 []

variable (amt : ℤ)

/-- `types.ConvertAmountTo18DecimalsBigInt`.
x/vm/types/scaling.go:39-43 -/
def convertAmountTo18Decimals : ℤ := amt * env.conversionFactor

/-- It truncates towards zero. scaling.go:47-51 -/
def convertAmountFrom18Decimals : ℤ := amt.tdiv env.conversionFactor

/-- `types.AdjustExtraDecimalsBigInt`.
scaling.go:94-105 -/
def adjustExtraDecimals : ℤ :=
  if amt = 0 then amt
  else match env.evmCoinInfo.decimals with
    | .eighteenDecimals => amt
    | .sixDecimals => amt.tdiv env.conversionFactor * env.conversionFactor

theorem conversionFactor_pos : 0 < env.conversionFactor := by
  unfold conversionFactor
  cases env.evmCoinInfo.decimals <;> decide

theorem int_conversionFactor_pos : (0 : ℤ) < env.conversionFactor :=
  Int.natCast_pos.mpr env.conversionFactor_pos

theorem conversionFactor_ne_zero : (env.conversionFactor : ℤ) ≠ 0 :=
  env.int_conversionFactor_pos.ne'

theorem dvd_adjustExtraDecimals : (env.conversionFactor : ℤ) ∣ env.adjustExtraDecimals amt := by
  unfold adjustExtraDecimals
  split
  · rename_i h
    simp [h]
  · cases h : env.evmCoinInfo.decimals with
    | sixDecimals => exact Dvd.intro_left _ rfl
    | eighteenDecimals => simp [conversionFactor, h, Decimals.conversionFactor]

theorem adjustExtraDecimals_of_dvd {amt : ℤ} (h : (env.conversionFactor : ℤ) ∣ amt) :
    env.adjustExtraDecimals amt = amt := by
  unfold adjustExtraDecimals
  split
  · rfl
  · split
    · rfl
    · exact Int.tdiv_mul_cancel h

theorem convertAmountFrom18Decimals_mul (n : ℤ) :
    env.convertAmountFrom18Decimals (n * env.conversionFactor) = n :=
  Int.mul_tdiv_cancel _ env.conversionFactor_ne_zero

end Env

end TacEvm
