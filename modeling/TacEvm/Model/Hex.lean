import TacEvm.Model.Basic

/-!
# Addresses as text

An address is written as 40 hex digits, with or without a leading `0x`, in either case.
`hexToAddress` reads any string as an address, `isHexAddress` says which are meant as one, and
`Address.hex` writes the form with the checksum.

SOURCE: go-ethereum `common` (`IsHexAddress`, `HexToAddress`, `Address.Hex`), called in
types/validation.go:24-32 and all over x/erc20
-/

namespace TacEvm

/-- A string literal of the source, which is ASCII. -/
def ascii (text : List Char) : Bytes := text.map fun c => UInt8.ofNat c.toNat

variable (bz : Bytes)

/-- A byte string as an error message quotes it. -/
def quote : String := String.ofList (bz.map fun b => Char.ofNat b.toNat)

def has0xPrefix (str : Bytes) : Bool :=
  match str with
  | c :: d :: _ => c == 48 && (d == 120 || d == 88)
  | _ => false

/-- The value of a hex digit. -/
def hexDigit (c : UInt8) : Option ℕ :=
  if 48 ≤ c ∧ c ≤ 57 then some (c.toNat - 48)
  else if 97 ≤ c ∧ c ≤ 102 then some (c.toNat - 87)
  else if 65 ≤ c ∧ c ≤ 70 then some (c.toNat - 55)
  else none

def isHexCharacter (c : UInt8) : Bool := (hexDigit c).isSome

def isHex (str : Bytes) : Bool := str.length % 2 == 0 && str.all isHexCharacter

variable (s : Bytes)

def trim0xPrefix : Bytes := if has0xPrefix s then s.drop 2 else s

def isHexAddress : Bool :=
  (trim0xPrefix s).length == 40 && isHex (trim0xPrefix s)

def errInvalidAddress : Err := .new "invalid address"

/-- validation.go:24-32 -/
def validateAddress (address : Bytes) : Except Err Unit :=
  if isHexAddress address then .ok ()
  else .error (errInvalidAddress.wrapf "address '%s' is not a valid ethereum hex address"
    [.str (quote address)])

/-- The bytes the digits spell, up to what is no digit. -/
def decodeDigits : List (Option ℕ) → Bytes
  | some x :: some y :: rest => UInt8.ofNat (16 * x + y) :: decodeDigits rest
  | _ => []

/-- `hex.DecodeString` without its error. -/
def decodeHex : Bytes := decodeDigits (s.map hexDigit)

/-- A last digit without its partner is looked at before it is missed. -/
def decodeString : Bytes → Except Err Bytes
  | [] => .ok []
  | [c] =>
    match hexDigit c with
    | none => .error (.errorf "encoding/hex: invalid byte: %#U" [.num c.toNat])
    | some _ => .error (.new "encoding/hex: odd length hex string")
  | c :: d :: rest =>
    match hexDigit c, hexDigit d with
    | none, _ => .error (.errorf "encoding/hex: invalid byte: %#U" [.num c.toNat])
    | some _, none => .error (.errorf "encoding/hex: invalid byte: %#U" [.num d.toNat])
    | some x, some y => (decodeString rest).map fun bz => UInt8.ofNat (16 * x + y) :: bz

def fromHex : Bytes :=
  let s := trim0xPrefix s
  decodeHex (if s.length % 2 = 1 then 48 :: s else s)

/-- Longer inputs are cropped from the left. -/
def bytesToAddress (b : Bytes) : Address := BitVec.ofNat 160 (beNat b)

def hexToAddress : Address := bytesToAddress (fromHex s)

def hexToHash : Hash := bytesToHash (fromHex s)

/-- `Address.Bytes`. -/
def addressBytes (a : Address) : Bytes := beBytes 20 a.toNat

/-- A hex digit in lower case. -/
def lowerDigit (n : ℕ) : UInt8 := UInt8.ofNat (if n < 10 then 48 + n else 87 + n)

/-- `hex.Encode`. -/
def encodeHex : Bytes :=
  bz.flatMap fun b => [lowerDigit (b.toNat / 16), lowerDigit (b.toNat % 16)]

/-- The digit at a place of a hash. -/
def hashDigit (hash : Bytes) (i : ℕ) : ℕ :=
  if i % 2 = 0 then (hash.getD (i / 2) 0).toNat / 16 else (hash.getD (i / 2) 0).toNat % 16

/-- Upper case where the digit of the hash is above 7. -/
def checksum (hash digits : Bytes) : Bytes :=
  digits.zipIdx.map fun x => if 57 < x.1 ∧ 7 < hashDigit hash x.2 then x.1 - 32 else x.1

/-- `Address.Hex`, which is also `Address.String`. -/
def addressHex (env : Env) (a : Address) : Bytes :=
  let digits := encodeHex (addressBytes a)
  48 :: 120 :: checksum (hashBytes (env.keccak256 digits)) digits

/-- `Hash.String`. -/
def hashHex (h : Hash) : Bytes := 48 :: 120 :: encodeHex (hashBytes h)

/-! ## What is written is read back -/

theorem ascii_quote : ascii (quote bz).toList = bz := by
  have hbyte : ∀ b : UInt8, UInt8.ofNat (Char.ofNat b.toNat).toNat = b := by
    intro b
    have hlt := UInt8.toNat_lt b
    have hvalid : b.toNat.isValidChar := .inl (by omega)
    have hchar : (Char.ofNat b.toNat).toNat = b.toNat := by
      rw [Char.ofNat, dif_pos hvalid]
      rfl
    rw [hchar, UInt8.ofNat_toNat]
  rw [ascii, quote, String.toList_ofList, List.map_map]
  exact (List.map_congr_left fun b _ => hbyte b).trans (List.map_id bz)

theorem hexDigit_lowerDigit {n : ℕ} (h : n < 16) :
    hexDigit (lowerDigit n) = some n ∧
      (57 < lowerDigit n → hexDigit (lowerDigit n - 32) = some n) := by
  have hall : ∀ n < 16, hexDigit (lowerDigit n) = some n ∧
      (57 < lowerDigit n → hexDigit (lowerDigit n - 32) = some n) := by decide
  exact hall n h

theorem mem_encodeHex :
    ∀ c ∈ encodeHex bz, ∃ n < 16, c = lowerDigit n := by
  intro c hc
  obtain ⟨b, -, hb⟩ := List.mem_flatMap.mp hc
  have hlt : b.toNat < 256 := b.toNat_lt
  simp only [List.mem_cons, List.not_mem_nil, or_false] at hb
  rcases hb with rfl | rfl
  · exact ⟨b.toNat / 16, by omega, rfl⟩
  · exact ⟨b.toNat % 16, by omega, rfl⟩

theorem length_encodeHex : (encodeHex bz).length = 2 * bz.length := by
  induction bz with
  | nil => rfl
  | cons b bz ih =>
    simp only [encodeHex, List.flatMap_cons, List.length_append, List.length_cons,
      List.length_nil] at ih ⊢
    omega

@[simp]
theorem length_checksum (hash digits : Bytes) : (checksum hash digits).length = digits.length := by
  simp [checksum]

theorem map_hexDigit_checksum (hash : Bytes) {digits : Bytes}
    (h : ∀ c ∈ digits, ∃ n < 16, c = lowerDigit n) :
    (checksum hash digits).map hexDigit = digits.map hexDigit := by
  have hsame : ∀ x ∈ digits.zipIdx,
      hexDigit (if 57 < x.1 ∧ 7 < hashDigit hash x.2 then x.1 - 32 else x.1) = hexDigit x.1 := by
    intro x hx
    obtain ⟨n, hn, hc⟩ := h x.1 (List.fst_mem_of_mem_zipIdx hx)
    obtain ⟨hlower, hupper⟩ := hexDigit_lowerDigit hn
    rw [hc]
    split
    · rename_i hcase
      rw [hupper hcase.1, hlower]
    · rfl
  have hfst : digits.zipIdx.map (fun x => hexDigit x.1) = digits.map hexDigit := by
    have hdigits := congrArg (List.map hexDigit) (List.zipIdx_map_fst 0 digits)
    rw [List.map_map] at hdigits
    exact hdigits
  rw [checksum, List.map_map, ← hfst]
  exact List.map_congr_left hsame

theorem decodeHex_encodeHex : decodeHex (encodeHex bz) = bz := by
  induction bz with
  | nil => rfl
  | cons b bz ih =>
    have hlt : b.toNat < 256 := b.toNat_lt
    have hhigh := (hexDigit_lowerDigit (n := b.toNat / 16) (by omega)).1
    have hlow := (hexDigit_lowerDigit (n := b.toNat % 16) (by omega)).1
    have hbyte : UInt8.ofNat (16 * (b.toNat / 16) + b.toNat % 16) = b := by
      rw [Nat.div_add_mod]
      exact UInt8.ofNat_toNat
    unfold decodeHex at ih ⊢
    simp only [encodeHex, List.flatMap_cons, List.cons_append, List.nil_append, List.map_cons,
      hhigh, hlow, decodeDigits, hbyte] at ih ⊢
    rw [ih]

/-- **A hash is read back as it was written.** -/
theorem hexToHash_hashHex (h : Hash) : hexToHash (hashHex h) = h := by
  have htrim : trim0xPrefix (hashHex h) = encodeHex (hashBytes h) := by
    simp [hashHex, trim0xPrefix, has0xPrefix]
  have heven : (encodeHex (hashBytes h)).length % 2 ≠ 1 := by
    rw [length_encodeHex]
    omega
  have hdecoded : fromHex (hashHex h) = hashBytes h := by
    unfold fromHex
    dsimp only
    rw [htrim, if_neg heven]
    exact decodeHex_encodeHex (hashBytes h)
  rw [hexToHash, hdecoded]
  exact bytesToHash_hashBytes h

theorem beNat_append (b b' : Bytes) : beNat (b ++ b') = beNat b * 256 ^ b'.length + beNat b' := by
  induction b' using List.reverseRecOn with
  | nil => simp [beNat]
  | append_singleton b' x ih =>
    have hlast : ∀ c : Bytes, beNat (c ++ [x]) = beNat c * 256 + x.toNat := by
      intro c
      simp [beNat]
    rw [← List.append_assoc, hlast, hlast, ih, List.length_append, List.length_singleton, pow_succ]
    ring

theorem bytesToAddress_append (key : Bytes) (a : Address) :
    bytesToAddress (key ++ addressBytes a) = a := by
  have hlt := a.isLt
  apply BitVec.eq_of_toNat_eq
  rw [bytesToAddress, BitVec.toNat_ofNat, beNat_append, addressBytes, length_beBytes,
    show (256 : ℕ) ^ 20 = 2 ^ 160 by norm_num, Nat.mul_add_mod_self_right, beNat_beBytes,
    Nat.mod_mod_of_dvd _ (by norm_num)]
  exact Nat.mod_eq_of_lt hlt

theorem bytesToHash_append (key : Bytes) (h : Hash) : bytesToHash (key ++ hashBytes h) = h := by
  have hlt := h.isLt
  apply BitVec.eq_of_toNat_eq
  rw [bytesToHash, BitVec.toNat_ofNat, beNat_append, hashBytes, length_beBytes,
    show (256 : ℕ) ^ 32 = 2 ^ 256 by norm_num, Nat.mul_add_mod_self_right, beNat_beBytes,
    Nat.mod_mod_of_dvd _ (by norm_num)]
  exact Nat.mod_eq_of_lt hlt

section Written

variable (env : Env) (a : Address)

theorem trim0xPrefix_addressHex :
    trim0xPrefix (addressHex env a) =
      checksum (hashBytes (env.keccak256 (encodeHex (addressBytes a))))
        (encodeHex (addressBytes a)) := rfl

theorem length_addressDigits (hash : Bytes) :
    (checksum hash (encodeHex (addressBytes a))).length = 40 := by
  rw [length_checksum, length_encodeHex, addressBytes, length_beBytes]

theorem isHexAddress_addressHex : isHexAddress (addressHex env a) = true := by
  have hlength := length_addressDigits a (hashBytes (env.keccak256 (encodeHex (addressBytes a))))
  have hvalues := map_hexDigit_checksum
    (hashBytes (env.keccak256 (encodeHex (addressBytes a)))) (mem_encodeHex (addressBytes a))
  unfold isHexAddress isHex
  rw [trim0xPrefix_addressHex, hlength]
  generalize checksum _ _ = written at hvalues
  have hdigits : ∀ c ∈ written, isHexCharacter c = true := by
    intro c hc
    have hmem : hexDigit c ∈ (encodeHex (addressBytes a)).map hexDigit := by
      rw [← hvalues]
      exact List.mem_map_of_mem hc
    obtain ⟨c', hc', heq⟩ := List.mem_map.mp hmem
    obtain ⟨n, hn, rfl⟩ := mem_encodeHex _ c' hc'
    rw [isHexCharacter, ← heq, (hexDigit_lowerDigit hn).1]
    rfl
  simpa using hdigits

/-- **An address is read back as it was written.** -/
theorem hexToAddress_addressHex : hexToAddress (addressHex env a) = a := by
  have hlength := length_addressDigits a (hashBytes (env.keccak256 (encodeHex (addressBytes a))))
  have hvalues := map_hexDigit_checksum
    (hashBytes (env.keccak256 (encodeHex (addressBytes a)))) (mem_encodeHex (addressBytes a))
  have hdecoded : fromHex (addressHex env a) = addressBytes a := by
    unfold fromHex
    dsimp only
    rw [trim0xPrefix_addressHex, hlength, if_neg (by decide), decodeHex, hvalues]
    exact decodeHex_encodeHex (addressBytes a)
  have hlt := a.isLt
  apply BitVec.eq_of_toNat_eq
  rw [hexToAddress, hdecoded, bytesToAddress, BitVec.toNat_ofNat, addressBytes, beNat_beBytes,
    Nat.mod_mod_of_dvd _ (by norm_num)]
  exact Nat.mod_eq_of_lt hlt

end Written

end TacEvm
