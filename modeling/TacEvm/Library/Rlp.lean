import Mathlib.Data.Nat.Digits.Lemmas

/-!
# RLP

The recursive length prefix encoding of byte strings and lists. No encoding of less than `2 ^ 64`
bytes is the beginning of another one (`encode_append_inj`).
-/

namespace Rlp

/-- A number as the shortest string of bytes. -/
def natBytes (n : ℕ) : List UInt8 := ((Nat.digits 256 n).map UInt8.ofNat).reverse

theorem map_toNat_natBytes (n : ℕ) : (natBytes n).reverse.map UInt8.toNat = Nat.digits 256 n := by
  unfold natBytes
  rw [List.reverse_reverse, List.map_map]
  conv_rhs => rw [← List.map_id (Nat.digits 256 n)]
  refine List.map_congr_left fun d hd => ?_
  have hlt : d < 256 := Nat.digits_lt_base (by decide) hd
  show (UInt8.ofNat d).toNat = d
  rw [UInt8.toNat_ofNat', Nat.mod_eq_of_lt hlt]

theorem natBytes_injective : Function.Injective natBytes := by
  intro n m h
  apply Nat.digits.injective 256
  rw [← map_toNat_natBytes n, ← map_toNat_natBytes m, h]

theorem length_natBytes_le {n : ℕ} (hn : n < 2 ^ 64) : (natBytes n).length ≤ 8 := by
  unfold natBytes
  rw [List.length_reverse, List.length_map, Nat.digits_length_le_iff (by decide)]
  exact hn

theorem length_natBytes_pos {n : ℕ} (hn : n ≠ 0) : 0 < (natBytes n).length := by
  unfold natBytes
  rw [List.length_reverse, List.length_map, List.length_pos_iff]
  exact Nat.digits_ne_nil_iff_ne_zero.2 hn

/-- The header of a length, 128 for strings and 192 for lists. -/
def header (offset length : ℕ) : List UInt8 :=
  if length < 56 then [UInt8.ofNat (offset + length)]
  else UInt8.ofNat (offset + 55 + (natBytes length).length) :: natBytes length

/-- The two offsets. -/
def IsOffset (offset : ℕ) : Prop := offset = 128 ∨ offset = 192

theorem ofNat_inj {a b : ℕ} (ha : a < 256) (hb : b < 256) (h : UInt8.ofNat a = UInt8.ofNat b) :
    a = b := by
  have htoNat := congrArg UInt8.toNat h
  rwa [UInt8.toNat_ofNat', UInt8.toNat_ofNat', Nat.mod_eq_of_lt ha, Nat.mod_eq_of_lt hb] at htoNat

variable {offset offset' length length' : ℕ}

/-- A header starts with a byte from 128 on. -/
theorem header_eq_cons (hoffset : IsOffset offset) (hlength : length < 2 ^ 64) :
    ∃ b rest, header offset length = b :: rest ∧ 128 ≤ b.toNat := by
  have hle := length_natBytes_le hlength
  unfold header
  split
  · refine ⟨_, _, rfl, ?_⟩
    rw [UInt8.toNat_ofNat']
    rcases hoffset with rfl | rfl <;> omega
  · refine ⟨_, _, rfl, ?_⟩
    rw [UInt8.toNat_ofNat']
    rcases hoffset with rfl | rfl <;> omega

/-- No header is the beginning of another one. -/
theorem header_append_inj (hoffset : IsOffset offset) (hoffset' : IsOffset offset')
    (hlength : length < 2 ^ 64) (hlength' : length' < 2 ^ 64) {x y : List UInt8}
    (h : header offset length ++ x = header offset' length' ++ y) :
    offset = offset' ∧ length = length' ∧ x = y := by
  have hle := length_natBytes_le hlength
  have hle' := length_natBytes_le hlength'
  unfold IsOffset at hoffset hoffset'
  unfold header at h
  -- the ranges of the first byte are disjoint
  split at h
  · split at h
    · obtain ⟨hfirst, rfl⟩ := List.cons_eq_cons.1 h
      have := ofNat_inj (by omega) (by omega) hfirst
      refine ⟨by omega, by omega, rfl⟩
    obtain ⟨hfirst, -⟩ := List.cons_eq_cons.1 h
    have := ofNat_inj (by omega) (by omega) hfirst
    have := length_natBytes_pos (n := length') (by omega)
    omega
  · have hpos := length_natBytes_pos (n := length) (by omega)
    split at h
    · obtain ⟨hfirst, -⟩ := List.cons_eq_cons.1 h
      have := ofNat_inj (by omega) (by omega) hfirst
      omega
    obtain ⟨hfirst, hrest⟩ := List.cons_eq_cons.1 h
    have hsum := ofNat_inj (by omega) (by omega) hfirst
    have hwidth : (natBytes length).length = (natBytes length').length := by omega
    obtain ⟨hbytes, rfl⟩ := List.append_inj hrest hwidth
    exact ⟨by omega, natBytes_injective hbytes, rfl⟩

/-- What is encoded: a string of bytes or a list of items. -/
inductive Item
  | bytes (bz : List UInt8)
  | list (items : List Item)

/-- One byte that stands for itself. -/
def IsSelf (bz : List UInt8) : Prop := bz.length = 1 ∧ ∀ b ∈ bz, b.toNat < 128

instance (bz : List UInt8) : Decidable (IsSelf bz) :=
  inferInstanceAs (Decidable (bz.length = 1 ∧ ∀ b ∈ bz, b.toNat < 128))

/-- The encoding of a string. -/
def encodeBytes (bz : List UInt8) : List UInt8 :=
  if IsSelf bz then bz else header 128 bz.length ++ bz

mutual

/-- The encoding of an item. -/
def Item.encode : Item → List UInt8
  | .bytes bz => encodeBytes bz
  | .list items => header 192 (encodeAll items).length ++ encodeAll items

/-- The encodings of items, one after the other. -/
def encodeAll : List Item → List UInt8
  | [] => []
  | item :: items => item.encode ++ encodeAll items

end

/-! ## Encodings are told apart -/

theorem encodeBytes_ne_nil (bz : List UInt8) : encodeBytes bz ≠ [] := by
  unfold encodeBytes
  split
  · rename_i hself
    intro hnil
    rw [hnil] at hself
    exact absurd hself.1 (by decide)
  · unfold header
    split
    · exact List.cons_ne_nil _ _
    · exact List.cons_ne_nil _ _

theorem encode_ne_nil (item : Item) : item.encode ≠ [] := by
  cases item with
  | bytes bz => exact encodeBytes_ne_nil bz
  | list items =>
    unfold Item.encode header
    split
    · exact List.cons_ne_nil _ _
    · exact List.cons_ne_nil _ _

theorem self_append_ne_header {bz x y : List UInt8} (hself : IsSelf bz) (hoffset : IsOffset offset)
    (hlength : length < 2 ^ 64) : bz ++ x ≠ header offset length ++ y := by
  obtain ⟨first, rfl⟩ := List.length_eq_one_iff.1 hself.1
  obtain ⟨b, rest, heq, hlarge⟩ := header_eq_cons hoffset hlength
  intro h
  rw [heq] at h
  obtain ⟨rfl, -⟩ := List.cons_eq_cons.1 h
  have := hself.2 first (List.mem_singleton_self first)
  omega

theorem encodeBytes_append_inj {bz bz' x y : List UInt8} (hlength : bz.length < 2 ^ 64)
    (hlength' : bz'.length < 2 ^ 64) (h : encodeBytes bz ++ x = encodeBytes bz' ++ y) :
    bz = bz' ∧ x = y := by
  unfold encodeBytes at h
  split at h
  · rename_i hself
    split at h
    · rename_i hself'
      exact List.append_inj h (hself.1.trans hself'.1.symm)
    · rw [List.append_assoc] at h
      exact absurd h (self_append_ne_header hself (.inl rfl) hlength')
  · split at h
    · rename_i hself'
      rw [List.append_assoc] at h
      exact absurd h.symm (self_append_ne_header hself' (.inl rfl) hlength)
    · rw [List.append_assoc, List.append_assoc] at h
      obtain ⟨-, hsame, hrest⟩ := header_append_inj (.inl rfl) (.inl rfl) hlength hlength' h
      exact List.append_inj hrest hsame

theorem encodeBytes_append_ne {bz payload x y : List UInt8} (hlength : bz.length < 2 ^ 64)
    (hpayload : payload.length < 2 ^ 64) :
    encodeBytes bz ++ x ≠ header 192 payload.length ++ payload ++ y := by
  unfold encodeBytes
  rw [List.append_assoc (header 192 payload.length)]
  split
  · rename_i hself
    exact self_append_ne_header hself (.inr rfl) hpayload
  · rw [List.append_assoc]
    intro h
    obtain ⟨hoffset, -, -⟩ := header_append_inj (.inl rfl) (.inr rfl) hlength hpayload h
    omega

theorem length_le_encodeBytes (bz : List UInt8) : bz.length ≤ (encodeBytes bz).length := by
  unfold encodeBytes
  split
  · exact le_refl _
  · rw [List.length_append]
    omega

/-- A list starts with a byte from 128 on. -/
theorem encode_list_eq_cons {items : List Item} (h : (Item.list items).encode.length < 2 ^ 64) :
    ∃ b rest, (Item.list items).encode = b :: rest ∧ 128 ≤ b.toNat := by
  rw [Item.encode, List.length_append] at h
  obtain ⟨b, rest, heq, hlarge⟩ := header_eq_cons (.inr rfl)
    (show (encodeAll items).length < 2 ^ 64 by omega)
  rw [Item.encode, heq]
  exact ⟨b, rest ++ encodeAll items, rfl, hlarge⟩

/-- No encoding is the beginning of another one. -/
theorem encode_append_inj {a b : Item} {x y : List UInt8} (ha : a.encode.length < 2 ^ 64)
    (hb : b.encode.length < 2 ^ 64) (h : a.encode ++ x = b.encode ++ y) : a = b ∧ x = y := by
  revert b x y ha
  -- the lists of items are compared item by item
  apply @Item.rec
    (fun a => ∀ {b : Item} {x y : List UInt8}, a.encode.length < 2 ^ 64 →
      b.encode.length < 2 ^ 64 → a.encode ++ x = b.encode ++ y → a = b ∧ x = y)
    (fun items => ∀ {items' : List Item}, (encodeAll items).length < 2 ^ 64 →
      (encodeAll items').length < 2 ^ 64 → encodeAll items = encodeAll items' → items = items')
  · intro bz b x y ha hb h
    have hlength := (length_le_encodeBytes bz).trans_lt ha
    cases b with
    | bytes bz' =>
      have hlength' := (length_le_encodeBytes bz').trans_lt hb
      obtain ⟨rfl, rfl⟩ := encodeBytes_append_inj hlength hlength' h
      exact ⟨rfl, rfl⟩
    | list items =>
      rw [Item.encode, List.length_append] at hb
      exact absurd h (encodeBytes_append_ne hlength (by omega))
  · intro items ih b x y ha hb h
    rw [Item.encode, List.length_append] at ha
    cases b with
    | bytes bz =>
      have hlength := (length_le_encodeBytes bz).trans_lt hb
      exact absurd h.symm (encodeBytes_append_ne hlength (by omega))
    | list items' =>
      rw [Item.encode, List.length_append] at hb
      rw [Item.encode, Item.encode, List.append_assoc, List.append_assoc] at h
      obtain ⟨-, hsame, hrest⟩ :=
        header_append_inj (.inr rfl) (.inr rfl) (by omega) (by omega) h
      obtain ⟨hpayload, rfl⟩ := List.append_inj hrest hsame
      rw [ih (by omega) (by omega) hpayload]
      exact ⟨rfl, rfl⟩
  · intro items' _ _ h
    cases items' with
    | nil => rfl
    | cons item items' =>
      rw [encodeAll, encodeAll] at h
      exact absurd (List.append_eq_nil_iff.1 h.symm).1 (encode_ne_nil item)
  · intro item items ihItem ihItems items' ha hb h
    cases items' with
    | nil =>
      rw [encodeAll, encodeAll] at h
      exact absurd (List.append_eq_nil_iff.1 h).1 (encode_ne_nil item)
    | cons item' items' =>
      rw [encodeAll, List.length_append] at ha hb
      rw [encodeAll, encodeAll] at h
      obtain ⟨rfl, hrest⟩ := ihItem (by omega) (by omega) h
      rw [ihItems (by omega) (by omega) hrest]

theorem encode_inj {a b : Item} (ha : a.encode.length < 2 ^ 64) (h : a.encode = b.encode) :
    a = b := by
  have hb : b.encode.length < 2 ^ 64 := h ▸ ha
  have happend : a.encode ++ [] = b.encode ++ [] := by rw [h]
  exact (encode_append_inj ha hb happend).1

end Rlp
