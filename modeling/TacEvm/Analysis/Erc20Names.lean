import TacEvm.Model.Erc20Names

/-!
# Sanitised names

The filter anchors only the first character of a name: once it is removed, the next one may be a
digit, a slash or a hyphen. `Lettered` says of a name, character by character, that none is exposed.
-/

namespace TacEvm.Erc20Keeper

/-- What is asked of a sanitised name. -/
structure ValidName (r : Bytes) : Prop where
  letter : ∀ c ∈ r.head?, isLetter c = true
  characters : ∀ c ∈ r, isNameCharacter c = true
  length : r.length ≤ 128
  noIbc : ¬ ascii "ibc/".toList <+: r
  noErc20 : ¬ ascii "erc20/".toList <+: r
  stable : sanitizeERC20Name r = r

/-! ## The characters that count -/

/-- Whether a character counts, by those before it, the last first: not digits at the start of a
line, nor a first one that is no letter. -/
def counts (before : Bytes) (c : UInt8) : Bool :=
  if before.all isDigit then isLetter c
  else isNameCharacter c && !((before.takeWhile (· != 10)).all isDigit && isDigit c)

/-- The characters of a name that count. -/
def counted (before : Bytes) : Bytes → Bytes
  | [] => []
  | c :: cs => (if counts before c then [c] else []) ++ counted (c :: before) cs

/-- Prefixes that are removed, any number of them. -/
inductive Prefixes : Bytes → Prop
  | nil : Prefixes []
  | ibc (p : Bytes) (h : Prefixes p) : Prefixes (105 :: 98 :: 99 :: 47 :: p)
  | erc20 (p : Bytes) (h : Prefixes p) : Prefixes (101 :: 114 :: 99 :: 50 :: 48 :: 47 :: p)

/-- Of the first 128 that count, the first and one behind prefixes are letters. -/
def Lettered (name : Bytes) : Prop :=
  ∀ p c rest, counted [] name = p ++ c :: rest → Prefixes p → p.length < 128 → isLetter c = true

/-- A letter is no digit. -/
theorem isDigit_of_isLetter {c : UInt8} (h : isLetter c = true) : isDigit c = false := by
  unfold isLetter at h
  unfold isDigit
  simp only [Bool.or_eq_true, Bool.and_eq_true, decide_eq_true_eq, Bool.and_eq_false_iff,
    decide_eq_false_iff_not, UInt8.le_iff_toNat_le, UInt8.reduceToNat] at h ⊢
  omega

/-- A line starts behind its end, and goes on starting with digits. -/
theorem lineStart_cons (c : UInt8) (before : Bytes) :
    ((c :: before).takeWhile (· != 10)).all isDigit =
      (c == 10 || isDigit c && (before.takeWhile (· != 10)).all isDigit) := by
  rw [List.takeWhile_cons]
  cases hline : c == 10 <;> simp [bne, hline]

/-- Behind the start, what counts is what passes both expressions. -/
theorem filter_removeLeadingNumbers {before : Bytes} (hbefore : before.all isDigit = false)
    (s : Bytes) :
    (removeLeadingNumbers ((before.takeWhile (· != 10)).all isDigit) s).filter isNameCharacter =
      counted before s := by
  induction s generalizing before with
  | nil => rfl
  | cons c s ih =>
    have hnext : (c :: before).all isDigit = false := by rw [List.all_cons, hbefore, Bool.and_false]
    rw [counted, ← ih hnext, counts, hbefore, removeLeadingNumbers, lineStart_cons]
    generalize (before.takeWhile (· != 10)).all isDigit = lineStart
    by_cases hdigit : (lineStart && isDigit c) = true
    · rw [if_pos hdigit, Bool.and_comm (isDigit c), hdigit]
      simp
    · have hkept := Bool.eq_false_of_not_eq_true hdigit
      rw [if_neg hdigit, Bool.and_comm (isDigit c), hkept, Bool.or_false, List.filter_cons]
      cases isNameCharacter c <;> rfl

/-- **What counts is what the expressions leave.** -/
theorem removeSpecialChars_eq_counted {before : Bytes} (hbefore : before.all isDigit = true)
    (s : Bytes) : removeSpecialChars (removeLeadingNumbers true s) = counted before s := by
  induction s generalizing before with
  | nil => rfl
  | cons c s ih =>
    rw [counted, counts, hbefore, removeLeadingNumbers]
    cases hdigit : isDigit c with
    | true =>
      have hletter : isLetter c = false := by
        rw [← Bool.not_eq_true]
        intro hletter
        rw [isDigit_of_isLetter hletter] at hdigit
        cases hdigit
      rw [← ih (show (c :: before).all isDigit = true by rw [List.all_cons, hdigit, hbefore]; rfl)]
      simp [hletter]
    | false =>
      have hnext : (c :: before).all isDigit = false := by rw [List.all_cons, hdigit]; rfl
      have hline : ((c :: before).takeWhile (· != 10)).all isDigit = (c == 10) := by
        rw [lineStart_cons, hdigit, Bool.false_and, Bool.or_false]
      rw [← filter_removeLeadingNumbers hnext, hline]
      rfl

/-- What is left are characters of names. -/
theorem mem_removeSpecialChars {l : Bytes} {c : UInt8} (h : c ∈ removeSpecialChars l) :
    isNameCharacter c = true := by
  cases l with
  | nil => cases h
  | cons d l =>
    rcases List.mem_append.mp h with hfirst | hrest
    · split at hfirst
      · rename_i hletter
        rw [List.mem_singleton.mp hfirst, isNameCharacter, hletter]
        rfl
      · cases hfirst
    · exact (List.mem_filter.mp hrest).2

/-- Prefixes are cut off at the front. -/
theorem removeInvalidPrefixes_suffix (l : Bytes) : removeInvalidPrefixes l <:+ l := by
  fun_induction removeInvalidPrefixes l with
  | case1 str ih => exact ih.trans ⟨[105, 98, 99, 47], rfl⟩
  | case2 str ih => exact ih.trans ⟨[101, 114, 99, 50, 48, 47], rfl⟩
  | case3 str => exact List.suffix_refl _

/-- No prefix is left, so that none is removed the next time. -/
theorem removeInvalidPrefixes_spec (l : Bytes) :
    ¬ ascii "ibc/".toList <+: removeInvalidPrefixes l ∧
      ¬ ascii "erc20/".toList <+: removeInvalidPrefixes l ∧
      removeInvalidPrefixes (removeInvalidPrefixes l) = removeInvalidPrefixes l := by
  fun_induction removeInvalidPrefixes l with
  | case1 str ih => exact ih
  | case2 str ih => exact ih
  | case3 str hibc herc20 =>
    refine ⟨?_, ?_, ?_⟩
    · rintro ⟨rest, rfl⟩
      exact hibc rest rfl
    · rintro ⟨rest, rfl⟩
      exact herc20 rest rfl
    · rw [removeInvalidPrefixes]
      · exact hibc
      · exact herc20

/-- Within a line of name characters nothing is removed. -/
theorem removeLeadingNumbers_line {l : Bytes} (h : ∀ c ∈ l, isNameCharacter c = true) :
    removeLeadingNumbers false l = l := by
  induction l with
  | nil => rfl
  | cons c l ih =>
    obtain ⟨hc, hl⟩ := List.forall_mem_cons.mp h
    have hline : (c == 10) = false := by
      rw [beq_eq_false_iff_ne]
      rintro rfl
      revert hc
      decide
    show c :: removeLeadingNumbers (c == 10) l = _
    rw [hline, ih hl]

/-- What comes first once the prefixes are removed. -/
theorem head_removeInvalidPrefixes_iff (l : Bytes) :
    (∀ c ∈ (removeInvalidPrefixes l).head?, isLetter c = true) ↔
      ∀ p c rest, l = p ++ c :: rest → Prefixes p → isLetter c = true := by
  fun_induction removeInvalidPrefixes l with
  | case1 str ih =>
    rw [ih]
    constructor
    · rintro h p c rest hl (_ | ⟨p, hp⟩ | ⟨p, hp⟩)
      · cases hl
        rfl
      · exact h p c rest (by simpa using hl) hp
      · simp at hl
    · rintro h p c rest rfl hp
      exact h _ c rest rfl (.ibc p hp)
  | case2 str ih =>
    rw [ih]
    constructor
    · rintro h p c rest hl (_ | ⟨p, hp⟩ | ⟨p, hp⟩)
      · cases hl
        rfl
      · simp at hl
      · exact h p c rest (by simpa using hl) hp
    · rintro h p c rest rfl hp
      exact h _ c rest rfl (.erc20 p hp)
  | case3 str hibc herc20 =>
    constructor
    · rintro h p c rest rfl (_ | ⟨p, hp⟩ | ⟨p, hp⟩)
      · exact h c rfl
      · exact absurd rfl (hibc (p ++ c :: rest))
      · exact absurd rfl (herc20 (p ++ c :: rest))
    · intro h c hc
      cases str with
      | nil => cases hc
      | cons d rest =>
        cases hc
        exact h [] c rest rfl .nil

/-- The first character of a sanitised name. -/
theorem lettered_iff (s : Bytes) :
    (∀ c ∈ (sanitizeERC20Name s).head?, isLetter c = true) ↔ Lettered s := by
  have hcounted : removeSpecialChars (removeLeadingNumbers true s) = counted [] s :=
    removeSpecialChars_eq_counted rfl s
  unfold sanitizeERC20Name Lettered
  rw [head_removeInvalidPrefixes_iff, hcounted]
  constructor
  · intro h p c rest hs hp hlength
    refine h p c (rest.take (127 - p.length)) ?_ hp
    rw [hs, List.take_append, List.take_of_length_le hlength.le, List.take_cons (by omega)]
    rw [Nat.sub_right_comm]
  · intro h p c rest hs hp
    have hlength : (p ++ c :: rest).length ≤ 128 := hs ▸ List.length_take_le _ _
    rw [List.length_append, List.length_cons] at hlength
    refine h p c (rest ++ (counted [] s).drop 128) ?_ hp (by omega)
    rw [← List.cons_append, ← List.append_assoc, ← hs, List.take_append_drop]

/-- A sanitised name is an end of what the expressions leave. -/
theorem sanitizeERC20Name_suffix (s : Bytes) :
    sanitizeERC20Name s <:+ (removeSpecialChars (removeLeadingNumbers true s)).take 128 :=
  removeInvalidPrefixes_suffix _

/-- **A sanitised name is valid and stable** if and only if nothing is exposed. -/
theorem validName_sanitizeERC20Name_iff (s : Bytes) :
    ValidName (sanitizeERC20Name s) ↔ Lettered s := by
  rw [← lettered_iff]
  refine ⟨ValidName.letter, fun hletter => ?_⟩
  have hsuffix := sanitizeERC20Name_suffix s
  obtain ⟨hibc, herc20, hagain⟩ :=
    removeInvalidPrefixes_spec ((removeSpecialChars (removeLeadingNumbers true s)).take 128)
  have hchars : ∀ c ∈ sanitizeERC20Name s, isNameCharacter c = true := fun c hc =>
    mem_removeSpecialChars (List.mem_of_mem_take (hsuffix.mem hc))
  have hlength : (sanitizeERC20Name s).length ≤ 128 :=
    hsuffix.length_le.trans (List.length_take_le _ _)
  refine ⟨hletter, hchars, hlength, hibc, herc20, ?_⟩
  have hpasses : removeSpecialChars (removeLeadingNumbers true (sanitizeERC20Name s)) =
      sanitizeERC20Name s := by
    cases hr : sanitizeERC20Name s with
    | nil => rfl
    | cons c cs =>
      rw [hr] at hletter hchars
      have hc : isLetter c = true := hletter c rfl
      obtain ⟨-, hcs⟩ := List.forall_mem_cons.mp hchars
      have hnumbers : removeLeadingNumbers true (c :: cs) = c :: cs := by
        have hline := removeLeadingNumbers_line hchars
        rw [removeLeadingNumbers, Bool.false_and] at hline
        rw [removeLeadingNumbers, isDigit_of_isLetter hc]
        exact hline
      rw [hnumbers, removeSpecialChars, if_pos hc, List.filter_eq_self.mpr hcs]
      rfl
  show removeInvalidPrefixes (List.take 128 (removeSpecialChars _)) = _
  rw [hpasses, List.take_of_length_le hlength]
  exact hagain

/-- **Two hyphens at the start**: the second one stays the first time. -/
theorem sanitizeERC20Name_hyphens :
    sanitizeERC20Name (ascii "--tac".toList) = ascii "-tac".toList ∧
      sanitizeERC20Name (ascii "-tac".toList) = ascii "tac".toList ∧
      ¬ ValidName (sanitizeERC20Name (ascii "--tac".toList)) := by
  refine ⟨by decide, by decide, fun h => ?_⟩
  have hletter := h.letter 45 (by decide)
  revert hletter
  decide

end TacEvm.Erc20Keeper
