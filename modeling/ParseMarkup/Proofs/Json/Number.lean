import ParseMarkup.Json.Token

/-!
# Numbers in a JSON text

The lexemes that stand for a value are made of the characters that a scanner takes for those of a
number, and begin with one that begins a number. The decimal digits of an integer, after a minus
sign if it is negative, are such a lexeme, and stand for that integer.

The main statements: `isNumberChar_of_atomOfNumber`, `startsNumber_of_atomOfNumber` and
`atomOfNumber_repr`.
-/

namespace ParseMarkup.Json

/-! ## Characters of a number -/

/-- Whether a character begins a number. -/
def startsNumber (c : Char) : Bool := c.isDigit || c = '-'

theorem isNumberChar_of_isDigit {c : Char} (h : c.isDigit = true) : isNumberChar c = true := by
  simp [isNumberChar, h]

/-- An integer is spelled by digits, at least one. -/
theorem isDigit_of_isInteger {ds : List Char} (h : isInteger ds = true) :
    ds ≠ [] ∧ ∀ c ∈ ds, c.isDigit = true := by
  unfold isInteger at h
  split at h
  · cases h
  · exact ⟨List.cons_ne_nil _ _, fun c hmem => List.mem_singleton.1 hmem ▸ rfl⟩
  · rw [Bool.and_eq_true, List.all_eq_true] at h
    exact ⟨List.cons_ne_nil _ _, h.2⟩

/-- So is an exponent after its letter and its sign. -/
theorem isNumberChar_of_isExponent {cs : List Char} (h : isExponent cs = true) :
    ∀ c ∈ cs, isNumberChar c = true := by
  have hdigits : ∀ ds : List Char, (!ds.isEmpty && ds.all Char.isDigit) = true →
      ∀ c ∈ ds, isNumberChar c = true := fun ds hall c hmem => by
    rw [Bool.and_eq_true, List.all_eq_true] at hall
    exact isNumberChar_of_isDigit (hall.2 c hmem)
  unfold isExponent at h
  split at h
  · simp
  · rename_i e rest
    rw [Bool.and_eq_true] at h
    obtain ⟨hletter, hrest⟩ := h
    have hletter : isNumberChar e = true := by
      rcases Bool.or_eq_true _ _ ▸ hletter with hletter | hletter
      all_goals rw [of_decide_eq_true hletter]; rfl
    rw [List.forall_mem_cons]
    refine ⟨hletter, ?_⟩
    split at hrest
    · exact List.forall_mem_cons.2 ⟨rfl, hdigits _ hrest⟩
    · exact List.forall_mem_cons.2 ⟨rfl, hdigits _ hrest⟩
    · exact hdigits _ hrest

/-- What follows the integer part of a number is made of such characters as well. -/
theorem isNumberChar_of_isFraction {cs : List Char} (h : isFraction cs = true) :
    ∀ c ∈ cs, isNumberChar c = true := by
  unfold isFraction at h
  split at h
  · rename_i rest
    rw [Bool.and_eq_true] at h
    rw [List.forall_mem_cons, ← List.takeWhile_append_dropWhile (p := Char.isDigit) (l := rest),
      List.forall_mem_append]
    exact ⟨rfl,
      fun c hmem => isNumberChar_of_isDigit (List.all_eq_true.1 List.all_takeWhile c hmem),
      isNumberChar_of_isExponent h.2⟩
  · exact isNumberChar_of_isExponent h

/-- A lexeme that stands for a value has digits first, apart from a sign. -/
theorem unsigned_of_atomOfNumber {lexeme : List Char} {v : Json}
    (h : atomOfNumber lexeme = some v) :
    (∃ d ds, unsigned lexeme = d :: ds ∧ d.isDigit = true) ∧
      ∀ c ∈ unsigned lexeme, isNumberChar c = true := by
  have hfirst : ∀ {ds : List Char}, ds ≠ [] → (∀ c ∈ ds, c.isDigit = true) →
      ∃ d rest, ds = d :: rest ∧ d.isDigit = true := by
    intro ds hsome hdigits
    obtain ⟨d, rest, rfl⟩ := List.exists_cons_of_ne_nil hsome
    exact ⟨d, rest, rfl, hdigits d (List.mem_cons_self ..)⟩
  simp only [atomOfNumber] at h
  split at h
  · -- an integer
    rename_i hwhole
    obtain ⟨hsome, hdigits⟩ := isDigit_of_isInteger hwhole
    exact ⟨hfirst hsome hdigits, fun c hmem => isNumberChar_of_isDigit (hdigits c hmem)⟩
  · split at h
    · -- an integer and a fraction
      rename_i hparts
      rw [Bool.and_eq_true] at hparts
      obtain ⟨hsome, hdigits⟩ := isDigit_of_isInteger hparts.1
      obtain ⟨d, rest, htaken, hdigit⟩ := hfirst hsome hdigits
      rw [← List.takeWhile_append_dropWhile (p := Char.isDigit) (l := unsigned lexeme)]
      refine ⟨⟨d, _, by rw [htaken]; rfl, hdigit⟩, List.forall_mem_append.2 ⟨?_, ?_⟩⟩
      · exact fun c hmem => isNumberChar_of_isDigit (hdigits c hmem)
      · exact isNumberChar_of_isFraction hparts.2
    · cases h

/-- A number is its digits, with or without a sign. -/
theorem eq_unsigned (lexeme : List Char) :
    lexeme = '-' :: unsigned lexeme ∨ lexeme = unsigned lexeme := by
  unfold unsigned
  split
  · exact .inl rfl
  · exact .inr rfl

/-- A lexeme that stands for a value begins as a number does. -/
theorem startsNumber_of_atomOfNumber {lexeme : List Char} {v : Json}
    (h : atomOfNumber lexeme = some v) :
    ∃ c cs, lexeme = c :: cs ∧ startsNumber c = true := by
  obtain ⟨⟨d, ds, hdigits, hdigit⟩, -⟩ := unsigned_of_atomOfNumber h
  rcases eq_unsigned lexeme with hsign | hnone
  · exact ⟨_, _, hsign, rfl⟩
  · exact ⟨d, ds, hnone.trans hdigits, by simp [startsNumber, hdigit]⟩

/-- And it goes on with the characters of one. -/
theorem isNumberChar_of_atomOfNumber {lexeme : List Char} {v : Json}
    (h : atomOfNumber lexeme = some v) : ∀ c ∈ lexeme, isNumberChar c = true := by
  obtain ⟨-, hchars⟩ := unsigned_of_atomOfNumber h
  rcases eq_unsigned lexeme with hsign | hnone
  · rw [hsign, List.forall_mem_cons]
    exact ⟨rfl, hchars⟩
  · rwa [hnone]

/-! ## Digits of an integer -/

/-- Only zero has a zero for its first digit. -/
theorem head_toDigits_ne_zero {n : Nat} (hpositive : 0 < n) :
    ∃ d ds, Nat.toDigits 10 n = d :: ds ∧ d ≠ '0' := by
  induction n using Nat.strongRecOn with
  | ind n ih =>
    by_cases hsmall : n < 10
    · have hfirst : ∀ k, k < 10 → 0 < k → Nat.digitChar k ≠ '0' := by decide
      exact ⟨_, _, Nat.toDigits_of_lt_base hsmall, hfirst n hsmall hpositive⟩
    · -- the first digit is that of the number without its last digit
      obtain ⟨d, ds, hdigits, hnonzero⟩ := ih (n / 10) (by omega) (by omega)
      rw [Nat.toDigits_of_base_le (by decide) (by omega), hdigits]
      exact ⟨d, _, rfl, hnonzero⟩

/-- The decimal digits of a number spell an integer. -/
theorem isInteger_toDigits (n : Nat) : isInteger (Nat.toDigits 10 n) = true := by
  have hdigits : ∀ c ∈ Nat.toDigits 10 n, c.isDigit = true := fun c =>
    Nat.isDigit_of_mem_toDigits (by decide) (by decide)
  rcases Nat.eq_zero_or_pos n with rfl | hpositive
  · rfl
  · obtain ⟨d, ds, heq, hnonzero⟩ := head_toDigits_ne_zero hpositive
    rw [heq] at hdigits ⊢
    rw [isInteger, Bool.and_eq_true, List.all_eq_true]
    · exact ⟨decide_eq_true hnonzero, hdigits⟩
    · exact fun hzero _ => hnonzero hzero

/-- The digits of a natural number have no sign. -/
theorem unsigned_toDigits (n : Nat) : unsigned (Nat.toDigits 10 n) = Nat.toDigits 10 n := by
  rcases eq_unsigned (Nat.toDigits 10 n) with hsign | hnone
  · -- no digit is a sign
    have hdigit : '-'.isDigit = true := Nat.isDigit_of_mem_toDigits (b := 10) (n := n) (by decide)
      (by decide) (hsign ▸ List.mem_cons_self ..)
    cases hdigit
  · exact hnone.symm

/-- The text of an integer stands for that integer. -/
theorem atomOfNumber_repr (i : Int) : atomOfNumber i.repr.toList = some (.int i) := by
  rw [Int.repr_eq_if]
  by_cases hnonneg : 0 ≤ i
  · rw [if_pos hnonneg, Nat.toList_repr, atomOfNumber, unsigned_toDigits]
    simp only [isInteger_toDigits, Nat.ofDigitChars_ten_toDigits, if_true]
    rw [Int.toNat_of_nonneg hnonneg]
  · have htext : ("-" ++ (-i).toNat.repr).toList = '-' :: Nat.toDigits 10 (-i).toNat := by
      rw [String.toList_append, Nat.toList_repr]
      rfl
    have hvalue : (-i).toNat ≠ 0 := by omega
    have hlength : (Nat.toDigits 10 (-i).toNat).length ≠
        ('-' :: Nat.toDigits 10 (-i).toNat).length := by simp
    rw [if_neg hnonneg, htext, atomOfNumber, unsigned]
    simp only [isInteger_toDigits, Nat.ofDigitChars_ten_toDigits, if_true, if_neg hlength,
      if_neg hvalue]
    congr
    omega

end ParseMarkup.Json
