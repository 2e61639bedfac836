import ParseMarkup.Location

/-!
# Reading a location back from its text

The unit of a location may be any text, and it comes before the numbers, so it may contain all that
separates them. The text is therefore read from its end: a closing bracket, the offset, an opening
bracket, the column, a slash, the line. The digits of each number end at the mark before it. What is
left is nothing if there is no unit, and the unit and a colon otherwise.

The module introduces `SourceLocation.ofText?`, the location that a text stands for. The main
statement is `SourceLocation.ofText?_displayText_and_eq_iff`: each location is read back from its
text, so no two locations are displayed alike.
-/

namespace ParseMarkup.SourceLocation

/-! ## Reading from the end -/

/-- The number that stands before `mark`, which must come first, and what is before its digits. The
text is given last character first. -/
def numberBefore? (mark : Char) : List Char → Option (UInt64 × List Char)
  | [] => none
  | c :: cs =>
    if c = mark then
      some (.ofNat (Nat.ofDigitChars 10 (cs.takeWhile Char.isDigit).reverse 0),
        cs.dropWhile Char.isDigit)
    else none

/-- The location that a text stands for, if it stands for one. -/
def ofText? (text : String) : Option SourceLocation := do
  let (offset, rest) ← numberBefore? ')' text.toList.reverse
  let (column, rest) ← numberBefore? '(' rest
  let (line, rest) ← numberBefore? '/' rest
  match rest with
  | [] => some (ofPosition line column offset)
  | ':' :: name => some ((ofPosition line column offset).inUnit (String.ofList name.reverse))
  | _ => none

/-! ## The text from the end -/

/-- The digits of a number, last digit first. -/
def digitsBack (n : UInt64) : List Char := (Nat.toDigits 10 n.toNat).reverse

/-- What stands before the line number, last character first. -/
def unitBack : Option String → List Char
  | none => []
  | some name => ':' :: name.toList.reverse

/-- A number is written in digits only, so its end can be found. -/
theorem isDigit_of_mem_digitsBack {n : UInt64} {c : Char} (h : c ∈ digitsBack n) :
    c.isDigit = true :=
  Nat.isDigit_of_mem_toDigits (by decide) (by decide) (List.mem_reverse.1 h)

/-- A number is read up to the mark before its digits. -/
theorem numberBefore?_digitsBack (mark : Char) (n : UInt64) (rest : List Char)
    (h : ∀ c ∈ rest.head?, c.isDigit = false) :
    numberBefore? mark (mark :: (digitsBack n ++ rest)) = some (n, rest) := by
  have hall := fun c => isDigit_of_mem_digitsBack (n := n) (c := c)
  -- the rest is empty or begins with a character that ends the digits
  have hstops : rest.takeWhile Char.isDigit = [] ∧ rest.dropWhile Char.isDigit = rest := by
    cases rest with
    | nil => exact ⟨rfl, rfl⟩
    | cons c cs =>
      have hhead : c.isDigit = false := h c rfl
      simp [hhead]
  rw [numberBefore?, if_pos rfl, List.takeWhile_append_of_pos hall, hstops.1,
    List.dropWhile_append_of_pos hall, hstops.2, List.append_nil, digitsBack, List.reverse_reverse,
    Nat.ofDigitChars_ten_toDigits, UInt64.ofNat_toNat]

/-- The text of a location, last character first. -/
theorem reverse_toList_text (loc : SourceLocation) :
    loc.text.toList.reverse =
      ')' :: (digitsBack loc.offset ++ '(' :: (digitsBack loc.column ++
        '/' :: (digitsBack loc.line ++ unitBack loc.unit))) := by
  have hposition : loc.positionText.toList =
      Nat.toDigits 10 loc.line.toNat ++ '/' :: (Nat.toDigits 10 loc.column.toNat ++
        '(' :: (Nat.toDigits 10 loc.offset.toNat ++ [')'])) := by
    simp [positionText, Nat.toList_repr]
  rw [text]
  cases loc.unit with
  | none => simp [hposition, digitsBack, unitBack]
  | some name => simp [hposition, digitsBack, unitBack]

/-- A colon, or nothing, ends the digits of the line. -/
theorem isDigit_head_unitBack (unit : Option String) :
    ∀ c ∈ (unitBack unit).head?, c.isDigit = false := by
  intro c hhead
  cases unit with
  | none => cases hhead
  | some name =>
    obtain rfl : ':' = c := Option.some.inj hhead
    rfl

/-! ## Reading back -/

/-- A location is read back from its text. -/
theorem ofText?_text (loc : SourceLocation) : ofText? loc.text = some loc := by
  have hoffset := numberBefore?_digitsBack ')' loc.offset
    ('(' :: (digitsBack loc.column ++ '/' :: (digitsBack loc.line ++ unitBack loc.unit)))
    (by simp)
  have hcolumn := numberBefore?_digitsBack '(' loc.column
    ('/' :: (digitsBack loc.line ++ unitBack loc.unit)) (by simp)
  have hline := numberBefore?_digitsBack '/' loc.line _ (isDigit_head_unitBack loc.unit)
  simp only [ofText?, reverse_toList_text, hoffset, hcolumn, hline, Option.bind_eq_bind,
    Option.bind_some]
  -- only now does it matter whether there is a unit
  obtain ⟨unit, line, column, offset⟩ := loc
  cases unit with
  | none => rfl
  | some name =>
    change some (inUnit _ (String.ofList name.toList.reverse.reverse)) = _
    rw [List.reverse_reverse, String.ofList_toList]
    rfl

/-- The displayed text of a location is unambiguous. The location is read back from it, whatever
text its unit is, so two locations are displayed alike if and only if they are equal: also a
location without a unit and one whose unit is the empty text. -/
theorem ofText?_displayText_and_eq_iff :
    (∀ loc : SourceLocation, ofText? (displayText loc) = some loc) ∧
      ∀ a b : SourceLocation, displayText a = displayText b ↔ a = b := by
  refine ⟨ofText?_text, fun a b => ⟨?_, ?_⟩⟩
  · intro hsame
    have hread : ofText? (displayText a) = some a := ofText?_text a
    rw [hsame] at hread
    exact Option.some.inj (hread.symm.trans (ofText?_text b))
  · intro hsame
    rw [hsame]

example : ofText? "a:1/0(0):3/7(42)" = some ((ofPosition 3 7 42).inUnit "a:1/0(0)") := by
  decide +kernel

end ParseMarkup.SourceLocation
