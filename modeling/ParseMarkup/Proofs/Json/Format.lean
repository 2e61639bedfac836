import ParseMarkup.Json.Codec

/-!
# Formats that JSON values are kept in as texts

A format prints values and parses texts. How it does either is left open: a format is a parameter
of what follows, and what is asked of it is what formats are documented to do. A reader may refuse
texts that nest too deep, since it works recursively.

The module introduces:

* `Json.nesting` and `Json.fits`: how deep a value nests, and whether a limit allows that;
* `Json.Portable`: that all numbers in a value are such as every format can hold;
* `TextFormat`, and `TextFormat.Lawful`: a format, and the rules that it is documented to follow;
* `TextFormat.write` and `TextFormat.read?`: the text of a value of any stored type, and the value
  that a text is read as.
-/

namespace ParseMarkup

namespace Json

/-! ## Depth of a value -/

mutual

/-- How many arrays and objects are open at once, where most are. -/
def nesting : Json → Nat
  | null => 0
  | bool _ => 0
  | int _ => 0
  | decimal _ => 0
  | str _ => 0
  | arr items => nestingAll items + 1
  | obj members => nestingMembers members + 1

/-- The same over several values. -/
def nestingAll : List Json → Nat
  | [] => 0
  | j :: js => max j.nesting (nestingAll js)

/-- The same over the members of an object. -/
def nestingMembers : List (String × Json) → Nat
  | [] => 0
  | (_, j) :: rest => max j.nesting (nestingMembers rest)

end

/-- Several values nest no deeper than each of them may. -/
theorem nestingAll_le_iff {n : Nat} {js : List Json} :
    nestingAll js ≤ n ↔ ∀ j ∈ js, j.nesting ≤ n := by
  induction js with
  | nil => simp [nestingAll]
  | cons j js ih => rw [nestingAll, Nat.max_le, ih, List.forall_mem_cons]

/-- The members of an object nest no deeper than each of their values may. -/
theorem nestingMembers_le_iff {n : Nat} {members : List (String × Json)} :
    nestingMembers members ≤ n ↔ ∀ m ∈ members, m.2.nesting ≤ n := by
  induction members with
  | nil => simp [nestingMembers]
  | cons m rest ih => rw [nestingMembers, Nat.max_le, ih, List.forall_mem_cons]

/-- Whether a value nests less deep than `limit`; without a limit every value does. -/
def fits (limit : Option Nat) (j : Json) : Bool := limit.all fun most => j.nesting < most

/-- What nests no deeper than a value that fits, fits as well. -/
theorem fits_of_nesting_le {limit : Option Nat} {j j' : Json} (hle : j.nesting ≤ j'.nesting)
    (hfits : j'.fits limit = true) : j.fits limit = true := by
  cases limit with
  | none => rfl
  | some most => exact decide_eq_true (Nat.lt_of_le_of_lt hle (of_decide_eq_true hfits))

/-! ## Numbers of a value -/

mutual

/-- That the integers in a value have at most 64 bits, with or without sign, and that the spellings
of its other numbers are among those that a format `keeps`. -/
def Portable (keeps : String → Prop) : Json → Prop
  | null => True
  | bool _ => True
  | int i => Int64.minValue.toInt ≤ i ∧ i < UInt64.size
  | decimal lexeme => keeps lexeme
  | str _ => True
  | arr items => PortableAll keeps items
  | obj members => PortableMembers keeps members

/-- The same for several values. -/
def PortableAll (keeps : String → Prop) : List Json → Prop
  | [] => True
  | j :: js => j.Portable keeps ∧ PortableAll keeps js

/-- The same for the members of an object. -/
def PortableMembers (keeps : String → Prop) : List (String × Json) → Prop
  | [] => True
  | (_, j) :: rest => j.Portable keeps ∧ PortableMembers keeps rest

end

/-- Several values are portable if each is. -/
theorem portableAll_iff {keeps : String → Prop} {js : List Json} :
    PortableAll keeps js ↔ ∀ j ∈ js, j.Portable keeps := by
  induction js with
  | nil => simp [PortableAll]
  | cons j js ih => rw [PortableAll, ih, List.forall_mem_cons]

/-- The members of an object are portable if the value of each is. -/
theorem portableMembers_iff {keeps : String → Prop} {members : List (String × Json)} :
    PortableMembers keeps members ↔ ∀ m ∈ members, m.2.Portable keeps := by
  induction members with
  | nil => simp [PortableMembers]
  | cons m rest ih => rw [PortableMembers, ih, List.forall_mem_cons]

end Json

/-! ## Formats -/

/-- A way to print values as texts and to parse texts. The value of a text has its members in the
order in which they stand in the text. -/
structure TextFormat where
  /-- The text of a value. -/
  print : Json → String
  /-- The value of a text, if it has one that the format takes. -/
  parse? : String → Option Json
  /-- Which spellings of numbers with a fraction or an exponent the format leaves as they are. -/
  Keeps : String → Prop

namespace TextFormat

/-- What a format is documented to do, if it refuses texts that nest as deep as `limit`. -/
structure Lawful (f : TextFormat) (limit : Option Nat) : Prop where
  /-- A value that is not too deep is parsed from what was printed for it. -/
  parse?_print : ∀ {j : Json}, j.Portable f.Keeps → j.fits limit = true →
    f.parse? (f.print j) = some j
  /-- No value that is too deep is parsed from any text. -/
  fits_of_parse? : ∀ {text : String} {j : Json}, f.parse? text = some j → j.fits limit = true

variable {α : Type}

/-- The text of a stored value. -/
def write (f : TextFormat) (c : Codec α) (a : α) : String := f.print (c.encode a)

/-- The stored value that a text is read as, if it is read at all. -/
def read? (f : TextFormat) (c : Codec α) (text : String) : Option α := (f.parse? text).bind c.decode

end TextFormat

end ParseMarkup
