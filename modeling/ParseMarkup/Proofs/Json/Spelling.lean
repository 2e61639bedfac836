import ParseMarkup.Json.Codec
import ParseMarkup.Tree.Basic
import ParseMarkup.Proofs.Json.Fields

/-!
# What stands for a stored value

A value is written in one form and read from many: a structure from an object whose fields stand
in any order, with other members between them and without the optional fields that are absent, or
from an array of its fields. Each structure in a value may be spelled in its own way; the object
that names the kind of a node may not. What may stand for a value is said here field by field,
without any codec.

The module introduces:

* `Spelling`: a type with the JSON values that stand for each of its values, for texts, integers,
  locations and the three kinds of node;
* `Json.Field.required` and `Json.Field.optional`: the two ways in which a field stands for a value;
* `Node.Spells`: what may stand for a node, by recursion on the tree.
-/

namespace ParseMarkup

/-! ## Types with spellings -/

/-- A type with the JSON values that stand for each of its values. -/
class Spelling (α : Type) where
  /-- That a JSON value stands for `a`. -/
  Spells : α → Json → Prop

namespace Spelling

instance : Spelling String := ⟨fun s j => j = .str s⟩

instance : Spelling UInt32 := ⟨fun n j => j = .int n.toNat⟩

instance : Spelling UInt64 := ⟨fun n j => j = .int n.toNat⟩

instance : Spelling Int32 := ⟨fun i j => j = .int i.toInt⟩

instance : Spelling Int64 := ⟨fun i j => j = .int i.toInt⟩

end Spelling

namespace Json.Field

variable {α : Type} [Spelling α]

/-- A field with the value `a`. -/
def required (name : String) (a : α) : Field where
  name
  Takes := Spelling.Spells a
  Omissible := False

/-- A field that has no value where `a?` is `none`; then it is `null` or missing. -/
def optional (name : String) (a? : Option α) : Field where
  name
  Takes j := a?.elim (j = .null) (Spelling.Spells · j)
  Omissible := a? = none

end Json.Field

open Json Json.Field

/-- The fields of a location. -/
def SourceLocation.fields (loc : SourceLocation) : List Field :=
  [optional "unit" loc.unit, required "line" loc.line, required "column" loc.column,
    required "offset" loc.offset]

instance : Spelling SourceLocation := ⟨fun loc => SpellsFields loc.fields⟩

variable {L V : Type} [Spelling L] [Spelling V]

/-- The fields of a token. -/
def Terminal.fields (t : Terminal L V) : List Field :=
  [required "left" t.left, required "tag" t.tag, optional "value" t.value,
    required "right" t.right]

instance : Spelling (Terminal L V) := ⟨fun t => SpellsFields t.fields⟩

/-- The fields of an error leaf. -/
def ErrorNode.fields (e : ErrorNode L) : List Field :=
  [required "left" e.left, required "right" e.right]

instance : Spelling (ErrorNode L) := ⟨fun e => SpellsFields e.fields⟩

/-- The fields of a production with the tag `tag` and the variant `variant`, where `Children` says
which arrays stand for the children. -/
def Production.fieldsWith (tag : String) (variant : Int32) (Children : List Json → Prop) :
    List Field :=
  [required "tag" tag, required "variant" variant,
    ⟨"children", fun j => ∃ items, j = .arr items ∧ Children items, False⟩]

mutual

/-- What may stand for a node: an object whose one member tells the kind of node, with what may
stand for the fields of that kind. The object of a kind has no room for other members. -/
def Node.Spells : Node L V → Json → Prop
  | .terminal t, j => ∃ body, j = .obj [("Terminal", body)] ∧ Spelling.Spells t body
  | .error e, j => ∃ body, j = .obj [("Error", body)] ∧ Spelling.Spells e body
  | .nonterminal ⟨tag, variant, cs⟩, j =>
    ∃ body, j = .obj [("NonTerminal", body)] ∧
      SpellsFields (Production.fieldsWith tag variant (Node.SpellsAll cs)) body

/-- What may stand for several nodes. -/
def Node.SpellsAll : List (Node L V) → List Json → Prop
  | [], js => js = []
  | c :: cs, js => ∃ j rest, js = j :: rest ∧ c.Spells j ∧ Node.SpellsAll cs rest

end

instance : Spelling (Node L V) := ⟨Node.Spells⟩

/-- The fields of a production. -/
def Production.fields (n : Production (Node L V)) : List Field :=
  fieldsWith n.tag n.variant (Node.SpellsAll n.children)

instance : Spelling (Production (Node L V)) := ⟨fun n => SpellsFields n.fields⟩

/-- The member that tells the kind of a node and holds the rest of it. -/
def Node.kindField : Node L V → Field
  | .terminal t => required "Terminal" t
  | .error e => required "Error" e
  | .nonterminal n => required "NonTerminal" n

/-- What stands for a node is an object with only that member. -/
theorem Node.spells_iff (t : Node L V) (j : Json) :
    t.Spells j ↔ ∃ body, j = .obj [(t.kindField.name, body)] ∧ t.kindField.Takes body := by
  cases t with
  | nonterminal n =>
    obtain ⟨tag, variant, cs⟩ := n
    rw [Spells]
    exact Iff.rfl
  | _ =>
    rw [Spells]
    exact Iff.rfl

/-- Several nodes are spelled one by one. -/
theorem Node.spellsAll_iff {cs : List (Node L V)} {js : List Json} :
    SpellsAll cs js ↔ List.Forall₂ Spells cs js := by
  induction cs generalizing js with
  | nil => rw [SpellsAll, List.forall₂_nil_left_iff]
  | cons d cs ih =>
    rw [SpellsAll, List.forall₂_cons_left_iff]
    simp only [ih]
    grind

end ParseMarkup
