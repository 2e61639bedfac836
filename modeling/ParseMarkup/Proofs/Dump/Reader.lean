import ParseMarkup.Proofs.Dump.Memory
import ParseMarkup.Proofs.Xml.Reader

/-!
# Reading a document back into a tree

The document of a tree shows everything of it but the values themselves: of a location or a payload
there is its text. That much is read back from the document alone, so it decides which trees have
the same document.

The module introduces:

* `Node.displayed`: the tree with each location and payload replaced by its text;
* `Item.toNode?`: the tree that an element stands for;
* `readTree`: the tree that a document stands for.

The main statements: the document of a tree is a fixed front and the text of its element
(`Node.document_eq`), and the displayed tree is read back from it
(`Node.readTree_document_and_document_eq_iff`).
-/

namespace ParseMarkup

/-! ## Displayed trees -/

section Displayed

variable {L V : Type} [Display L] [Display V]

/-- A tree with each location and each payload replaced by the text it is displayed as. -/
def Node.displayed (t : Node L V) : Node String String := t.map displayText displayText

/-- The attributes of a production are those of the production with displayed values, since they
show displayed values only. -/
theorem Production.attrs_displayed (tag : String) (variant : Int32) (cs : List (Node L V)) :
    Production.attrs ⟨tag, variant, Node.mapAll displayText displayText cs⟩ =
      Production.attrs ⟨tag, variant, cs⟩ := by
  simp only [Production.attrs, Production.left?, Production.right?, leftmost_mapAll,
    rightmost_mapAll, attrOf?_map]

mutual

/-- A displayed tree is streamed as the same element. -/
theorem Node.item_displayed : ∀ t : Node L V, t.displayed.item = t.item
  | .terminal ⟨left, tag, value, right⟩ => by cases value <;> rfl
  | .error e => rfl
  | .nonterminal ⟨tag, variant, cs⟩ => by
    rw [displayed, map, item, item, Production.attrs_displayed, Node.items_displayed cs]

/-- The same for several trees. -/
theorem Node.items_displayed :
    ∀ cs : List (Node L V), Node.items (Node.mapAll displayText displayText cs) = Node.items cs
  | [] => rfl
  | c :: cs => by
    have hfirst := Node.item_displayed c
    rw [displayed] at hfirst
    rw [mapAll, items, items, hfirst, Node.items_displayed cs]

end

omit [Display V] in

/-- The names in the start tag of a production are words, whichever of its attributes there are. -/
theorem Production.all_isWord_tagNames (n : Production (Node L V)) :
    (Xml.tagNames "nonterminal" n.attrs).all Xml.isWord = true := by
  rw [Production.attrs]
  cases n.left? <;> cases n.right?
  · change ["nonterminal", "id", "variant"].all Xml.isWord = true
    decide
  · change ["nonterminal", "id", "variant", "right"].all Xml.isWord = true
    decide
  · change ["nonterminal", "id", "variant", "left"].all Xml.isWord = true
    decide
  · change ["nonterminal", "id", "variant", "left", "right"].all Xml.isWord = true
    decide

mutual

/-- The element of a tree is readable. -/
theorem Node.readable_item : ∀ t : Node L V, t.item.Readable
  | .terminal ⟨left, tag, value, right⟩ => by
    have hnames : ["terminal", "id", "left", "right"].all Xml.isWord = true := by decide
    cases value with
    | none => exact .holdingElements hnames (by simp)
    | some v => exact .holdingText _ hnames
  | .error e => by
    have hnames : ["error", "left", "right"].all Xml.isWord = true := by decide
    exact .holdingElements hnames (by simp)
  | .nonterminal ⟨tag, variant, cs⟩ => by
    rw [item]
    exact .holdingElements (Production.all_isWord_tagNames _) (Node.readable_items cs)

/-- The same for several trees. -/
theorem Node.readable_items : ∀ cs : List (Node L V), ∀ i ∈ Node.items cs, i.Readable
  | [], i, hmem => by cases hmem
  | c :: cs, i, hmem => by
    rcases List.mem_cons.1 hmem with rfl | hmem
    · exact Node.readable_item c
    · exact Node.readable_items cs i hmem

end

end Displayed

/-! ## Trees from elements -/

/-- A variant, from its decimal digits. -/
def readVariant : List Char → Int32
  | '-' :: digits => Int32.ofInt (-(Nat.ofDigitChars 10 digits 0 : Nat))
  | digits => Int32.ofInt (Nat.ofDigitChars 10 digits 0 : Nat)

/-- The digits of a natural number are read as this number, wrapped to 32 bits. -/
theorem readVariant_toDigits (n : Nat) :
    readVariant (Nat.toDigits 10 n) = Int32.ofInt (n : Int) := by
  have hdigits : ∀ c ∈ Nat.toDigits 10 n, c.isDigit = true := fun c hmem =>
    Nat.isDigit_of_mem_toDigits (by decide) (by decide) hmem
  unfold readVariant
  split
  · -- no digit is a minus sign
    rename_i heq
    have hminus := hdigits '-' (heq ▸ List.mem_cons_self ..)
    cases hminus
  · rw [Nat.ofDigitChars_ten_toDigits]

/-- A variant is displayed as digits, after a sign if it is negative. -/
theorem isDigit_of_mem_displayText_variant {i : Int32} {c : Char}
    (h : c ∈ (displayText i).toList) : c = '-' ∨ c.isDigit = true := by
  have hdigits : ∀ n : Nat, c ∈ n.repr.toList → c.isDigit = true := by
    intro n hmem
    rw [Nat.toList_repr] at hmem
    exact Nat.isDigit_of_mem_toDigits (by decide) (by decide) hmem
  have hshown : displayText i = i.toInt.repr := rfl
  rw [hshown, Int.repr_eq_if] at h
  split at h
  · exact .inr (hdigits _ h)
  · rw [String.toList_append] at h
    rcases List.mem_append.1 h with hsign | hnumber
    · exact .inl (List.mem_singleton.1 hsign)
    · exact .inr (hdigits _ hnumber)

/-- A variant is read back from the text it is displayed as. -/
theorem readVariant_displayText (i : Int32) : readVariant (displayText i).toList = i := by
  have hshown : displayText i = i.toInt.repr := rfl
  rw [hshown, Int.repr_eq_if]
  by_cases hnonneg : 0 ≤ i.toInt
  · rw [if_pos hnonneg, Nat.toList_repr, readVariant_toDigits, Int.toNat_of_nonneg hnonneg,
      Int32.ofInt_toInt]
  · have hpositive : 0 ≤ -i.toInt := by omega
    have htext : ("-" ++ (-i.toInt).toNat.repr).toList =
        '-' :: Nat.toDigits 10 (-i.toInt).toNat := by
      rw [String.toList_append, Nat.toList_repr]
      rfl
    rw [if_neg hnonneg, htext, readVariant, Nat.ofDigitChars_ten_toDigits,
      Int.toNat_of_nonneg hpositive, Int.neg_neg, Int32.ofInt_toInt]

mutual

/-- The tree that an element stands for, if it stands for one. -/
def Item.toNode? : Item → Option (Node String String)
  | .element "terminal" [("id", tag), ("left", left), ("right", right)] [] =>
    some (.terminal ⟨left, tag, none, right⟩)
  | .element "terminal" [("id", tag), ("left", left), ("right", right)] [.text value] =>
    some (.terminal ⟨left, tag, some value, right⟩)
  | .element "error" [("left", left), ("right", right)] [] => some (.error ⟨left, right⟩)
  -- the endpoints of a production follow from its children and are not read
  | .element "nonterminal" (("id", tag) :: ("variant", variant) :: _) content =>
    (Item.toNodes? content).map fun children =>
      .nonterminal ⟨tag, readVariant variant.toList, children⟩
  | _ => none

/-- The trees that several elements stand for. -/
def Item.toNodes? : List Item → Option (List (Node String String))
  | [] => some []
  | i :: is =>
    (Item.toNode? i).bind fun c => (Item.toNodes? is).map fun cs => c :: cs

end

mutual

/-- A tree of texts is read from its element. -/
theorem Node.toNode?_item : ∀ t : Node String String, t.item.toNode? = some t
  | .terminal ⟨left, tag, value, right⟩ => by
    cases value <;> rfl
  | .error e => rfl
  | .nonterminal ⟨tag, variant, cs⟩ => by
    change (Item.element "nonterminal" (("id", tag) :: ("variant", displayText variant) :: _)
      (items cs)).toNode? = _
    rw [Item.toNode?, Node.toNodes?_items cs, readVariant_displayText]
    rfl

/-- The same for several trees. -/
theorem Node.toNodes?_items : ∀ cs : List (Node String String),
    Item.toNodes? (Node.items cs) = some cs
  | [] => rfl
  | c :: cs => by
    rw [items, Item.toNodes?, Node.toNode?_item c, Node.toNodes?_items cs]
    rfl

end

/-! ## Trees from documents -/

/-- The displayed tree that a document stands for, if it stands for one. -/
def readTree (document : String) : Option (Node String String) :=
  match ((Xml.scan document.toList).map Xml.eventsOf).bind Item.ofEvents with
  | some [i] => i.toNode?
  | _ => none

section Displayed

variable {L V L' V' : Type} [Display L] [Display V] [Display L'] [Display V']

/-- The displayed tree is read back from the document. -/
theorem Node.readTree_front_append_xml (t : Node L V) :
    readTree (documentFront .default ++ t.item.xml) = some t.displayed := by
  have hfront : Xml.scan (documentFront .default).toList = some (List.replicate 2 .other) := by
    decide
  have hforest : ((Xml.scan (documentFront .default ++ t.item.xml).toList).map Xml.eventsOf).bind
      Item.ofEvents = some [t.item] := by
    rw [String.toList_append, Xml.eventsOf_scan hfront t.readable_item, Option.bind_some,
      Item.ofEvents_events]
  rw [readTree, hforest]
  change t.item.toNode? = _
  rw [← t.item_displayed, toNode?_item]

/-- Nothing that is displayed is lost in a document: there is one for every tree, and the displayed
tree is read back from it. So two trees have the same document if and only if they are displayed
alike. -/
theorem Node.readTree_document_and_document_eq_iff :
    (∀ t : Node L V, ∃ text, t.document = .ok text ∧ readTree text = some t.displayed) ∧
    ∀ (t : Node L V) (t' : Node L' V'), t.document = t'.document ↔ t.displayed = t'.displayed := by
  refine ⟨fun t => ⟨_, t.document_eq, t.readTree_front_append_xml⟩, fun t t' => ⟨?_, ?_⟩⟩
  · -- both displayed trees are read from the same text
    intro hsame
    rw [document_eq, document_eq, Except.ok.injEq] at hsame
    have hread := t.readTree_front_append_xml
    rw [hsame, t'.readTree_front_append_xml] at hread
    exact (Option.some.inj hread).symm
  · -- a document depends on nothing that is not displayed
    intro hsame
    rw [document_eq, document_eq, ← t.item_displayed, hsame, t'.item_displayed]

end Displayed

end ParseMarkup
