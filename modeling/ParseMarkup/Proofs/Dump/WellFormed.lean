import ParseMarkup.Proofs.Dump.Discipline
import ParseMarkup.Proofs.Dump.Reader
import ParseMarkup.Proofs.Xml.Grammar

/-!
# Well-formed documents

The document of a tree has the structure that XML asks for whatever the tree displays, since what
could end a text or a value early is escaped. Escaping is all that is done to a text, and there are
characters that a document may not hold in any form: these are passed on, so a document is
well-formed exactly if no text that its tree displays has one of them.

The module introduces `Node.displayedTexts`, the texts that a tree displays. The main statement is
`Node.document_wellFormed_iff`.
-/

namespace ParseMarkup

open Xml (Legal)

variable {L V : Type} [Display L] [Display V]

namespace Node

/-! ## Displayed texts -/

mutual

/-- The tags of a tree, in pre-order. -/
def tags : Node L V → List String
  | terminal t => [t.tag]
  | error _ => []
  | nonterminal ⟨tag, _, cs⟩ => tag :: tagsAll cs

/-- The tags of several trees, tree after tree. -/
def tagsAll : List (Node L V) → List String
  | [] => []
  | c :: cs => tags c ++ tagsAll cs

end

/-- The texts that a tree displays: its tags, its locations and its values. -/
def displayedTexts (t : Node L V) : List String := t.tags ++ t.displays.map Displayed.text

/-- What holds of all texts of a tree holds of its tags and of its displayed values. -/
theorem forall_mem_displayedTexts {t : Node L V} {P : String → Prop} :
    (∀ s ∈ t.displayedTexts, P s) ↔ (∀ s ∈ t.tags, P s) ∧ ∀ d ∈ t.displays, P d.text := by
  rw [displayedTexts, List.forall_mem_append, List.forall_mem_map]

/-! ## Legal characters -/

omit [Display L] [Display V] in
/-- A variant is displayed with a sign and digits. -/
theorem legal_displayText_variant (i : Int32) : Legal (displayText i) := by
  intro c hmem
  rcases isDigit_of_mem_displayText_variant hmem with rfl | hdigit
  · decide
  · exact Xml.isChar_of_isDigit hdigit

omit [Display V] in

/-- An attribute that may be left out is legal if its value is, when there is one. -/
theorem legal_attrOf? {name : String} {a : Option L}
    (h : ∀ l, a = some l → Legal (display l).text) : ∀ b ∈ attrOf? name a, Legal b.2 := by
  cases a with
  | none => exact fun b hmem => absurd hmem List.not_mem_nil
  | some l => exact List.forall_mem_singleton.2 (h l rfl)

/-- The attributes of a production are its tag, its variant and endpoints that are displayed below
it. -/
theorem legal_attrs_production (tag : String) (variant : Int32) {cs : List (Node L V)}
    (hbelow : ∀ d ∈ displaysAll cs, Legal d.text) :
    (∀ a ∈ Production.attrs ⟨tag, variant, cs⟩, Legal a.2) ↔ Legal tag := by
  have hleft : ∀ a ∈ attrOf? "left" (leftmost cs), Legal a.2 :=
    legal_attrOf? fun l hfound => hbelow _ (display_mem_of_leftmost hfound)
  have hright : ∀ a ∈ attrOf? "right" (rightmost cs), Legal a.2 :=
    legal_attrOf? fun l hfound => hbelow _ (display_mem_of_rightmost hfound)
  have hown : (∀ a ∈ [("id", tag), ("variant", displayText variant)], Legal a.2) ↔ Legal tag := by
    simp [legal_displayText_variant]
  rw [Production.attrs, List.forall_mem_append, List.forall_mem_append, hown]
  exact ⟨fun h => h.1.1, fun h => ⟨⟨h, hleft⟩, hright⟩⟩

omit [Display V] in

/-- The names in the start tag of any node are words: they come from the program, not from the
tree. -/
theorem all_isWord_tagNames (t : Node L V) :
    (Xml.tagNames t.elementName t.attrs).all Xml.isWord = true := by
  cases t with
  | terminal t =>
    change ["terminal", "id", "left", "right"].all Xml.isWord = true
    decide
  | error e =>
    change ["error", "left", "right"].all Xml.isWord = true
    decide
  | nonterminal n => exact n.all_isWord_tagNames

mutual

/-- The text of a tree has legal characters exactly if all that it displays has. -/
theorem legal_item_xml : ∀ t : Node L V,
    Legal t.item.xml ↔ (∀ s ∈ t.tags, Legal s) ∧ ∀ d ∈ t.displays, Legal d.text
  | terminal ⟨left, tag, value, right⟩ => by
    have hcontent : Legal (Item.xmlAll (value.elim [] fun v => [.text (displayText v)])) ↔
        ∀ d ∈ (value.map display).toList, Legal d.text := by
      cases value with
      | none => simp [Item.xmlAll, Xml.legal_empty]
      | some v => simp [Item.xmlAll, Item.xml, Xml.legal_escape, displayText]
    refine (Xml.legal_element_xml
      (all_isWord_tagNames (terminal ⟨left, tag, value, right⟩))).trans ?_
    rw [hcontent]
    simp [attrs, tags, displays, displayText, and_assoc]
  | error e => by
    refine (Xml.legal_element_xml (all_isWord_tagNames (error e : Node L V))).trans ?_
    simp [attrs, Item.xmlAll, tags, displays, displayText, Xml.legal_empty]
  | nonterminal ⟨tag, variant, cs⟩ => by
    rw [item, Xml.legal_element_xml (Production.all_isWord_tagNames _), legal_items_xml cs, tags,
      displays, List.forall_mem_cons, and_assoc]
    -- what is displayed below a production settles its endpoints too
    exact and_congr_left fun hbelow => legal_attrs_production tag variant hbelow.2

/-- The same for several trees. -/
theorem legal_items_xml : ∀ cs : List (Node L V), Legal (Item.xmlAll (items cs)) ↔
    (∀ s ∈ tagsAll cs, Legal s) ∧ ∀ d ∈ displaysAll cs, Legal d.text
  | [] => by simp [items, Item.xmlAll, tagsAll, displaysAll, Xml.legal_empty]
  | c :: cs => by
    rw [items, Item.xmlAll, Xml.legal_append, legal_item_xml c, legal_items_xml cs, tagsAll,
      displaysAll, List.forall_mem_append, List.forall_mem_append, and_and_and_comm]

end

/-! ## Structure -/

mutual

/-- The text of a tree is an element. -/
theorem element_item_xml : ∀ t : Node L V, Xml.Element t.item.xml.toList
  | terminal t => by
    refine Xml.element_xml (all_isWord_tagNames (terminal t)) (nodup_attrs (terminal t)) ?_
    cases t.value with
    | none => exact .text Xml.charData_nil
    | some v =>
      simp only [Option.elim, Item.xmlAll, Item.xml, String.append_empty]
      exact .text (Xml.charData_escape _)
  | error e =>
    Xml.element_xml (all_isWord_tagNames (error e : Node L V)) (nodup_attrs (error e : Node L V))
      (.text Xml.charData_nil)
  | nonterminal ⟨tag, variant, cs⟩ => by
    rw [item]
    exact Xml.element_xml (Production.all_isWord_tagNames _)
      (nodup_attrs (nonterminal ⟨tag, variant, cs⟩)) (content_items_xml cs)

/-- The same for several trees, which stand one after the other with nothing between them. -/
theorem content_items_xml : ∀ cs : List (Node L V),
    Xml.Content (Item.xmlAll (items cs)).toList
  | [] => .text Xml.charData_nil
  | c :: cs => by
    rw [items, Item.xmlAll, String.toList_append]
    exact .element Xml.charData_nil (element_item_xml c) (content_items_xml cs)

end

/-! ## Documents -/

/-- The front of a document and its root have the structure of a document. -/
theorem document_front_append_xml (t : Node L V) :
    Xml.Document (documentFront .default ++ t.item.xml).toList := by
  have hfront : (documentFront .default).toList = "<?xml version=\"1.0\"?>".toList ++
      ("<?".toList ++ ("xml-stylesheet".toList ++ ' ' ::
        ("href=\"tree.xsl\" type=\"text/xsl\"".toList ++ "?>".toList))) := by
    decide
  -- a processing instruction may not be named `xml` in any case: the lengths tell the two apart
  have htarget : "xml-stylesheet".toList.map Char.toLower ≠ "xml".toList := by
    intro hsame
    have hlengths := congrArg List.length hsame
    revert hlengths
    decide
  have hdata : ¬ "?>".toList <:+: "href=\"tree.xsl\" type=\"text/xsl\"".toList := by
    intro hends
    have hmark : '?' ∈ "href=\"tree.xsl\" type=\"text/xsl\"".toList := hends.subset (by decide)
    revert hmark
    decide
  refine ⟨_, _, t.item.xml.toList, ?_, by decide, htarget, hdata, t.element_item_xml⟩
  rw [String.toList_append, hfront]
  simp only [List.append_assoc, List.cons_append]

/-- Every tree has a document, and whatever it displays, the document has the structure that XML
asks for. It is well-formed if every text that the tree displays has legal characters, and only
then. -/
theorem document_wellFormed_iff (t : Node L V) :
    ∃ text, t.document = .ok text ∧ Xml.Document text.toList ∧
      (Xml.WellFormed text.toList ↔ ∀ s ∈ t.displayedTexts, Legal s) := by
  have hdocument := t.document_front_append_xml
  refine ⟨_, t.document_eq, hdocument, ?_⟩
  rw [forall_mem_displayedTexts, ← t.legal_item_xml]
  constructor
  · intro hwellFormed
    exact (Xml.legal_append.1 hwellFormed.legal).2
  · intro hlegal
    have hfront : Legal (documentFront .default) := by decide
    exact ⟨hdocument, Xml.legal_append.2 ⟨hfront, hlegal⟩⟩

/-- A control character in the value of a token is in the document as it is. -/
theorem exists_not_isChar_document_of_control :
    ∃ text, (terminal ⟨"0", "a", some "\x01", "1"⟩ : Node String String).document = .ok text ∧
      ∃ c ∈ text.toList, ¬ Xml.IsChar c := by
  refine ⟨_, document_eq _, '\x01', ?_, by decide⟩
  rw [String.toList_append]
  exact List.mem_append_right _ (by decide)

end Node

end ParseMarkup
