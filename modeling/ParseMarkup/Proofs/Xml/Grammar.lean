import ParseMarkup.Proofs.Xml.Reader

/-!
# The grammar of XML documents

What makes a text a well-formed XML document, and which items are written as one. The grammar is
the part of that of XML 1.0 that is needed here: names are of ASCII characters, a single blank
stands before an attribute, values are between double quotes, and there are no comments, character
references or declarations of types. Every text that it admits is admitted by the whole grammar, if
its characters are legal.

The module introduces:

* `Xml.IsChar`: the characters that a document may hold;
* `Xml.Escaped`, `Xml.CharData` and `Xml.Attributes`: character data and the inside of a tag;
* `Xml.Element` and `Xml.Content`: elements, and what stands between their tags;
* `Xml.Document` and `Xml.WellFormed`: documents, with legal characters.

The main statements are `Xml.escape_eq_flatMap_and_unescape_escape`, what escaping does to any text,
`Xml.element_xml`, that an element with proper names is written as the grammar asks whatever its
values are, and `Xml.legal_element_xml`, that writing it adds no character that is not legal and
hides none.
-/

namespace ParseMarkup.Xml

/-! ## Characters and names -/

/-- The characters that a document may hold. -/
def IsChar (c : Char) : Prop :=
  c = '\t' ∨ c = '\n' ∨ c = '\r' ∨ (0x20 ≤ c.toNat ∧ c.toNat ≤ 0xD7FF) ∨
    (0xE000 ≤ c.toNat ∧ c.toNat ≤ 0xFFFD) ∨ (0x10000 ≤ c.toNat ∧ c.toNat ≤ 0x10FFFF)

instance : DecidablePred IsChar := fun _ =>
  inferInstanceAs (Decidable (_ ∨ _ ∨ _ ∨ (_ ∧ _) ∨ (_ ∧ _) ∨ (_ ∧ _)))

/-- A text of legal characters. -/
def Legal (s : String) : Prop := ∀ c ∈ s.toList, IsChar c

instance : DecidablePred Legal := fun s => List.decidableBAll IsChar s.toList

/-- Whether a name may begin with a character. -/
def isNameStart (c : Char) : Bool := c.isAlpha || c = '_' || c = ':'

/-- Whether a name may go on with a character. -/
def isNamePart (c : Char) : Bool := isNameStart c || c.isDigit || c = '-' || c = '.'

/-- Whether a text is a name. -/
def isName : List Char → Bool
  | [] => false
  | c :: cs => isNameStart c && cs.all isNamePart

/-! ## Texts -/

/-- The entities that are known without a declaration. -/
def entityNames : List String := ["amp", "lt", "gt", "quot", "apos"]

/-- A text in which an ampersand begins an entity, and some characters do not stand for
themselves. -/
inductive Escaped (excluded : List Char) : List Char → Prop
  | nil : Escaped excluded []
  | char {c : Char} {cs : List Char} (hnotAmp : c ≠ '&') (hnotExcluded : c ∉ excluded)
      (hrest : Escaped excluded cs) : Escaped excluded (c :: cs)
  | entity {name : String} {cs : List Char} (hknown : name ∈ entityNames)
      (hrest : Escaped excluded cs) : Escaped excluded ('&' :: (name.toList ++ ';' :: cs))

/-- Character data between tags. It may not hold what ends a section of plain data. -/
structure CharData (cs : List Char) : Prop where
  escaped : Escaped ['<'] cs
  noSectionEnd : ¬ "]]>".toList <:+: cs

/-- The attributes of a start tag, whose names are all different, as they are written. -/
inductive Attributes : List (List Char) → List Char → Prop
  | nil : Attributes [] []
  | cons {name value rest : List Char} {names : List (List Char)} (hname : isName name = true)
      (hescaped : Escaped ['<', '"'] value) (hfresh : name ∉ names)
      (hothers : Attributes names rest) :
      Attributes (name :: names) (' ' :: (name ++ '=' :: '"' :: (value ++ '"' :: rest)))

/-! ## Elements -/

mutual

/-- An element: its tag closes itself, or there are two tags of one name around its content. -/
inductive Element : List Char → Prop
  | empty {name attrs : List Char} {names : List (List Char)} (hname : isName name = true)
      (hattributes : Attributes names attrs) : Element ('<' :: (name ++ (attrs ++ ['/', '>'])))
  | holding {name attrs content : List Char} {names : List (List Char)}
      (hname : isName name = true) (hattributes : Attributes names attrs)
      (hinner : Content content) :
      Element ('<' :: (name ++ (attrs ++ '>' :: (content ++ '<' :: '/' :: (name ++ ['>'])))))

/-- Elements with character data before, between and after them. -/
inductive Content : List Char → Prop
  | text {cs : List Char} (hdata : CharData cs) : Content cs
  | element {cs inner rest : List Char} (hdata : CharData cs) (helement : Element inner)
      (hothers : Content rest) : Content (cs ++ (inner ++ rest))

end

/-- A document: the declaration, one processing instruction and one element. -/
def Document (cs : List Char) : Prop :=
  ∃ target data root, cs = "<?xml version=\"1.0\"?>".toList ++
      ("<?".toList ++ (target ++ ' ' :: (data ++ ("?>".toList ++ root)))) ∧
    isName target = true ∧ target.map Char.toLower ≠ "xml".toList ∧ ¬ "?>".toList <:+: data ∧
    Element root

/-- A document with legal characters. -/
structure WellFormed (cs : List Char) : Prop where
  document : Document cs
  legal : ∀ c ∈ cs, IsChar c

/-! ## Escaped texts -/

/-- An escaped character in front keeps a text escaped: it is an entity or an ordinary
character. -/
theorem escaped_escapeChar_append {excluded : List Char} (h : excluded ⊆ specialChars) (c : Char)
    {cs : List Char} (hrest : Escaped excluded cs) : Escaped excluded (escapeChar c ++ cs) := by
  cases c using special_cases with
  | amp => exact .entity (show "amp" ∈ entityNames by decide) hrest
  | lt => exact .entity (show "lt" ∈ entityNames by decide) hrest
  | gt => exact .entity (show "gt" ∈ entityNames by decide) hrest
  | quot => exact .entity (show "quot" ∈ entityNames by decide) hrest
  | apos => exact .entity (show "apos" ∈ entityNames by decide) hrest
  | ordinary c hspecial =>
    rw [escapeChar_of_not_special hspecial]
    refine .char (fun heq => hspecial ?_) (fun hmem => hspecial (h hmem)) hrest
    rw [heq]
    decide

/-- An escaped text is escaped for any of the characters that are. -/
theorem escaped_escape {excluded : List Char} (h : excluded ⊆ specialChars) (s : String) :
    Escaped excluded (escape s).toList := by
  rw [toList_escape]
  induction s.toList with
  | nil => exact .nil
  | cons c cs ih => exact escaped_escapeChar_append h c ih

/-- In an escaped text, what follows an ampersand is the rest of an entity. -/
theorem Escaped.exists_entity {excluded cs before after : List Char} (h : Escaped excluded cs)
    (hsplit : cs = before ++ '&' :: after) :
    ∃ name ∈ entityNames, name.toList ++ [';'] <+: after := by
  induction h generalizing before with
  | nil => simp at hsplit
  | char hnotAmp hnotExcluded hrest ih =>
    cases before with
    | nil => exact absurd (List.cons.inj hsplit).1 hnotAmp
    | cons c before => exact ih (List.cons.inj hsplit).2
  | @entity name cs hknown hrest ih =>
    cases before with
    | nil =>
      obtain ⟨-, rfl⟩ := List.cons.inj hsplit
      exact ⟨name, hknown, cs, (List.append_cons ..).symm⟩
    | cons c before =>
      -- neither the name nor the semicolon holds an ampersand, so it is in what follows them
      have hnoAmp : ∀ name ∈ entityNames, '&' ∉ name.toList ++ [';'] := by decide
      have hinner : name.toList ++ ';' :: cs = before ++ '&' :: after := (List.cons.inj hsplit).2
      rw [List.append_cons] at hinner
      rcases List.append_eq_append_iff.1 hinner with ⟨between, -, heq⟩ | ⟨between, heq, heq'⟩
      · exact ih heq
      · cases between with
        | nil => exact ih (show cs = [] ++ '&' :: after from heq'.symm)
        | cons d between =>
          obtain ⟨rfl, -⟩ := List.cons.inj heq'
          refine absurd ?_ (hnoAmp name hknown)
          rw [heq]
          exact List.mem_append_right _ (List.mem_cons_self ..)

/-- Escaping, which replaces the five special characters one after the other in the whole text, is a
single pass in which every character is escaped on its own. So it can be cut anywhere. An escaped
text holds no special character but the ampersand, which always begins one of the five entities;
reading these back in one pass gives the text again, also where it holds entities itself. -/
theorem escape_eq_flatMap_and_unescape_escape :
    (∀ s : String, escape s = String.ofList (s.toList.flatMap escapeChar)) ∧
    (∀ first second : String, escape (first ++ second) = escape first ++ escape second) ∧
    (∀ s : String, ∀ c ∈ ['<', '>', '"', '\''], c ∉ (escape s).toList) ∧
    (∀ (s : String) (before after : List Char), (escape s).toList = before ++ '&' :: after →
      ∃ name ∈ entityNames, name.toList ++ [';'] <+: after) ∧
    ∀ s : String, String.ofList (unescape (escape s).toList) = s := by
  refine ⟨fun s => ?_, escape_append, fun s c hmem => ?_, fun s before after hsplit => ?_,
    fun s => ?_⟩
  · rw [← toList_escape, String.ofList_toList]
  · -- these are the special characters without the first, which is the ampersand
    have hnoAmp : '&' ∉ ['<', '>', '"', '\''] := by decide
    exact not_mem_escape_of_special (List.mem_cons_of_mem '&' hmem)
      (fun heq => hnoAmp (heq ▸ hmem)) s
  · exact (escaped_escape (List.Subset.refl _) s).exists_entity hsplit
  · rw [unescape_toList_escape, String.ofList_toList]

/-- In a text that looks like an entity, the ampersand is escaped like any other. -/
theorem escape_eq_flatMap_and_unescape_escape_lookalike :
    (escape "&lt;<").toList = "&amp;lt;".toList ++ '&' :: "lt;".toList ∧
      (∃ name ∈ entityNames, name.toList ++ [';'] <+: "lt;".toList) ∧
      '<' ∈ ['<', '>', '"', '\''] ∧ '<' ∉ (escape "&lt;<").toList ∧
      String.ofList (unescape (escape "&lt;<").toList) = "&lt;<" := by
  obtain ⟨-, -, habsent, hentity, hback⟩ := escape_eq_flatMap_and_unescape_escape
  have hsplit : (escape "&lt;<").toList = "&amp;lt;".toList ++ '&' :: "lt;".toList := by decide
  have hspecial : '<' ∈ ['<', '>', '"', '\''] := by decide
  exact ⟨hsplit, hentity _ _ _ hsplit, hspecial, habsent _ _ hspecial, hback _⟩

/-- Every escaped text is character data. It cannot end a section, since no `>` is left in it. -/
theorem charData_escape (s : String) : CharData (escape s).toList where
  escaped := escaped_escape (by decide) s
  noSectionEnd := by
    -- no `>` is left of which such an end could be made
    intro hsectionEnd
    have hclose : '>' ∈ (escape s).toList := hsectionEnd.subset (by decide)
    exact not_mem_escape_of_special (by decide) (by decide) s hclose

/-- No text at all is character data, so elements may stand next to each other. -/
theorem charData_nil : CharData [] := charData_escape ""

theorem isName_of_isWord {s : String} (h : isWord s = true) : isName s.toList = true := by
  have hletters := isAlpha_of_isWord h
  cases hchars : s.toList with
  | nil => simp [isWord, hchars] at h
  | cons c cs =>
    rw [hchars] at hletters
    rw [isName, Bool.and_eq_true, List.all_eq_true]
    refine ⟨by simp [isNameStart, hletters c], fun d hmem => ?_⟩
    simp [isNamePart, isNameStart, hletters d (List.mem_cons_of_mem c hmem)]

/-! ## Written items -/

/-- Attributes with different words for names are well formed, whatever their values. -/
theorem attributes_tagAttrs {attrs : List (String × String)}
    (hnames : ∀ a ∈ attrs, isWord a.1 = true) (hdistinct : (attrs.map Prod.fst).Nodup) :
    Attributes (attrs.map fun a => a.1.toList) (tagAttrs escape attrs).toList := by
  induction attrs with
  | nil => exact .nil
  | cons a attrs ih =>
    obtain ⟨name, value⟩ := a
    rw [List.map_cons, List.nodup_cons] at hdistinct
    have hothers := ih (fun a hmem => hnames a (List.mem_cons_of_mem _ hmem)) hdistinct.2
    -- names that are different as texts are so as lists of characters
    have hfresh : name.toList ∉ attrs.map fun a => a.1.toList := by
      intro hmem
      obtain ⟨a, hmem, hsame⟩ := List.mem_map.1 hmem
      exact hdistinct.1 (List.mem_map.2 ⟨a, hmem, String.toList_inj.1 hsame⟩)
    have hadded := Attributes.cons (isName_of_isWord (hnames _ (List.mem_cons_self ..)))
      (escaped_escape (by decide) value) hfresh hothers
    simpa [tagAttrs] using hadded

/-- An element whose names are words, and whose attributes have different names, is written as one
if its content is. -/
theorem element_xml {name : String} {attrs : List (String × String)} {content : List Item}
    (hnames : (tagNames name attrs).all isWord = true) (hdistinct : (attrs.map Prod.fst).Nodup)
    (hinner : Content (Item.xmlAll content).toList) :
    Element (Item.element name attrs content).xml.toList := by
  obtain ⟨hword, hwords⟩ := isWord_of_all_tagNames hnames
  have hattributes := attributes_tagAttrs hwords hdistinct
  cases content with
  | nil =>
    have hwritten := Element.empty (isName_of_isWord hword) hattributes
    simpa [Item.xml] using hwritten
  | cons i is =>
    have hwritten := Element.holding (isName_of_isWord hword) hattributes hinner
    simpa [Item.xml] using hwritten

/-! ## Legal characters -/

theorem legal_append {first second : String} :
    Legal (first ++ second) ↔ Legal first ∧ Legal second := by
  simp [Legal, or_imp, forall_and]

theorem legal_empty : Legal "" := by decide

/-- The printable characters of ASCII are legal. -/
theorem isChar_of_printable {c : Char} (hlow : 0x20 ≤ c.toNat) (hhigh : c.toNat ≤ 0x7E) :
    IsChar c :=
  .inr (.inr (.inr (.inl ⟨hlow, by omega⟩)))

theorem isChar_of_isAlpha {c : Char} (h : c.isAlpha = true) : IsChar c := by
  -- the two ranges of letters
  have hranges : (decide (65 ≤ c.val ∧ c.val ≤ 90) || (97 ≤ c.val && c.val ≤ 122)) = true := h
  have hletter : (65 ≤ c.toNat ∧ c.toNat ≤ 90) ∨ (97 ≤ c.toNat ∧ c.toNat ≤ 122) := by
    simpa [UInt32.le_iff_toNat_le] using hranges
  apply isChar_of_printable <;> omega

theorem isChar_of_isDigit {c : Char} (h : c.isDigit = true) : IsChar c := by
  have hdigit : 48 ≤ c.toNat ∧ c.toNat ≤ 57 := by
    simpa [Char.isDigit, UInt32.le_iff_toNat_le] using h
  apply isChar_of_printable <;> omega

theorem legal_of_isWord {s : String} (h : isWord s = true) : Legal s := fun c hmem =>
  isChar_of_isAlpha (isAlpha_of_isWord h c hmem)

/-- Escaping a character neither makes it legal nor makes it illegal. -/
theorem isChar_escapeChar (c : Char) : (∀ d ∈ escapeChar c, IsChar d) ↔ IsChar c := by
  cases c using special_cases with
  | ordinary c hspecial =>
    rw [escapeChar_of_not_special hspecial]
    exact List.forall_mem_singleton
  -- the five characters are legal, and so is all that an entity is made of
  | _ => simp [escapeChar, IsChar]

/-- Escaping a text neither adds characters that are not legal nor takes any away. -/
theorem legal_escape {s : String} : Legal (escape s) ↔ Legal s := by
  unfold Legal
  rw [toList_escape]
  constructor
  · intro h c hmem
    exact (isChar_escapeChar c).1 fun d hmem' => h d (List.mem_flatMap.2 ⟨c, hmem, hmem'⟩)
  · intro h d hmem
    obtain ⟨c, hmem, hmem'⟩ := List.mem_flatMap.1 hmem
    exact (isChar_escapeChar c).2 (h c hmem) d hmem'

/-- Attributes are legal exactly if their values are. -/
theorem legal_tagAttrs {attrs : List (String × String)} (hnames : ∀ a ∈ attrs, isWord a.1 = true) :
    Legal (tagAttrs escape attrs) ↔ ∀ a ∈ attrs, Legal a.2 := by
  have hmarks : Legal " " ∧ Legal "=\"" ∧ Legal "\"" := by decide
  induction attrs with
  | nil => simp [tagAttrs, Legal]
  | cons a attrs ih =>
    have hname : Legal a.1 := legal_of_isWord (hnames a (List.mem_cons_self ..))
    have hothers := ih fun b hmem => hnames b (List.mem_cons_of_mem a hmem)
    simp only [tagAttrs, legal_append, legal_escape, hothers, hname, hmarks, List.forall_mem_cons,
      true_and, and_true]

/-- The text of an element has legal characters if the values of its attributes and the text of its
content have, and only then. -/
theorem legal_element_xml {name : String} {attrs : List (String × String)} {content : List Item}
    (hnames : (tagNames name attrs).all isWord = true) :
    Legal (Item.element name attrs content).xml ↔
      (∀ a ∈ attrs, Legal a.2) ∧ Legal (Item.xmlAll content) := by
  obtain ⟨hword, hwords⟩ := isWord_of_all_tagNames hnames
  have hname : Legal name := legal_of_isWord hword
  have hmarks : Legal "<" ∧ Legal ">" ∧ Legal "/>" ∧ Legal "</" := by decide
  cases content with
  | nil =>
    simp only [Item.xml, Item.xmlAll, legal_append, legal_tagAttrs hwords, hname, hmarks,
      legal_empty, true_and, and_true]
  | cons i is =>
    simp only [Item.xml, legal_append, legal_tagAttrs hwords, hname, hmarks, true_and, and_true]

end ParseMarkup.Xml
