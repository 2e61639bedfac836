import ParseMarkup.Proofs.Dump.Reader
import ParseMarkup.Proofs.Markup.Agreement
import ParseMarkup.Proofs.Tree.Leaves

/-!
# Renderings without escaping are unambiguous

A rendering escapes nothing, so a tag, a location or a value could look like markup. Still, as long
as nothing between quotes contains a quote and no value contains a `<`, the text shows where each
part of it ends: a value between quotes at the next quote, a start tag where no further attribute
follows, and the content of a production where an end tag follows. So a rendering can be told from
whatever comes after it, and the rendering of a tree shows which tree it is, up to what a rendering
leaves out.

The module introduces:

* `Node.NeedsNoEscape`: that tags and locations are without quotes and values without `<`;
* `Node.ShowSame`: that two trees are the same in all that is rendered of them;
* `Node.shown` and `Node.afterAttrs`: the attributes of a rendered start tag, and what follows them.

The main statements: a list of attributes is read off the text that begins with it
(`tagAttrs_append_inj`), a tree is read off a text that begins with its rendering
(`Node.showSame_of_append_eq`, by induction on the tree), and `Node.render_eq_iff_showSame`.
-/

namespace ParseMarkup

/-! ## Attributes at the beginning of a text -/

/-- Two texts without `c`, each followed by `c`, are the same if they go on to the same text. -/
theorem append_cons_inj_of_not_mem {c : Char} :
    ∀ {xs ys rest rest' : List Char}, c ∉ xs → c ∉ ys → xs ++ c :: rest = ys ++ c :: rest' →
      xs = ys ∧ rest = rest'
  | [], [], _, _, _, _, hsame => ⟨rfl, (List.cons.inj hsame).2⟩
  | [], _ :: _, _, _, _, hfree, hsame => by
    obtain ⟨rfl, -⟩ := List.cons.inj hsame
    exact absurd (List.mem_cons_self ..) hfree
  | _ :: _, [], _, _, hfree, _, hsame => by
    obtain ⟨rfl, -⟩ := List.cons.inj hsame
    exact absurd (List.mem_cons_self ..) hfree
  | _ :: _, _ :: _, _, _, hfree, hfree', hsame => by
    obtain ⟨rfl, htails⟩ := List.cons.inj hsame
    obtain ⟨rfl, hrest⟩ := append_cons_inj_of_not_mem
      (fun hmem => hfree (List.mem_cons_of_mem _ hmem))
      (fun hmem => hfree' (List.mem_cons_of_mem _ hmem)) htails
    exact ⟨rfl, hrest⟩

/-- An attribute whose name is a word and whose value has no quote in it. -/
def PlainAttr (a : String × String) : Prop := Xml.isWord a.1 = true ∧ '"' ∉ a.2.toList

/-- A text that does not go on with an attribute. -/
def EndsAttrs (rest : List Char) : Prop := ∀ c cs, rest = ' ' :: c :: cs → c.isAlpha = false

/-- The characters of some attributes, with the first one taken apart. -/
theorem toList_tagAttrs_cons (a : String × String) (attrs : List (String × String))
    (rest : List Char) :
    (tagAttrs id (a :: attrs)).toList ++ rest =
      ' ' :: (a.1.toList ++ '=' :: '"' :: (a.2.toList ++ '"' ::
        ((tagAttrs id attrs).toList ++ rest))) := by
  simp [tagAttrs]

/-- An attribute begins with a blank and a letter. -/
theorem not_endsAttrs_cons {a : String × String} (h : PlainAttr a)
    (attrs : List (String × String)) (rest : List Char) :
    ¬ EndsAttrs ((tagAttrs id (a :: attrs)).toList ++ rest) := by
  intro hends
  rw [toList_tagAttrs_cons] at hends
  cases hname : a.1.toList with
  | nil => simpa [Xml.isWord, hname] using h.1
  | cons c cs =>
    rw [hname] at hends
    have hletter : c.isAlpha = true := Xml.isAlpha_of_isWord h.1 c (hname ▸ List.mem_cons_self ..)
    rw [hends c _ rfl] at hletter
    cases hletter

/-- A list of attributes is read off a text that begins with it and does not go on with another. -/
theorem tagAttrs_append_inj :
    ∀ {attrs attrs' : List (String × String)} {rest rest' : List Char},
      (∀ a ∈ attrs, PlainAttr a) → (∀ a ∈ attrs', PlainAttr a) →
      EndsAttrs rest → EndsAttrs rest' →
      (tagAttrs id attrs).toList ++ rest = (tagAttrs id attrs').toList ++ rest' →
      attrs = attrs' ∧ rest = rest'
  | [], [], _, _, _, _, _, _, hsame => ⟨rfl, hsame⟩
  | [], a :: attrs, _, rest', _, hplain, hends, _, hsame => by
    obtain rfl : _ = (tagAttrs id (a :: attrs)).toList ++ rest' := hsame
    exact absurd hends (not_endsAttrs_cons (hplain a (List.mem_cons_self ..)) attrs rest')
  | a :: attrs, [], rest, _, hplain, _, _, hends, hsame => by
    obtain rfl : (tagAttrs id (a :: attrs)).toList ++ rest = _ := hsame
    exact absurd hends (not_endsAttrs_cons (hplain a (List.mem_cons_self ..)) attrs rest)
  | (name, value) :: attrs, (name', value') :: attrs', rest, rest', hplain, hplain', hends, hends',
      hsame => by
    obtain ⟨⟨hword, hfree⟩, hplain⟩ := List.forall_mem_cons.1 hplain
    obtain ⟨⟨hword', hfree'⟩, hplain'⟩ := List.forall_mem_cons.1 hplain'
    rw [toList_tagAttrs_cons, toList_tagAttrs_cons] at hsame
    -- the name goes up to the equals sign, and the value up to the next quote
    obtain ⟨hnames, hsame⟩ := append_cons_inj_of_not_mem (Xml.not_mem_of_isWord hword (by decide))
      (Xml.not_mem_of_isWord hword' (by decide)) (List.cons.inj hsame).2
    obtain ⟨hvalues, hsame⟩ := append_cons_inj_of_not_mem hfree hfree' (List.cons.inj hsame).2
    obtain ⟨rfl, hrest⟩ := tagAttrs_append_inj hplain hplain' hends hends' hsame
    rw [String.toList_inj] at hnames hvalues
    obtain rfl : name = name' := hnames
    obtain rfl : value = value' := hvalues
    exact ⟨rfl, hrest⟩

/-! ## What a rendering shows -/

section Unambiguous

variable {L V L' V' : Type} [Display L] [Display V] [Display L'] [Display V']

namespace Node

mutual

/-- That no tag and no displayed location has a quote in it, and no displayed value a `<`. -/
def NeedsNoEscape : Node L V → Prop
  | terminal t =>
    '"' ∉ t.tag.toList ∧ '"' ∉ (displayText t.left).toList ∧
      '"' ∉ (displayText t.right).toList ∧ ∀ v ∈ t.value, '<' ∉ (displayText v).toList
  | error e => '"' ∉ (displayText e.left).toList ∧ '"' ∉ (displayText e.right).toList
  | nonterminal ⟨tag, _, cs⟩ => '"' ∉ tag.toList ∧ NeedsNoEscapeAll cs

/-- The same for several trees. -/
def NeedsNoEscapeAll : List (Node L V) → Prop
  | [] => True
  | c :: cs => NeedsNoEscape c ∧ NeedsNoEscapeAll cs

end

mutual

/-- That two trees are the same in all that is rendered of them: the same kinds of nodes in the same
order and nesting, with the same tags, variants and displayed values, the same displayed endpoints
of error nodes and of tokens with a value, and the same displayed endpoints, or none, of
productions. -/
inductive ShowSame : Node L V → Node L' V' → Prop where
  /-- Tokens without a value, which may stand anywhere. -/
  | token {tag : String} {left right : L} {left' right' : L'} :
      ShowSame (terminal ⟨left, tag, none, right⟩) (terminal ⟨left', tag, none, right'⟩)
  /-- Tokens with a value. -/
  | value {tag : String} {left right : L} {left' right' : L'} {v : V} {v' : V'}
      (hlefts : displayText left = displayText left')
      (hrights : displayText right = displayText right')
      (hvalues : displayText v = displayText v') :
      ShowSame (terminal ⟨left, tag, some v, right⟩) (terminal ⟨left', tag, some v', right'⟩)
  /-- Error nodes. -/
  | error {left right : L} {left' right' : L'} (hlefts : displayText left = displayText left')
      (hrights : displayText right = displayText right') :
      ShowSame (error ⟨left, right⟩) (error ⟨left', right'⟩)
  /-- Productions. -/
  | production {tag : String} {variant : Int32} {cs : List (Node L V)} {cs' : List (Node L' V')}
      (hlefts : (leftmost cs).map displayText = (leftmost cs').map displayText)
      (hrights : (rightmost cs).map displayText = (rightmost cs').map displayText)
      (hchildren : ShowSameAll cs cs') :
      ShowSame (nonterminal ⟨tag, variant, cs⟩) (nonterminal ⟨tag, variant, cs'⟩)

/-- The same for as many trees on both sides, one by one. -/
inductive ShowSameAll : List (Node L V) → List (Node L' V') → Prop where
  | nil : ShowSameAll [] []
  | cons {c : Node L V} {c' : Node L' V'} {cs : List (Node L V)} {cs' : List (Node L' V')}
      (hfirst : ShowSame c c') (hothers : ShowSameAll cs cs') : ShowSameAll (c :: cs) (c' :: cs')

end

/-- The attributes that are rendered of a node. -/
def shown : Node L V → List (String × String)
  | terminal ⟨_, tag, none, _⟩ => [("id", tag)]
  | terminal ⟨left, tag, some _, right⟩ =>
    [("id", tag), ("left", displayText left), ("right", displayText right)]
  | error ⟨left, right⟩ => [("left", displayText left), ("right", displayText right)]
  | nonterminal ⟨tag, variant, cs⟩ =>
    [("id", tag)] ++ attrOf? "left" (leftmost cs) ++ attrOf? "right" (rightmost cs) ++
      [("variant", displayText variant)]

/-- What follows the attributes in the rendering of a node. -/
def afterAttrs : Node L V → String
  | terminal ⟨_, _, none, _⟩ => "/>"
  | terminal ⟨_, _, some v, _⟩ => ">" ++ displayText v ++ "</terminal>"
  | error _ => "/>"
  | nonterminal ⟨_, _, []⟩ => " />"
  | nonterminal ⟨_, _, c :: cs⟩ => ">" ++ Item.plainAll (items (c :: cs)) ++ "</nonterminal>"

/-- A rendering is a `<`, the name of the element, its attributes and what follows them. -/
theorem plain_item_eq (t : Node L V) :
    t.item.plain = "<" ++ t.elementName ++ tagAttrs id t.shown ++ t.afterAttrs := by
  cases t with
  | terminal t =>
    obtain ⟨left, tag, value, right⟩ := t
    cases value with
    | none => rfl
    | some v =>
      change "<" ++ "terminal" ++ _ ++ ">" ++ Item.plainAll [.text (displayText v)] ++ "</" ++
        "terminal" ++ ">" = _
      rw [Item.plainAll, Item.plainAll, Item.plain, String.append_empty]
      simp only [afterAttrs, String.append_assoc]
      rfl
  | error e => rfl
  | nonterminal n =>
    obtain ⟨tag, variant, cs⟩ := n
    cases cs with
    | nil => rfl
    | cons c cs =>
      rw [item, items, Item.plain, Production.shownAttrs_cons]
      simp only [afterAttrs, items, String.append_assoc]
      rfl

/-! ## Parts of a rendering -/

mutual

/-- A node that needs no escape begins at a location without a quote. -/
theorem quote_not_mem_of_left? {l : L} : ∀ t : Node L V, t.NeedsNoEscape → t.left? = some l →
    '"' ∉ (displayText l).toList
  | terminal t, hplain, hfound => by
    obtain rfl : t.left = l := Option.some.inj hfound
    exact hplain.2.1
  | error e, hplain, hfound => by
    obtain rfl : e.left = l := Option.some.inj hfound
    exact hplain.1
  | nonterminal ⟨_, _, cs⟩, hplain, hfound => by
    rw [left?, leftmost_eq_findSome?] at hfound
    obtain ⟨c, hmem, hfound⟩ := List.exists_of_findSome?_eq_some hfound
    exact quote_not_mem_of_mem cs hplain.2 c hmem hfound

/-- So does each of several nodes. -/
theorem quote_not_mem_of_mem {l : L} : ∀ cs : List (Node L V), NeedsNoEscapeAll cs →
    ∀ c ∈ cs, c.left? = some l → '"' ∉ (displayText l).toList
  | c :: cs, hplain, d, hmem, hfound => by
    rcases List.mem_cons.1 hmem with hfirst | hlater
    · exact quote_not_mem_of_left? c hplain.1 (hfirst ▸ hfound)
    · exact quote_not_mem_of_mem cs hplain.2 d hlater hfound

end

omit [Display L] [Display V] in
/-- The text of a number is without quotes. -/
theorem quote_not_mem_displayText_variant (i : Int32) : '"' ∉ (displayText i).toList := by
  intro hmem
  rcases isDigit_of_mem_displayText_variant hmem with hsign | hdigit
  · cases hsign
  · cases hdigit

/-- The endpoints of a production make plain attributes, if there are any. -/
theorem plainAttr_attrOf? {name : String} (hword : Xml.isWord name = true) {l : Option L}
    (h : ∀ a ∈ l, '"' ∉ (displayText a).toList) : ∀ a ∈ attrOf? name l, PlainAttr a := by
  cases l with
  | none => simp [attrOf?]
  | some l => simpa [attrOf?, PlainAttr, hword] using h l rfl

/-- Every attribute that is rendered of a node that needs no escape is plain. -/
theorem plainAttr_of_mem_shown (t : Node L V) (hplain : t.NeedsNoEscape) :
    ∀ a ∈ t.shown, PlainAttr a := by
  have hwords : Xml.isWord "id" = true ∧ Xml.isWord "left" = true ∧ Xml.isWord "right" = true ∧
      Xml.isWord "variant" = true := by decide
  obtain ⟨hid, hleft, hright, hvariantWord⟩ := hwords
  match t, hplain with
  | terminal ⟨_, _, none, _⟩, hplain => simpa [shown, PlainAttr, hid] using hplain.1
  | terminal ⟨_, _, some _, _⟩, hplain =>
    simpa [shown, PlainAttr, hid, hleft, hright] using ⟨hplain.1, hplain.2.1, hplain.2.2.1⟩
  | error e, hplain => simpa [shown, PlainAttr, hleft, hright] using And.intro hplain.1 hplain.2
  | nonterminal ⟨tag, variant, cs⟩, hplain =>
    have htagAttr : PlainAttr ("id", tag) := ⟨hid, hplain.1⟩
    have hvariantAttr : PlainAttr ("variant", displayText variant) :=
      ⟨hvariantWord, quote_not_mem_displayText_variant variant⟩
    -- the endpoints of a production are displayed in its children, which need no escape
    have hleftAttr := plainAttr_attrOf? hleft (l := leftmost cs) fun l hfound => by
      rw [Option.mem_def, leftmost_eq_findSome?] at hfound
      obtain ⟨c, hmem, hfound⟩ := List.exists_of_findSome?_eq_some hfound
      exact quote_not_mem_of_mem cs hplain.2 c hmem hfound
    have hrightAttr := plainAttr_attrOf? hright (l := rightmost cs) fun l hfound => by
      obtain ⟨c, hmem, hfound⟩ := List.exists_of_findSome?_eq_some hfound
      exact quote_not_mem_of_mem cs hplain.2 c (List.mem_reverse.1 hmem) hfound
    simp only [shown, List.forall_mem_append, List.forall_mem_singleton]
    exact ⟨⟨⟨htagAttr, hleftAttr⟩, hrightAttr⟩, hvariantAttr⟩

/-- What follows the attributes is no attribute. -/
theorem endsAttrs_afterAttrs (t : Node L V) (rest : List Char) :
    EndsAttrs (t.afterAttrs.toList ++ rest) := by
  intro c cs heq
  match t with
  | terminal ⟨_, _, none, _⟩ => simp [afterAttrs] at heq
  | terminal ⟨_, _, some _, _⟩ => simp [afterAttrs] at heq
  | error _ => simp [afterAttrs] at heq
  | nonterminal ⟨_, _, []⟩ =>
    simp [afterAttrs] at heq
    obtain ⟨rfl, -⟩ := heq
    rfl
  | nonterminal ⟨_, _, _ :: _⟩ => simp [afterAttrs] at heq

/-! ## Reading a tree off a text -/

/-- The characters of a rendered tree: the bracket, the element name, the attributes and the
rest. -/
theorem toList_plain_item_append (t : Node L V) (rest : List Char) :
    t.item.plain.toList ++ rest =
      '<' :: (t.elementName.toList ++
        ((tagAttrs id t.shown).toList ++ (t.afterAttrs.toList ++ rest))) := by
  simp [plain_item_eq]

/-- The first letters of the names tell the three kinds of nodes apart. -/
theorem elementName_eq_of_append_eq {t : Node L V} {t' : Node L' V'} {rest rest' : List Char}
    (hsame : t.item.plain.toList ++ rest = t'.item.plain.toList ++ rest') :
    t.elementName = t'.elementName := by
  rw [toList_plain_item_append, toList_plain_item_append] at hsame
  have hletters := congrArg List.head? (List.cons.inj hsame).2
  cases t <;> cases t' <;> first | rfl | simp [elementName] at hletters

omit [Display L] [Display V] in
/-- Nor is the name of an element taken for the slash of an end tag. -/
theorem elementName_append_ne (t : Node L V) (rest rest' : List Char) :
    t.elementName.toList ++ rest ≠ '/' :: rest' := by
  cases t <;> simp [elementName]

/-- Nodes whose renderings begin a text show the same attributes, and the text goes on in the same
way after them. -/
theorem shown_eq_of_append_eq {t : Node L V} {t' : Node L' V'} {rest rest' : List Char}
    (hplain : t.NeedsNoEscape) (hplain' : t'.NeedsNoEscape)
    (hsame : t.item.plain.toList ++ rest = t'.item.plain.toList ++ rest') :
    t.shown = t'.shown ∧ t.afterAttrs.toList ++ rest = t'.afterAttrs.toList ++ rest' := by
  have hnames := elementName_eq_of_append_eq hsame
  rw [toList_plain_item_append, toList_plain_item_append, hnames] at hsame
  exact tagAttrs_append_inj (t.plainAttr_of_mem_shown hplain) (t'.plainAttr_of_mem_shown hplain')
    (t.endsAttrs_afterAttrs rest) (t'.endsAttrs_afterAttrs rest')
    (List.append_cancel_left (List.cons.inj hsame).2)

omit [Display V] in
/-- The attributes that are rendered of a production tell its endpoints. -/
theorem lookup_shown_nonterminal (tag : String) (variant : Int32) (cs : List (Node L V)) :
    (nonterminal ⟨tag, variant, cs⟩).shown.lookup "id" = some tag ∧
      (nonterminal ⟨tag, variant, cs⟩).shown.lookup "variant" = some (displayText variant) ∧
      (nonterminal ⟨tag, variant, cs⟩).shown.lookup "left" = (leftmost cs).map displayText ∧
      (nonterminal ⟨tag, variant, cs⟩).shown.lookup "right" = (rightmost cs).map displayText := by
  rw [shown]
  cases leftmost cs <;> cases rightmost cs <;> exact ⟨rfl, rfl, rfl, rfl⟩

omit [Display V] [Display V'] in
/-- So productions that show the same attributes have the same tag, variant and endpoints. -/
theorem production_eq_of_shown_eq {tag tag' : String} {variant variant' : Int32}
    {cs : List (Node L V)} {cs' : List (Node L' V')}
    (hsame : (nonterminal ⟨tag, variant, cs⟩).shown = (nonterminal ⟨tag', variant', cs'⟩).shown) :
    tag = tag' ∧ variant = variant' ∧
      (leftmost cs).map displayText = (leftmost cs').map displayText ∧
      (rightmost cs).map displayText = (rightmost cs').map displayText := by
  obtain ⟨hid, hnumber, hleft, hright⟩ := lookup_shown_nonterminal tag variant cs
  obtain ⟨hid', hnumber', hleft', hright'⟩ := lookup_shown_nonterminal tag' variant' cs'
  rw [hsame] at hid hnumber hleft hright
  have hnumbers : displayText variant = displayText variant' :=
    Option.some.inj (hnumber.symm.trans hnumber')
  refine ⟨Option.some.inj (hid.symm.trans hid'), ?_, hleft.symm.trans hleft',
    hright.symm.trans hright'⟩
  rw [← readVariant_displayText variant, hnumbers, readVariant_displayText]

/-- Tokens whose renderings begin a text show the same. -/
theorem showSame_terminal {t : Terminal L V} {t' : Terminal L' V'} {rest rest' : List Char}
    (hplain : (terminal t).NeedsNoEscape) (hplain' : (terminal t').NeedsNoEscape)
    (hattrs : (terminal t).shown = (terminal t').shown)
    (hafter : (terminal t).afterAttrs.toList ++ rest = (terminal t').afterAttrs.toList ++ rest') :
    ShowSame (terminal t) (terminal t') ∧ rest = rest' := by
  obtain ⟨left, tag, value, right⟩ := t
  obtain ⟨left', tag', value', right'⟩ := t'
  cases value with
  | none =>
    cases value' with
    | none =>
      obtain rfl : tag = tag' := by simpa [shown] using hattrs
      exact ⟨.token, List.append_cancel_left hafter⟩
    | some v' => simp [shown] at hattrs
  | some v =>
    cases value' with
    | none => simp [shown] at hattrs
    | some v' =>
      obtain ⟨rfl, hlefts, hrights⟩ : tag = tag' ∧ displayText left = displayText left' ∧
          displayText right = displayText right' := by simpa [shown] using hattrs
      -- the value goes up to the next `<`
      have hends : (displayText v).toList ++ '<' :: ("/terminal>".toList ++ rest) =
          (displayText v').toList ++ '<' :: ("/terminal>".toList ++ rest') := by
        simpa [afterAttrs] using hafter
      obtain ⟨hvalues, hends⟩ := append_cons_inj_of_not_mem (hplain.2.2.2 v rfl)
        (hplain'.2.2.2 v' rfl) hends
      exact ⟨.value hlefts hrights (String.toList_inj.1 hvalues), List.append_cancel_left hends⟩

mutual

/-- A tree is read off a text that begins with its rendering, and so is what follows it. -/
theorem showSame_of_append_eq : ∀ (t : Node L V) (t' : Node L' V') {rest rest' : List Char},
    t.NeedsNoEscape → t'.NeedsNoEscape →
    t.item.plain.toList ++ rest = t'.item.plain.toList ++ rest' →
    ShowSame t t' ∧ rest = rest'
  | terminal t, t', rest, rest', hplain, hplain', hsame => by
    have hnames := elementName_eq_of_append_eq hsame
    obtain ⟨hattrs, hafter⟩ := shown_eq_of_append_eq hplain hplain' hsame
    cases t' with
    | terminal t' => exact showSame_terminal hplain hplain' hattrs hafter
    | error e' => simp [elementName] at hnames
    | nonterminal n' => simp [elementName] at hnames
  | error e, t', rest, rest', hplain, hplain', hsame => by
    have hnames := elementName_eq_of_append_eq hsame
    obtain ⟨hattrs, hafter⟩ := shown_eq_of_append_eq hplain hplain' hsame
    cases t' with
    | terminal t' => simp [elementName] at hnames
    | error e' =>
      obtain ⟨hlefts, hrights⟩ : displayText e.left = displayText e'.left ∧
          displayText e.right = displayText e'.right := by simpa [shown] using hattrs
      exact ⟨.error hlefts hrights, List.append_cancel_left hafter⟩
    | nonterminal n' => simp [elementName] at hnames
  | nonterminal ⟨tag, variant, cs⟩, t', rest, rest', hplain, hplain', hsame => by
    have hnames := elementName_eq_of_append_eq hsame
    obtain ⟨hattrs, hafter⟩ := shown_eq_of_append_eq hplain hplain' hsame
    cases t' with
    | terminal t' => simp [elementName] at hnames
    | error e' => simp [elementName] at hnames
    | nonterminal n' =>
      obtain ⟨tag', variant', cs'⟩ := n'
      obtain ⟨rfl, rfl, hlefts, hrights⟩ := production_eq_of_shown_eq hattrs
      have hbelow : (Item.plainAll (items cs)).toList ++
            '<' :: '/' :: ("nonterminal>".toList ++ rest) =
          (Item.plainAll (items cs')).toList ++
            '<' :: '/' :: ("nonterminal>".toList ++ rest') →
          ShowSameAll cs cs' ∧ _ :=
        showSameAll_of_append_eq cs cs' hplain.2 hplain'.2
      -- a blank or a `>` tells whether there are children
      cases cs with
      | nil =>
        cases cs' with
        | nil => exact ⟨.production hlefts hrights .nil, List.append_cancel_left hafter⟩
        | cons c' cs' => simp [afterAttrs] at hafter
      | cons c cs =>
        cases cs' with
        | nil => simp [afterAttrs] at hafter
        | cons c' cs' =>
          obtain ⟨hchildren, hends⟩ := hbelow (by simpa [afterAttrs] using hafter)
          exact ⟨.production hlefts hrights hchildren, List.append_cancel_left hends⟩

/-- Several trees are read off a text up to the end tag that follows them. -/
theorem showSameAll_of_append_eq : ∀ (cs : List (Node L V)) (cs' : List (Node L' V'))
    {rest rest' : List Char}, NeedsNoEscapeAll cs → NeedsNoEscapeAll cs' →
    (Item.plainAll (items cs)).toList ++ '<' :: '/' :: rest =
      (Item.plainAll (items cs')).toList ++ '<' :: '/' :: rest' →
    ShowSameAll cs cs' ∧ rest = rest'
  | [], [], _, _, _, _, hsame => ⟨.nil, by simpa [items, Item.plainAll] using hsame⟩
  -- behind the bracket stands the slash of an end tag on one side and an element name on the other
  | [], c' :: cs', rest, rest', _, _, hsame => by
    rw [items, items, Item.plainAll, Item.plainAll, String.toList_append, List.append_assoc,
      toList_plain_item_append] at hsame
    exact absurd (List.cons.inj hsame).2.symm (elementName_append_ne c' _ _)
  | c :: cs, [], rest, rest', _, _, hsame => by
    rw [items, items, Item.plainAll, Item.plainAll, String.toList_append, List.append_assoc,
      toList_plain_item_append] at hsame
    exact absurd (List.cons.inj hsame).2 (elementName_append_ne c _ _)
  | c :: cs, c' :: cs', rest, rest', hplain, hplain', hsame => by
    rw [items, items, Item.plainAll, Item.plainAll, String.toList_append, String.toList_append,
      List.append_assoc, List.append_assoc] at hsame
    -- the text behind the first element is the same on both sides
    obtain ⟨hfirst, hsame⟩ := showSame_of_append_eq c c' hplain.1 hplain'.1 hsame
    obtain ⟨hothers, hrest⟩ := showSameAll_of_append_eq cs cs' hplain.2 hplain'.2 hsame
    exact ⟨.cons hfirst hothers, hrest⟩

end

/-! ## Trees that show the same -/

omit [Display V] [Display V'] in
/-- Productions that report the same displayed endpoints show the same attributes. -/
theorem shown_nonterminal_congr {cs : List (Node L V)} {cs' : List (Node L' V')} (tag : String)
    (variant : Int32) (hlefts : (leftmost cs).map displayText = (leftmost cs').map displayText)
    (hrights : (rightmost cs).map displayText = (rightmost cs').map displayText) :
    (nonterminal ⟨tag, variant, cs⟩).shown = (nonterminal ⟨tag, variant, cs'⟩).shown := by
  rw [shown, shown, ← attrOf?_map "left" (leftmost cs), ← attrOf?_map "right" (rightmost cs),
    hlefts, hrights, attrOf?_map, attrOf?_map]

mutual

/-- Trees that show the same are rendered in the same way. -/
theorem plain_item_eq_of_showSame : ∀ (t : Node L V) {t' : Node L' V'}, ShowSame t t' →
    t.item.plain = t'.item.plain
  | terminal t, _, hsame => by
    cases hsame with
    | token => rfl
    | value hlefts hrights hvalues =>
      rw [plain_item_eq, plain_item_eq, shown, shown, afterAttrs, afterAttrs, hlefts, hrights,
        hvalues]
      rfl
  | error e, _, hsame => by
    cases hsame with
    | error hlefts hrights =>
      rw [plain_item_eq, plain_item_eq, shown, shown, hlefts, hrights]
      rfl
  | nonterminal ⟨tag, variant, cs⟩, _, hsame => by
    cases hsame with
    | production hlefts hrights hchildren =>
      have hcontent := plainAll_items_eq_of_showSameAll cs hchildren
      rw [plain_item_eq, plain_item_eq, shown_nonterminal_congr tag variant hlefts hrights]
      -- both have children or neither has
      cases hchildren with
      | nil => rfl
      | cons hfirst hothers => rw [afterAttrs, afterAttrs, hcontent]; rfl

/-- The same for several trees. -/
theorem plainAll_items_eq_of_showSameAll : ∀ (cs : List (Node L V)) {cs' : List (Node L' V')},
    ShowSameAll cs cs' → Item.plainAll (items cs) = Item.plainAll (items cs')
  | [], _, hsame => by
    cases hsame
    rfl
  | c :: cs, _, hsame => by
    cases hsame with
    | cons hfirst hothers =>
      rw [items, items, Item.plainAll, Item.plainAll, plain_item_eq_of_showSame c hfirst,
        plainAll_items_eq_of_showSameAll cs hothers]

end

/-! ## Renderings -/

/-- Renderings of trees that need no escape are unambiguous: two of them are the same if and only if
the trees are the same in all that is rendered of them. In particular a token whose value is the
empty text, as any value, is told apart from a token without a value, and a production without
children from one with children, even if these have no endpoints. -/
theorem render_eq_iff_showSame {t : Node L V} {t' : Node L' V'} (hplain : t.NeedsNoEscape)
    (hplain' : t'.NeedsNoEscape) :
    (t.render = t'.render ↔ ShowSame t t') ∧
    (∀ left tag v right left' right', t = terminal ⟨left, tag, some v, right⟩ →
      t' = terminal ⟨left', tag, none, right'⟩ → t.render ≠ t'.render) ∧
    ∀ tag variant c cs, t = nonterminal ⟨tag, variant, []⟩ →
      t' = nonterminal ⟨tag, variant, c :: cs⟩ → t.render ≠ t'.render := by
  have halike : t.render = t'.render ↔ ShowSame t t' := by
    rw [render_eq_plain, render_eq_plain]
    constructor
    · intro hsame
      have happended : t.item.plain.toList ++ [] = t'.item.plain.toList ++ [] := by rw [hsame]
      exact (showSame_of_append_eq t t' hplain hplain' happended).1
    · exact t.plain_item_eq_of_showSame
  refine ⟨halike, ?_, ?_⟩
  · rintro left tag v right left' right' rfl rfl hsame
    cases halike.1 hsame
  · rintro tag variant c cs rfl rfl hsame
    cases halike.1 hsame with
    | production _ _ hchildren => cases hchildren

/-- Tags and locations full of markup, and a value that is empty or full of quotes. -/
theorem render_eq_iff_showSame_markup :
    let t : Node String String :=
      .nonterminal ⟨"a</b>", -1, [.terminal ⟨"<1/>", "NUM", some "\" left=\"2\">", " />"⟩]⟩
    let t' : Node Displayed UInt32 :=
      .nonterminal ⟨"a</b>", -1, [.terminal ⟨.brokenOff "<1/>", "NUM", none, .whole " />"⟩]⟩
    (t.NeedsNoEscape ∧ t'.NeedsNoEscape) ∧ t.render ≠ t'.render := by
  intro t t'
  have hplain : t.NeedsNoEscape := by
    refine ⟨by decide, ⟨by decide, by decide, by decide, ?_⟩, trivial⟩
    intro v hmem
    obtain rfl := Option.some.inj hmem
    decide
  have hplain' : t'.NeedsNoEscape :=
    ⟨by decide, ⟨by decide, by decide, by decide, by simp⟩, trivial⟩
  refine ⟨⟨hplain, hplain'⟩, fun hsame => ?_⟩
  have halike := (render_eq_iff_showSame hplain hplain').1.1 hsame
  simp only [t, t'] at halike
  -- one token has a value and the other has none
  cases halike with
  | production _ _ hchildren =>
    cases hchildren with
    | cons hfirst _ => cases hfirst

end Node

end Unambiguous

end ParseMarkup
