import ParseMarkup.Markup.Render
import ParseMarkup.Proofs.Dump.Replay

/-!
# Rendering and streaming agree

A tree is rendered into a text by one recursion and streamed as events by another. Both describe
the same elements: the text of a tree is what its events say, printed plainly, with every value as
it stands.

The module introduces:

* `Item.plain`: an item printed plainly, by the name of each element, its attributes and whether
  anything lies between them and its end;
* `Item.shownAttrs`: the attributes that are printed, in the order in which they are.

The main statements are `Node.text_print`, which follows the rendering of a tree into a printer of
any content, and `Node.render_eq_plain_of_recorded`.
-/

namespace ParseMarkup

namespace Item

/-- The names of the attributes that are printed for an element, in order. A token without content
shows its tag alone, and the endpoints of an inner node come before its variant. -/
def shownNames (name : String) (content : List Item) : List String :=
  match name, content with
  | "terminal", [] => ["id"]
  | "terminal", _ => ["id", "left", "right"]
  | "error", _ => ["left", "right"]
  | _, [] => ["id", "variant"]
  | _, _ => ["id", "left", "right", "variant"]

/-- The attributes that are printed for an element. One that the element lacks is left out. -/
def shownAttrs (name : String) (attrs : List (String × String)) (content : List Item) :
    List (String × String) :=
  (shownNames name content).filterMap fun n => (attrs.lookup n).map fun value => (n, value)

/-- The end of the tag of an element without content. -/
def plainEmptyEnd (name : String) : String := if name = "nonterminal" then " />" else "/>"

mutual

/-- An item printed plainly. -/
def plain : Item → String
  | text s => s
  | instruction _ _ => ""
  | element name attrs [] =>
    "<" ++ name ++ tagAttrs id (shownAttrs name attrs []) ++ plainEmptyEnd name
  | element name attrs (i :: is) =>
    "<" ++ name ++ tagAttrs id (shownAttrs name attrs (i :: is)) ++ ">" ++ plainAll (i :: is) ++
      "</" ++ name ++ ">"

/-- Several items printed plainly, one after the other. -/
def plainAll : List Item → String
  | [] => ""
  | i :: is => plain i ++ plainAll is

end

mutual

/-- Whether every element of an item shows just the attributes it has, in some order, unless it is
a token without content. -/
def ShowsAttrs : Item → Prop
  | text _ => True
  | instruction _ _ => True
  | element name attrs content =>
    ((name = "terminal" ∧ content = []) ∨ (shownAttrs name attrs content).Perm attrs) ∧
      ShowsAttrsAll content

/-- The same for several items. -/
def ShowsAttrsAll : List Item → Prop
  | [] => True
  | i :: is => ShowsAttrs i ∧ ShowsAttrsAll is

end

end Item

/-! ## Text of a printer -/

section Agreement

variable {L V α : Type} [Display L] [Display V] [Display α]

/-- An attribute is printed as it stands in a tag, with nothing escaped. -/
theorem Printer.text_attr (p : Printer) (name : String) (a : α) :
    (p.attr name a).text = p.text ++ tagAttrs id [(name, displayText a)] := by
  simp [Printer.attr, Printer.space, Printer.value, displayText, tagAttrs, id_eq, String.ext_iff]

theorem Printer.text_attr? (p : Printer) (name : String) (l : Option L) :
    (p.attr? name l).text = p.text ++ tagAttrs id (attrOf? name l) := by
  cases l with
  | none => simp [Printer.attr?, attrOf?, tagAttrs]
  | some l => exact p.text_attr name l

theorem Printer.text_startTag (p : Printer) (name : String) :
    (p.startTag name).text = p.text ++ "<" ++ name := by
  simp [Printer.startTag, String.ext_iff]

theorem Printer.text_endTag (p : Printer) (name : String) :
    (p.endTag name).text = p.text ++ "</" ++ name ++ ">" := by
  simp [Printer.endTag, String.ext_iff]

theorem Printer.text_endStartTag (p : Printer) : p.endStartTag.text = p.text ++ ">" := by
  simp [Printer.endStartTag, String.ext_iff]

theorem Printer.text_value (p : Printer) (a : α) : (p.value a).text = p.text ++ displayText a := rfl

theorem Printer.text_space (p : Printer) : p.space.text = p.text ++ " " := by
  simp [Printer.space, String.ext_iff]

theorem Printer.text_selfClose (p : Printer) : p.selfClose.text = p.text ++ "/>" := rfl

/-! ## Attributes that are shown -/

/-- A token without a value shows its tag alone. -/
theorem Terminal.shownAttrs_none (tag left right : String) :
    Item.shownAttrs "terminal" [("id", tag), ("left", left), ("right", right)] [] =
      [("id", tag)] := rfl

/-- A token with a value shows its tag and both endpoints. -/
theorem Terminal.shownAttrs_some (tag left right : String) (i : Item) (is : List Item) :
    Item.shownAttrs "terminal" [("id", tag), ("left", left), ("right", right)] (i :: is) =
      [("id", tag), ("left", left), ("right", right)] := rfl

/-- An error node shows both its attributes, whatever it holds. -/
theorem ErrorNode.shownAttrs_eq (left right : String) (content : List Item) :
    Item.shownAttrs "error" [("left", left), ("right", right)] content =
      [("left", left), ("right", right)] := rfl

/-! ## Rendering follows the elements -/

/-- A token is printed as the plain text of its element. -/
theorem Terminal.text_print (t : Terminal L V) (p : Printer) :
    (t.print p).text = p.text ++ t.item.plain := by
  obtain ⟨left, tag, value, right⟩ := t
  cases value with
  | none =>
    simp only [Terminal.print, Terminal.item, Option.elim_none, Item.plain, shownAttrs_none,
      Printer.text_selfClose, Printer.text_attr, Printer.text_startTag, String.append_assoc]
    rfl
  | some v =>
    simp only [Terminal.print, Terminal.item, Option.elim_some, Item.plain, Item.plainAll,
      shownAttrs_some, Printer.text_endTag, Printer.text_value, Printer.text_endStartTag,
      Printer.text_attr, Printer.text_startTag, tagAttrs, id_eq, String.append_assoc,
      String.append_empty]
    rfl

theorem ErrorNode.text_print (e : ErrorNode L) (p : Printer) :
    (e.print p).text = p.text ++ e.item.plain := by
  simp only [ErrorNode.print, ErrorNode.item, Item.plain, shownAttrs_eq, Printer.text_selfClose,
    Printer.text_attr, Printer.text_startTag, tagAttrs, id_eq, String.append_assoc,
    String.append_empty]
  rfl

omit [Display V] in
/-- A production without children shows its tag and its variant. -/
theorem Production.shownAttrs_nil (n : Production (Node L V)) :
    Item.shownAttrs "nonterminal" n.attrs [] =
      [("id", n.tag), ("variant", displayText n.variant)] := rfl

omit [Display V] in
/-- A production with children shows its tag, its endpoints if it has any, and its variant. -/
theorem Production.shownAttrs_cons (n : Production (Node L V)) (i : Item) (is : List Item) :
    Item.shownAttrs "nonterminal" n.attrs (i :: is) =
      [("id", n.tag)] ++ attrOf? "left" n.left? ++ attrOf? "right" n.right? ++
        [("variant", displayText n.variant)] := by
  rw [Production.attrs]
  cases n.left? <;> cases n.right? <;> rfl

mutual

/-- Rendering a tree appends what its element prints plainly. -/
theorem Node.text_print :
    ∀ (t : Node L V) (p : Printer), (t.print p).text = p.text ++ t.item.plain
  | .terminal t, p => t.text_print p
  | .error e, p => e.text_print p
  | .nonterminal ⟨tag, variant, []⟩, p => by
    simp only [Node.print, Node.item, Node.items, Item.plain, Production.shownAttrs_nil,
      Printer.text_selfClose, Printer.text_space, Printer.text_attr, Printer.text_startTag,
      tagAttrs, id_eq, String.append_assoc, String.append_empty]
    rfl
  | .nonterminal ⟨tag, variant, c :: cs⟩, p => by
    -- the children are printed after the start tag, whatever that has left in the printer
    have hchildren := fun p => Node.text_printAll (c :: cs) p
    rw [Node.items] at hchildren
    simp only [Node.print, Node.item, Node.items, Item.plain, Production.shownAttrs_cons,
      Printer.text_endTag, hchildren, Printer.text_endStartTag, Printer.text_attr,
      Printer.text_attr?, Printer.text_startTag, tagAttrs_append, tagAttrs, id_eq,
      String.append_assoc, String.append_empty]
    rfl

/-- The same for several trees. -/
theorem Node.text_printAll :
    ∀ (cs : List (Node L V)) (p : Printer),
      (printAll cs p).text = p.text ++ Item.plainAll (Node.items cs)
  | [], p => by simp [printAll, Node.items, Item.plainAll]
  | c :: cs, p => by
    rw [printAll, Node.text_printAll cs, Node.text_print c, Node.items, Item.plainAll,
      String.append_assoc]

end

/-- The text of a tree is its element printed plainly. -/
theorem Node.render_eq_plain (t : Node L V) : t.render = t.item.plain := by
  rw [Node.render, Node.text_print]
  exact String.empty_append

omit [Display V] in

/-- A production shows all its attributes, in another order than they are streamed in. -/
theorem Production.shownAttrs_perm (n : Production (Node L V)) (content : List Item)
    (h : n.children = [] ∨ content ≠ []) :
    (Item.shownAttrs "nonterminal" n.attrs content).Perm n.attrs := by
  obtain ⟨tag, variant, children⟩ := n
  cases content with
  | nil =>
    -- without children there are no endpoints to leave out
    obtain rfl : children = [] := by simpa using h
    exact List.Perm.refl _
  | cons i is =>
    -- the variant moves from the second place to the last
    rw [Production.shownAttrs_cons, Production.attrs, List.append_assoc, List.append_assoc]
    exact List.Perm.cons _ (by simpa using @List.perm_append_comm _ (_ ++ _) [_])

-- A token without a value is the only element that hides attributes.
mutual

/-- Every element of a tree but a token without a value shows all its attributes. -/
theorem Node.showsAttrs_item : ∀ t : Node L V, t.item.ShowsAttrs
  | .terminal ⟨_, _, none, _⟩ => ⟨Or.inl ⟨rfl, rfl⟩, trivial⟩
  | .terminal ⟨_, _, some _, _⟩ => ⟨Or.inr (List.Perm.refl _), trivial, trivial⟩
  | .error _ => ⟨Or.inr (List.Perm.refl _), trivial⟩
  | .nonterminal ⟨_, _, []⟩ =>
    ⟨Or.inr (Production.shownAttrs_perm _ _ (Or.inl rfl)), trivial⟩
  | .nonterminal ⟨_, _, c :: cs⟩ =>
    ⟨Or.inr (Production.shownAttrs_perm _ _ (Or.inr (List.cons_ne_nil _ _))),
      Node.showsAttrsAll_items (c :: cs)⟩

/-- The same for several trees. -/
theorem Node.showsAttrsAll_items : ∀ cs : List (Node L V), Item.ShowsAttrsAll (Node.items cs)
  | [] => trivial
  | c :: cs => ⟨Node.showsAttrs_item c, Node.showsAttrsAll_items cs⟩

end

/-- What a recorder holds after a tree was written stands for one element, and printing that
element plainly gives the rendering of the tree. Of each element but a token without a value, the
rendering shows every attribute, with the value that was streamed. -/
theorem Node.render_eq_plain_of_recorded (t : Node L V) :
    ∃ i, Item.ofEvents (t.write Recorder.empty).sink.events.toList = some [i] ∧
      (t.write Recorder.empty).sink.events.toList = i.events ∧
      t.render = i.plain ∧ i.ShowsAttrs := by
  have hrecorded := t.events_write_recorder
  refine ⟨t.item, ?_, hrecorded, t.render_eq_plain, t.showsAttrs_item⟩
  rw [hrecorded, Item.ofEvents_events]

end Agreement

end ParseMarkup
