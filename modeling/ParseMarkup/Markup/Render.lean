import ParseMarkup.Markup.Printer
import ParseMarkup.Tree.Span

/-!
# Rendering a tree as nested tags

The text form of a tree: one element per node, without a prologue and without escaping. A token
without a value shows its tag alone, and a production without children closes its tag after a
blank.

The module introduces:

* `Node.print`: append a tree to a printer, and the same for each kind of node;
* `Node.render`: the text of a tree;
* the display of a tree, which is that text; it never breaks off, even if a value in it does.
-/

namespace ParseMarkup

variable {L V : Type} [Display L] [Display V]

/-- `<terminal id="T"/>` for a token without a value, else
`<terminal id="T" left="L" right="R">value</terminal>`. -/
def Terminal.print (t : Terminal L V) (p : Printer) : Printer :=
  let p := (p.startTag "terminal").attr "id" t.tag
  match t.value with
  | none => p.selfClose
  | some v =>
    ((((p.attr "left" t.left).attr "right" t.right).endStartTag).value v).endTag "terminal"

/-- `<error left="L" right="R"/>`. -/
def ErrorNode.print (e : ErrorNode L) (p : Printer) : Printer :=
  (((p.startTag "error").attr "left" e.left).attr "right" e.right).selfClose

/-- An attribute that is written only if there is a value for it. -/
def Printer.attr? (p : Printer) (name : String) : Option L → Printer
  | none => p
  | some a => p.attr name a

mutual

/-- Append a tree: a leaf as its kind prints, a production as a start tag with tag, endpoints
and variant around its children in order. A production without children is
`<nonterminal id="T" variant="0" />`. -/
def Node.print : Node L V → Printer → Printer
  | .terminal t, p => t.print p
  | .error e, p => e.print p
  | .nonterminal ⟨tag, variant, []⟩, p =>
    ((((p.startTag "nonterminal").attr "id" tag).attr "variant" variant).space).selfClose
  | .nonterminal ⟨tag, variant, c :: cs⟩, p =>
    let p := (p.startTag "nonterminal").attr "id" tag
    let p := (p.attr? "left" (leftmost (c :: cs))).attr? "right" (rightmost (c :: cs))
    let p := (p.attr "variant" variant).endStartTag
    (Node.printAll (c :: cs) p).endTag "nonterminal"

/-- Append several trees, one after the other, with nothing around them. -/
def Node.printAll : List (Node L V) → Printer → Printer
  | [], p => p
  | c :: cs, p => printAll cs (c.print p)

end

/-- A production prints as the node it is the root of. -/
def Production.print (n : Production (Node L V)) (p : Printer) : Printer :=
  (Node.nonterminal n).print p

/-- The text of a tree, with what displaying its values logged. -/
def Node.rendered (t : Node L V) : Displayed :=
  let p := t.print .empty
  { text := p.text, log := p.log.toList }

/-- The text of a tree. -/
def Node.render (t : Node L V) : String := (t.print .empty).text

/-- A tree is displayed as it is rendered. -/
instance : Display (Node L V) := ⟨Node.rendered⟩

mutual

/-- Printing reads locations and values only through their display. -/
theorem Node.print_map_display :
    ∀ (t : Node L V) (p : Printer), (t.map display display).print p = t.print p
  | .terminal ⟨_, _, none, _⟩, _ => rfl
  | .terminal ⟨_, _, some _, _⟩, _ => rfl
  | .error _, _ => rfl
  | .nonterminal ⟨_, _, []⟩, _ => rfl
  | .nonterminal ⟨tag, variant, c :: cs⟩, p => by
    have hleft := leftmost_mapAll (display (α := L)) (display (α := V)) (c :: cs)
    have hright := rightmost_mapAll (display (α := L)) (display (α := V)) (c :: cs)
    rw [Node.map, Node.mapAll, Node.print, Node.print, ← Node.mapAll, hleft, hright,
      Node.printAll_map_display (c :: cs)]
    cases leftmost (c :: cs) <;> cases rightmost (c :: cs) <;> rfl

/-- The same for several trees. -/
theorem Node.printAll_map_display :
    ∀ (cs : List (Node L V)) (p : Printer),
      printAll (mapAll display display cs) p = printAll cs p
  | [], _ => rfl
  | c :: cs, p => by
    rw [mapAll, printAll, printAll, Node.print_map_display c, Node.printAll_map_display cs]

end

/-- A tree renders as the tree of its displayed values does. -/
theorem Node.rendered_map_display (t : Node L V) :
    (t.map display display).rendered = t.rendered := by
  simp only [Node.rendered, Node.print_map_display]

@[simp] theorem Node.text_rendered (t : Node L V) : t.rendered.text = t.render := rfl

@[simp] theorem Node.complete_rendered (t : Node L V) : t.rendered.complete = true := rfl

end ParseMarkup
