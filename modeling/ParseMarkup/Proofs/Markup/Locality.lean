import ParseMarkup.Proofs.Markup.Agreement
import ParseMarkup.Proofs.Tree.Leaves

/-!
# Output around a subtree

A subtree can be replaced by another inside a tree. The productions above it show where they begin
and end, which is searched in the whole tree below them, so they may depend on the subtree. They do
so through one thing only: the text of the location where the subtree begins.

The module introduces:

* `Hole` and `TreeContext`: a production, and a tree, with one subtree left out;
* `Node.shownLeft?`: the text of the location where a node begins;
* `Hole.attrs`: the attributes of a production, given where the child that is left out begins.

What is rendered and streamed for a production goes around what is for the child
(`Hole.plain_item_production`, `Hole.events_item_production`). The main statement, by induction on
the context, is `TreeContext.exists_surroundings`.
-/

namespace ParseMarkup

/-! ## Items one after the other -/

namespace Item

theorem plainAll_append (first second : List Item) :
    plainAll (first ++ second) = plainAll first ++ plainAll second := by
  induction first with
  | nil => simp [plainAll]
  | cons i is ih => rw [List.cons_append, plainAll, plainAll, ih, String.append_assoc]

theorem eventsAll_append (first second : List Item) :
    eventsAll (first ++ second) = eventsAll first ++ eventsAll second := by
  induction first with
  | nil => rfl
  | cons i is ih => rw [List.cons_append, eventsAll, eventsAll, ih, List.append_assoc]

end Item

/-! ## Contexts -/

/-- A production with one child left out. -/
structure Hole (L V : Type) where
  /-- Name of the grammar symbol. -/
  tag : String
  /-- Which production of the symbol was reduced. -/
  variant : Int32
  /-- The children before the one that is left out. -/
  before : List (Node L V)
  /-- The children after it. -/
  after : List (Node L V)

/-- A tree with one subtree left out: the productions above that subtree, outermost first. -/
abbrev TreeContext (L V : Type) : Type := List (Hole L V)

section Fill

variable {L V : Type}

/-- The production with `t` for the child that was left out. -/
def Hole.production (h : Hole L V) (t : Node L V) : Production (Node L V) :=
  ⟨h.tag, h.variant, h.before ++ t :: h.after⟩

/-- The tree with `t` for the subtree that was left out. -/
def TreeContext.fill : TreeContext L V → Node L V → Node L V
  | [], t => t
  | h :: C, t => .nonterminal (h.production (fill C t))

variable [Display L]

/-- The text of the location where a node begins, if that is known. -/
def Node.shownLeft? (t : Node L V) : Option String := t.left?.map displayText

/-! ## One production -/

namespace Hole

/-- Where the production begins, given where the child that is left out does. -/
def shownLeft? (h : Hole L V) (begin? : Option String) : Option String :=
  ((leftmost h.before).map displayText).or (begin?.or ((leftmost h.after).map displayText))

/-- Where the production reports to end, given where the child that is left out begins. -/
def shownRight? (h : Hole L V) (begin? : Option String) : Option String :=
  ((rightmost h.after).map displayText).or (begin?.or ((rightmost h.before).map displayText))

/-- The attributes of the production as they are streamed, given where the child begins. -/
def attrs (h : Hole L V) (begin? : Option String) : List (String × String) :=
  [("id", h.tag), ("variant", displayText h.variant)] ++ attrOf? "left" (h.shownLeft? begin?) ++
    attrOf? "right" (h.shownRight? begin?)

/-- The attributes of the production as they are rendered, given where the child begins. -/
def shownAttrs (h : Hole L V) (begin? : Option String) : List (String × String) :=
  [("id", h.tag)] ++ attrOf? "left" (h.shownLeft? begin?) ++
    attrOf? "right" (h.shownRight? begin?) ++ [("variant", displayText h.variant)]

/-- The displayed left endpoint of the production around a tree depends on no more of the tree than
its displayed left endpoint. -/
theorem left?_production (h : Hole L V) (t : Node L V) :
    (h.production t).left?.map displayText = h.shownLeft? t.shownLeft? := by
  rw [Production.left?, production, ← List.singleton_append, leftmost_append, leftmost_append,
    leftmost_singleton, Option.map_or, Option.map_or]
  rfl

/-- Its displayed right endpoint depends on no more than that either: it is the left endpoint of
the last child that has one. -/
theorem right?_production (h : Hole L V) (t : Node L V) :
    (h.production t).right?.map displayText = h.shownRight? t.shownLeft? := by
  rw [Production.right?, production, ← List.singleton_append, rightmost_append, rightmost_append,
    rightmost_singleton, Option.or_assoc, Option.map_or, Option.map_or]
  rfl

/-- So do the attributes that are streamed for it. -/
theorem attrs_production (h : Hole L V) (t : Node L V) :
    (h.production t).attrs = h.attrs t.shownLeft? := by
  rw [attrs, ← left?_production, ← right?_production, attrOf?_map, attrOf?_map]
  rfl

/-- So do the attributes that are rendered for it. -/
theorem shownAttrs_production (h : Hole L V) (t : Node L V) (i : Item) (is : List Item) :
    Item.shownAttrs "nonterminal" (h.production t).attrs (i :: is) = h.shownAttrs t.shownLeft? := by
  rw [Production.shownAttrs_cons, shownAttrs, ← left?_production, ← right?_production, attrOf?_map,
    attrOf?_map]
  rfl

end Hole

variable [Display V]

theorem Node.items_append (first second : List (Node L V)) :
    Node.items (first ++ second) = Node.items first ++ Node.items second := by
  induction first with
  | nil => rfl
  | cons c cs ih => rw [List.cons_append, items, items, ih, List.cons_append]

namespace Hole

/-- The children of the production around a tree are the tree and its siblings on both sides. -/
theorem items_children_production (h : Hole L V) (t : Node L V) :
    Node.items (h.production t).children =
      Node.items h.before ++ t.item :: Node.items h.after :=
  Node.items_append h.before (t :: h.after)

/-- What is rendered of the production before the child, given where the child begins. -/
def plainBefore (h : Hole L V) (begin? : Option String) : String :=
  "<nonterminal" ++ tagAttrs id (h.shownAttrs begin?) ++ ">" ++ Item.plainAll (Node.items h.before)

/-- What is rendered of the production after the child. -/
def plainAfter (h : Hole L V) : String := Item.plainAll (Node.items h.after) ++ "</nonterminal>"

/-- What is streamed of the production before the child, given where the child begins. -/
def eventsBefore (h : Hole L V) (begin? : Option String) : List Event :=
  .startElement "nonterminal" :: attrEvents (h.attrs begin?) ++ Item.eventsAll (Node.items h.before)

/-- What is streamed of the production after the child. -/
def eventsAfter (h : Hole L V) : List Event := Item.eventsAll (Node.items h.after) ++ [.endElement]

/-- What is rendered for the production goes around what is for the child, and depends on the child
through the text of where it begins. -/
theorem plain_item_production (h : Hole L V) (t : Node L V) :
    (Node.nonterminal (h.production t)).item.plain =
      h.plainBefore t.shownLeft? ++ t.item.plain ++ h.plainAfter := by
  -- the production has a child, so its tag does not close itself
  obtain ⟨i, is, hchildren⟩ : ∃ i is, Node.items (h.production t).children = i :: is := by
    rw [items_children_production]
    cases Node.items h.before <;> exact ⟨_, _, rfl⟩
  change (Item.element "nonterminal" (h.production t).attrs
    (Node.items (h.production t).children)).plain = _
  rw [hchildren, Item.plain, shownAttrs_production, ← hchildren, items_children_production,
    Item.plainAll_append, Item.plainAll, plainBefore, plainAfter]
  simp only [String.append_assoc]
  rfl

/-- What is streamed for the production goes around what is for the child, in the same way. -/
theorem events_item_production (h : Hole L V) (t : Node L V) :
    (Node.nonterminal (h.production t)).item.events =
      h.eventsBefore t.shownLeft? ++ t.item.events ++ h.eventsAfter := by
  change (Item.element "nonterminal" (h.production t).attrs
    (Node.items (h.production t).children)).events = _
  rw [attrs_production, items_children_production, Item.events, Item.eventsAll_append,
    Item.eventsAll, eventsBefore, eventsAfter]
  simp

end Hole

/-! ## Whole contexts -/

namespace TreeContext

/-- What is rendered and streamed around a subtree is settled by the context and by the text of
where the subtree begins. -/
theorem exists_around (C : TreeContext L V) (begin? : Option String) :
    ∃ (A B : String) (P Q : List Event) (begins? : Option String), ∀ s : Node L V,
      s.shownLeft? = begin? →
      (C.fill s).item.plain = A ++ s.item.plain ++ B ∧
      (C.fill s).item.events = P ++ s.item.events ++ Q ∧ (C.fill s).shownLeft? = begins? := by
  induction C with
  | nil =>
    refine ⟨"", "", [], [], begin?, fun s hsame => ⟨?_, ?_, hsame⟩⟩
    · rw [String.empty_append, String.append_empty]
      rfl
    · rw [List.nil_append, List.append_nil]
      rfl
  | cons h C ih =>
    -- where the filled context below begins is settled as well, so this production shows the same
    obtain ⟨A, B, P, Q, begins?, haround⟩ := ih
    refine ⟨h.plainBefore begins? ++ A, B ++ h.plainAfter, h.eventsBefore begins? ++ P,
      Q ++ h.eventsAfter, h.shownLeft? begins?, fun s hsame => ?_⟩
    obtain ⟨hplain, hevents, hbegins⟩ := haround s hsame
    refine ⟨?_, ?_, ?_⟩
    · rw [fill, h.plain_item_production, hbegins, hplain]
      simp only [String.append_assoc]
    · rw [fill, h.events_item_production, hbegins, hevents]
      simp only [List.append_assoc]
    · rw [← hbegins, ← h.left?_production, Node.shownLeft?, fill, Node.left?_nonterminal]

/-- Both outputs are local. Whatever subtree is put into a context, as long as it begins at the same
displayed location, or at none, the rendering of the whole is that of the subtree between the same
two texts, and what is streamed for the whole is what is for the subtree between the same calls. -/
theorem exists_surroundings (C : TreeContext L V) (begin? : Option String) :
    ∃ (A B : String) (P Q : List Event), ∀ s : Node L V, s.left?.map displayText = begin? →
      (C.fill s).render = A ++ s.render ++ B ∧
      ((C.fill s).write Recorder.empty).sink.events.toList =
        P ++ (s.write Recorder.empty).sink.events.toList ++ Q := by
  obtain ⟨A, B, P, Q, _, haround⟩ := exists_around C begin?
  refine ⟨A, B, P, Q, fun s hsame => ?_⟩
  obtain ⟨hplain, hevents, -⟩ := haround s hsame
  rw [Node.render_eq_plain, Node.render_eq_plain, Node.events_write_recorder,
    Node.events_write_recorder]
  exact ⟨hplain, hevents⟩

/-- A token is replaced by a production of two leaves that begins at the same place. -/
theorem exists_surroundings_replaced :
    let C : TreeContext String String :=
      [⟨"r", 0, [.nonterminal (.empty "e" 0)], [.error ⟨"9", "9"⟩]⟩, ⟨"q", 1, [], []⟩]
    let s : Node String String := .terminal ⟨"1", "a", some "x", "2"⟩
    let s' : Node String String :=
      .nonterminal ⟨"b", 5, [.error ⟨"1", "7"⟩, .terminal ⟨"8", "c", none, "8"⟩]⟩
    (s.left?.map displayText = some "1" ∧ s'.left?.map displayText = some "1") ∧
      ∃ A B, (C.fill s).render = A ++ s.render ++ B ∧ (C.fill s').render = A ++ s'.render ++ B := by
  intro C s s'
  obtain ⟨A, B, _, _, haround⟩ := exists_surroundings C (some "1")
  exact ⟨⟨rfl, rfl⟩, A, B, (haround s rfl).1, (haround s' rfl).1⟩

end TreeContext

end Fill

end ParseMarkup
