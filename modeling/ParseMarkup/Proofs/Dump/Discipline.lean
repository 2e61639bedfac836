import ParseMarkup.Proofs.Dump.Replay
import ParseMarkup.Proofs.Tree.Leaves
import ParseMarkup.Proofs.Tree.Paths
import ParseMarkup.Proofs.Xml.Discipline

/-!
# The discipline of a dump

The calls for a tree show the tree node by node: each node is one element, which begins in the
elements of its ancestors and in no others, and its attributes come before anything else in it. They
obey the discipline of calls, so an open writer over memory takes them whatever state it is in.

The module introduces:

* `Node.attrs` and `Node.payload?`: the attributes of the element of a node, and the text in it;
* `Node.ShownBy`: that some events show a tree and keep the discipline.

The main statements are `Node.shownBy_events`, that the calls for a tree do so, and
`Node.dump_write_shownBy`, what a dump records and what writing does to any open writer.
-/

namespace ParseMarkup

variable {L V : Type}

/-! ## The parts of the element of a node -/

namespace Node

section Endpoints

variable [Display L]

/-- The attributes of the element of a node. -/
def attrs : Node L V → List (String × String)
  | terminal t => [("id", t.tag), ("left", displayText t.left), ("right", displayText t.right)]
  | error e => [("left", displayText e.left), ("right", displayText e.right)]
  | nonterminal n => n.attrs

/-- No node has two attributes of one name. -/
theorem nodup_attrs (t : Node L V) : (t.attrs.map Prod.fst).Nodup := by
  cases t with
  | terminal t => simp [attrs]
  | error e => simp [attrs]
  | nonterminal n =>
    cases h : n.left? <;> cases h' : n.right? <;>
      simp [attrs, Production.attrs, h, h', attrOf?]

/-- A node has both endpoints among its attributes or neither. -/
theorem left_mem_attrs_iff (t : Node L V) :
    "left" ∈ t.attrs.map Prod.fst ↔ "right" ∈ t.attrs.map Prod.fst := by
  cases t with
  | terminal t => simp [attrs]
  | error e => simp [attrs]
  | nonterminal n =>
    have hboth : n.left?.isSome = n.right?.isSome := isSome_leftmost n.children
    cases h : n.left? <;> cases h' : n.right? <;> rw [h, h'] at hboth <;>
      simp [attrs, Production.attrs, h, h', attrOf?] at hboth ⊢

end Endpoints

/-- The text in the element of a node, which only a token with a value has. -/
def payload? [Display V] : Node L V → Option String
  | terminal t => t.value.map displayText
  | _ => none

/-! ## The places of the nodes among the calls -/

variable [Display L] [Display V]

mutual

/-- The calls for a tree begin as many elements as the tree has nodes, and end all of them. -/
theorem after_events (n : Nesting) :
    ∀ t : Node L V, n.after t.item.events = ⟨n.unended, n.begun + t.size⟩
  | terminal ⟨left, tag, value, right⟩ => by
    cases value <;> rfl
  | error e => rfl
  | nonterminal ⟨tag, variant, cs⟩ => by
    rw [item, Nesting.after_element, after_eventsAll _ cs, size, ← Nat.add_assoc,
      Nat.add_right_comm]
    rfl

/-- The same for several trees, which begin as many elements as they have nodes. -/
theorem after_eventsAll (n : Nesting) :
    ∀ cs : List (Node L V),
      n.after (Item.eventsAll (items cs)) = ⟨n.unended, n.begun + sizeAll cs⟩
  | [] => rfl
  | c :: cs => by
    rw [items, Item.eventsAll, Nesting.after_append, after_events n c, after_eventsAll _ cs,
      sizeAll, Nat.add_assoc]

end

/-- One element is begun for each node. -/
theorem countP_isStart_events (t : Node L V) : t.item.events.countP Event.isStart = t.size := by
  have hbegun := Nesting.begun_after .zero t.item.events
  rw [t.after_events] at hbegun
  exact Nat.add_left_cancel hbegun.symm

/-- The element of a node as it begins, given the path of the node. -/
def opening (p : List Nat × Node L V) : Opening := ⟨p.1.tail, p.2.elementName, p.2.attrs⟩

/-- The text in the element of a node, if there is one, with the path of the node. -/
def placedPayload? (p : List Nat × Node L V) : Option (List Nat × String) :=
  p.2.payload?.map fun s => (p.1, s)

mutual

/-- The elements in the calls for a tree begin in the order of its nodes, each in its place. -/
theorem openings_events_append (n : Nesting) (es : List Event) :
    ∀ t : Node L V, openings n (t.item.events ++ es) =
      (t.paths n.unended n.begun).map opening ++ openings ⟨n.unended, n.begun + t.size⟩ es
  | terminal ⟨left, tag, value, right⟩ => by
    rw [item, Terminal.item, openings_element_append]
    cases value <;> rfl
  | error e => by
    rw [item, ErrorNode.item, openings_element_append]
    rfl
  | nonterminal ⟨tag, variant, cs⟩ => by
    rw [item, openings_element_append, openings_eventsAll_append _ _ cs, paths, size,
      ← Nat.add_assoc, Nat.add_right_comm]
    rfl

/-- The same for several trees, numbered from the elements begun before them. -/
theorem openings_eventsAll_append (n : Nesting) (es : List Event) :
    ∀ cs : List (Node L V), openings n (Item.eventsAll (items cs) ++ es) =
      (pathsAll n.unended n.begun cs).map opening ++ openings ⟨n.unended, n.begun + sizeAll cs⟩ es
  | [] => rfl
  | c :: cs => by
    rw [items, Item.eventsAll, List.append_assoc, openings_events_append n _ c,
      openings_eventsAll_append _ es cs, pathsAll, sizeAll, List.map_append, List.append_assoc,
      Nat.add_assoc]

end

mutual

/-- The texts in the calls for a tree are the values of its tokens, each in its place. -/
theorem texts_events_append (n : Nesting) (es : List Event) :
    ∀ t : Node L V, texts n (t.item.events ++ es) =
      (t.paths n.unended n.begun).filterMap placedPayload? ++
        texts ⟨n.unended, n.begun + t.size⟩ es
  | terminal ⟨left, tag, value, right⟩ => by
    rw [item, Terminal.item, texts_element_append]
    cases value <;> rfl
  | error e => by
    rw [item, ErrorNode.item, texts_element_append]
    rfl
  | nonterminal ⟨tag, variant, cs⟩ => by
    rw [item, texts_element_append, texts_eventsAll_append _ _ cs, paths, size,
      ← Nat.add_assoc, Nat.add_right_comm]
    rfl

/-- The same for several trees. -/
theorem texts_eventsAll_append (n : Nesting) (es : List Event) :
    ∀ cs : List (Node L V), texts n (Item.eventsAll (items cs) ++ es) =
      (pathsAll n.unended n.begun cs).filterMap placedPayload? ++
        texts ⟨n.unended, n.begun + sizeAll cs⟩ es
  | [] => rfl
  | c :: cs => by
    rw [items, Item.eventsAll, List.append_assoc, texts_events_append n _ c,
      texts_eventsAll_append _ es cs, pathsAll, sizeAll, List.filterMap_append, List.append_assoc,
      Nat.add_assoc]

end

mutual

/-- A tree passes on no processing instruction. -/
theorem instruction_not_mem_events (target data : String) :
    ∀ t : Node L V, .instruction target data ∉ t.item.events
  | terminal ⟨left, tag, value, right⟩ => by
    cases value <;>
      simp [item, Terminal.item, Item.events, Item.eventsAll, attrEvents]
  | error e => by simp [item, ErrorNode.item, Item.events, Item.eventsAll, attrEvents]
  | nonterminal ⟨tag, variant, cs⟩ => by
    simp [item, Item.events, attrEvents, instruction_not_mem_eventsAll target data cs]

/-- The same for several trees. -/
theorem instruction_not_mem_eventsAll (target data : String) :
    ∀ cs : List (Node L V), .instruction target data ∉ Item.eventsAll (items cs)
  | [] => List.not_mem_nil
  | c :: cs => by
    simp [items, Item.eventsAll, instruction_not_mem_events target data c,
      instruction_not_mem_eventsAll target data cs]

end

/-- That some events show a tree, and keep the discipline of calls. -/
structure ShownBy (t : Node L V) (body : List Event) : Prop where
  /-- There is nothing but elements and texts. -/
  content : ∀ e ∈ body, e.isContent = true ∧ ∀ target data, e ≠ .instruction target data
  /-- Every attribute follows the start of its element or another attribute, and every end finds an
  open element. -/
  placed : ∀ before e after, body = before ++ e :: after → ¬ Misplaced before e
  /-- Every element ends. -/
  balanced : (Nesting.zero.after body).unended = []
  /-- There is a start for each node. -/
  starts : body.countP Event.isStart = (t.preorder 1).length
  /-- There is an end for each node. -/
  ends : body.count .endElement = (t.preorder 1).length
  /-- The elements begin in the order of the nodes, each in as many others as its node has
  ancestors. -/
  order : ((openings .zero body).map fun o => (o.inside.length + 1, o.name)) =
    (t.preorder 1).map fun p => (p.1, p.2.elementName)
  /-- Each begins in the elements of the ancestors of its node, and is followed by all attributes of
  the node. -/
  openings : openings .zero body = (t.paths [] 0).map opening
  /-- No element has two attributes of one name. -/
  nodup : ∀ o ∈ ParseMarkup.openings .zero body, (o.attrs.map Prod.fst).Nodup
  /-- An element has both endpoints or neither. -/
  span : ∀ o ∈ ParseMarkup.openings .zero body,
    ("left" ∈ o.attrs.map Prod.fst ↔ "right" ∈ o.attrs.map Prod.fst)
  /-- The texts are those of the tokens with a value, each inside the element of its token. -/
  texts : texts .zero body = (t.paths [] 0).filterMap placedPayload?

/-- The calls for a tree show it. -/
theorem shownBy_events (t : Node L V) : t.ShownBy t.item.events := by
  have hcontent : ∀ e ∈ t.item.events, e.isContent = true := fun e hmem =>
    Item.isContent_of_mem_events t.item hmem
  have hstarts : t.item.events.countP Event.isStart = (t.preorder 1).length := by
    rw [t.countP_isStart_events, t.length_preorder]
  have hopenings : openings .zero t.item.events = (t.paths [] 0).map opening := by
    have heq := t.openings_events_append .zero []
    rwa [List.append_nil, ParseMarkup.openings, List.append_nil] at heq
  have hopened :
      ∀ o ∈ ParseMarkup.openings .zero t.item.events, ∃ p : Node L V, o.attrs = p.attrs := by
    rw [hopenings]
    intro o hmem
    obtain ⟨p, -, rfl⟩ := List.mem_map.1 hmem
    exact ⟨p.2, rfl⟩
  have hbalanced := congrArg Nesting.unended (t.after_events .zero)
  refine ⟨?_, ?_, hbalanced, hstarts, ?_, ?_, hopenings, ?_, ?_, ?_⟩
  · intro e hmem
    refine ⟨hcontent e hmem, ?_⟩
    rintro target data rfl
    exact t.instruction_not_mem_events target data hmem
  · -- a writer over memory takes them all, and it takes nothing that is misplaced
    intro before e after hsplit
    have htaken := XmlWriter.replay_events t.item "" [] false
    rw [hsplit] at htaken hcontent
    exact XmlWriter.not_misplaced_of_replay hcontent htaken
  · rw [← Item.countP_isStart_events, hstarts]
  · -- an opening at a path lies as deep as the path is long
    have hdepths : (t.paths [] 0).map (fun p => (p.1.length, p.2)) = t.preorder 1 :=
      t.map_paths [] 0
    rw [hopenings, ← hdepths, List.map_map, List.map_map]
    refine List.map_congr_left fun p hmem => ?_
    exact congrArg (·, p.2.elementName) (length_tail_of_mem_paths hmem)
  · intro o hmem
    obtain ⟨p, heq⟩ := hopened o hmem
    rw [heq]
    exact p.nodup_attrs
  · intro o hmem
    obtain ⟨p, heq⟩ := hopened o hmem
    rw [heq]
    exact p.left_mem_attrs_iff
  · have heq := t.texts_events_append .zero []
    rwa [List.append_nil, ParseMarkup.texts, List.append_nil] at heq

/-- A dump records the start of a document and its stylesheet, then calls that show the tree, then
the end, a flush and the closing. These calls alone are made when the tree is written into a
document that is under way: an open writer over memory takes them all, whatever elements are open
and whether a start tag is pending. The open elements are the same afterwards, no start tag is
pending, and the text has grown by the end of the pending tag and by a text that depends on the
tree alone. -/
theorem dump_write_shownBy (t : Node L V) :
    ∃ body text,
      (t.dump Recorder.empty).sink.events.toList =
        [.startDocument, .instruction "xml-stylesheet" "href=\"tree.xsl\" type=\"text/xsl\""] ++
          body ++ [.endDocument, .flush, .close] ∧
      (t.write Recorder.empty).sink.events.toList = body ∧
      t.ShownBy body ∧
      ∀ before openElements isPending,
        (t.write (⟨⟨before⟩, openElements, isPending, false⟩ : XmlWriter TextBuffer)).ending =
          (none, ⟨⟨before ++ XmlWriter.pendingEnd isPending ++ text⟩, openElements, false,
            false⟩) := by
  refine ⟨t.item.events, t.item.xml, ?_, t.events_write_recorder, t.shownBy_events, ?_⟩
  · have hscript : t.script DumpConfig.default.maxDepth = ⟨t.item.events, none⟩ :=
      t.script_unlimited
    have hdata : DumpConfig.default.stylesheet.data = "href=\"tree.xsl\" type=\"text/xsl\"" := by
      decide
    rw [dump, (t.recorded_dumpWith .default).1, documentScript_eq, hscript, hdata]
    simp [Script.append, DumpConfig.default]
  · intro before openElements isPending
    rw [t.ending_write, script_unlimited, Script.play, XmlWriter.replay_events]

end Node

end ParseMarkup
