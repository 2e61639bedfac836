import ParseMarkup.Proofs.Dump.Replay
import ParseMarkup.Xml.Writer

/-!
# Forests as XML text

What an XML writer makes of a well-nested list of events, if its transport takes everything.

The module introduces `Item.xml`, the text of an item, and shows for each call of an open writer
over memory what it does to the state of the writer (`XmlWriter.call_startElement` and so on).

The main statement is `XmlWriter.replay_events`: whatever elements are open, and whether a start
tag is pending or not, the events of an item are all taken, the elements open before are open
afterwards, no start tag is pending, and the text has grown by the text of the item.
-/

namespace ParseMarkup

namespace Item

mutual

/-- The text of an item. An element without content closes its tag itself. -/
def xml : Item → String
  | text s => Xml.escape s
  | instruction target data =>
    "<?" ++ target ++ (if data.isEmpty then "" else " " ++ data) ++ "?>"
  | element name attrs [] => "<" ++ name ++ tagAttrs Xml.escape attrs ++ "/>"
  | element name attrs (i :: is) =>
    "<" ++ name ++ tagAttrs Xml.escape attrs ++ ">" ++ xmlAll (i :: is) ++ "</" ++ name ++ ">"

/-- The text of several items, one after the other. -/
def xmlAll : List Item → String
  | [] => ""
  | i :: is => xml i ++ xmlAll is

end

end Item

namespace XmlWriter

/-- The end that the start tag of the innermost element still lacks. -/
def pendingEnd (isPending : Bool) : String := if isPending then ">" else ""

@[simp] theorem pendingEnd_false : pendingEnd false = "" := rfl

@[simp] theorem pendingEnd_true : pendingEnd true = ">" := rfl

/-! ## Single calls -/

/-- Looking at the state changes nothing. -/
theorem get_apply {ω : Type} (w : XmlWriter ω) :
    (get : StreamM (XmlWriter ω) (XmlWriter ω)) w = .ok w w := rfl

section Memory

variable (text : String) (openElements : List String) (isPending : Bool)

/-- The prologue goes right behind the text, even into a pending start tag. -/
theorem call_startDocument :
    Sink.call .startDocument (⟨⟨text⟩, openElements, isPending, false⟩ : XmlWriter TextBuffer) =
      .ok () ⟨⟨text ++ "<?xml version=\"1.0\"?>"⟩, openElements, isPending, false⟩ := rfl

/-- An instruction completes a pending start tag first. -/
theorem call_instruction (target data : String) :
    Sink.call (.instruction target data)
        (⟨⟨text⟩, openElements, isPending, false⟩ : XmlWriter TextBuffer) =
      .ok () ⟨⟨text ++ pendingEnd isPending ++ (Item.instruction target data).xml⟩, openElements,
        false, false⟩ := by
  cases isPending <;> cases h : data.isEmpty <;>
    simp [-String.reduceAppend, Sink.call, call, instruction, ensureOpen, finishStartTag,
      setStartTagOpen, raw, onTransport, bind, EStateM.bind, get_apply, pure, EStateM.pure, h,
      Item.xml, String.append_assoc]

/-- The start of an element completes a pending start tag and leaves its own pending. -/
theorem call_startElement (name : String) :
    Sink.call (.startElement name)
        (⟨⟨text⟩, openElements, isPending, false⟩ : XmlWriter TextBuffer) =
      .ok () ⟨⟨text ++ pendingEnd isPending ++ "<" ++ name⟩, name :: openElements, true,
        false⟩ := by
  cases isPending
  · rw [pendingEnd_false, String.append_empty]
    rfl
  · rfl

/-- An attribute goes into the pending start tag, escaped. -/
theorem call_attr (name value : String) :
    Sink.call (.attr name value) (⟨⟨text⟩, openElements, true, false⟩ : XmlWriter TextBuffer) =
      .ok () ⟨⟨text ++ " " ++ name ++ "=\"" ++ Xml.escape value ++ "\""⟩, openElements, true,
        false⟩ := rfl

/-- A text completes a pending start tag first and is escaped. -/
theorem call_characters (s : String) :
    Sink.call (.characters s)
        (⟨⟨text⟩, openElements, isPending, false⟩ : XmlWriter TextBuffer) =
      .ok () ⟨⟨text ++ pendingEnd isPending ++ Xml.escape s⟩, openElements, false, false⟩ := by
  cases isPending
  · rw [pendingEnd_false, String.append_empty]
    rfl
  · rfl

/-- An element that ends in its start tag closes itself. -/
theorem call_endElement_pending (name : String) :
    Sink.call .endElement (⟨⟨text⟩, name :: openElements, true, false⟩ : XmlWriter TextBuffer) =
      .ok () ⟨⟨text ++ "/>"⟩, openElements, false, false⟩ := rfl

/-- Any other element gets an end tag. -/
theorem call_endElement (name : String) :
    Sink.call .endElement (⟨⟨text⟩, name :: openElements, false, false⟩ : XmlWriter TextBuffer) =
      .ok () ⟨⟨text ++ "</" ++ name ++ ">"⟩, openElements, false, false⟩ := rfl

/-- When no element is open there is nothing to end. -/
theorem call_endDocument_nil :
    Sink.call .endDocument (⟨⟨text⟩, [], isPending, false⟩ : XmlWriter TextBuffer) =
      .ok () ⟨⟨text⟩, [], isPending, false⟩ := rfl

end Memory

/-! ## Lists of calls -/

/-- Attributes are written into the pending start tag in their order. -/
theorem replay_attrEvents (attrs : List (String × String)) (text : String)
    (openElements : List String) :
    replay (attrEvents attrs) (⟨⟨text⟩, openElements, true, false⟩ : XmlWriter TextBuffer) =
      .ok () ⟨⟨text ++ tagAttrs Xml.escape attrs⟩, openElements, true, false⟩ := by
  induction attrs generalizing text with
  | nil =>
    rw [tagAttrs, String.append_empty]
    rfl
  | cons a attrs ih =>
    rw [attrEvents_cons, replay_cons_ok (call_attr _ _ _ _), ih, tagAttrs]
    simp only [String.append_assoc]

mutual

/-- The events of an item add its text and leave the open elements as they were, whether a start
tag is pending before or not. -/
theorem replay_events : ∀ (i : Item) (text : String) (openElements : List String)
    (isPending : Bool),
    replay i.events (⟨⟨text⟩, openElements, isPending, false⟩ : XmlWriter TextBuffer) =
      .ok () ⟨⟨text ++ pendingEnd isPending ++ i.xml⟩, openElements, false, false⟩
  | .text s, text, openElements, isPending => by
    rw [Item.events, replay_cons_ok (call_characters _ _ _ _), Item.xml]
    rfl
  | .instruction target data, text, openElements, isPending => by
    rw [Item.events, replay_cons_ok (call_instruction _ _ _ _ _)]
    rfl
  | .element name attrs [], text, openElements, isPending => by
    -- nothing comes between the start and the end, which closes the pending tag
    rw [Item.events, Item.eventsAll, List.append_nil, List.cons_append,
      replay_cons_ok (call_startElement _ _ _ _), replay_append_ok (replay_attrEvents _ _ _),
      replay_cons_ok (call_endElement_pending _ _ _), Item.xml]
    simp only [String.append_assoc]
    rfl
  | .element name attrs (i :: is), text, openElements, isPending => by
    -- the first item of the content finds the start tag pending, the others do not
    rw [Item.events, Item.eventsAll, List.cons_append, List.cons_append, List.append_assoc,
      replay_cons_ok (call_startElement _ _ _ _), replay_append_ok (replay_attrEvents _ _ _),
      List.append_assoc, replay_append_ok (replay_events i _ _ _),
      replay_append_ok (replay_eventsAll is _ _), replay_cons_ok (call_endElement _ _ _), Item.xml,
      Item.xmlAll]
    simp only [String.append_assoc, pendingEnd_true]
    rfl

/-- The same for several items, after each of which no start tag is pending. -/
theorem replay_eventsAll : ∀ (is : List Item) (text : String) (openElements : List String),
    replay (Item.eventsAll is) (⟨⟨text⟩, openElements, false, false⟩ : XmlWriter TextBuffer) =
      .ok () ⟨⟨text ++ Item.xmlAll is⟩, openElements, false, false⟩
  | [], text, openElements => by
    rw [Item.xmlAll, String.append_empty]
    rfl
  | i :: is, text, openElements => by
    rw [Item.eventsAll, replay_append_ok (replay_events i _ _ _), replay_eventsAll is, Item.xmlAll,
      pendingEnd_false, String.append_empty, String.append_assoc]

end

end XmlWriter

end ParseMarkup
