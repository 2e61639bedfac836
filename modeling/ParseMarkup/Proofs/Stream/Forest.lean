import ParseMarkup.Stream.Event

/-!
# Forests of elements

What a well-nested list of events stands for: elements with attributes and content, in order. An
event list is flat; the content of an element lies between its start and its end.

The module introduces:

* `Item`: a text, a processing instruction or an element, and `Item.events`, its events in order;
* `Item.ofEvents`: the forest of an event list, if the list is well nested and every attribute
  follows the start of its element or another attribute.

The main statement is `ofEvents_eq_some_iff`: the forest can be read back from its events, so no two
forests have the same events, and a list of any other events stands for none.
-/

namespace ParseMarkup

/-- A part of the content of a document. -/
inductive Item where
  /-- Text. -/
  | text (s : String)
  /-- A processing instruction. -/
  | instruction (target data : String)
  /-- An element, with its attributes and its content in order. -/
  | element (name : String) (attrs : List (String × String)) (content : List Item)

/-- The events that say the attributes of an element. -/
def attrEvents (attrs : List (String × String)) : List Event :=
  attrs.map fun a => .attr a.1 a.2

theorem attrEvents_cons (a : String × String) (attrs : List (String × String)) :
    attrEvents (a :: attrs) = .attr a.1 a.2 :: attrEvents attrs := rfl

theorem attrEvents_append (first second : List (String × String)) :
    attrEvents (first ++ second) = attrEvents first ++ attrEvents second :=
  List.map_append

/-- Attributes as they stand in a start tag: a blank before each, the value between quotes and
encoded. -/
def tagAttrs (encode : String → String) : List (String × String) → String
  | [] => ""
  | (name, value) :: rest =>
    " " ++ name ++ "=\"" ++ encode value ++ "\"" ++ tagAttrs encode rest

/-- Attributes are written one after the other, each with a blank before it. -/
theorem tagAttrs_append (encode : String → String) (first second : List (String × String)) :
    tagAttrs encode (first ++ second) = tagAttrs encode first ++ tagAttrs encode second := by
  induction first with
  | nil => simp [tagAttrs]
  | cons a attrs ih => simp [tagAttrs, ih, String.append_assoc]

/-! ## Events of items -/

namespace Item

mutual

/-- The events of an item. -/
def events : Item → List Event
  | text s => [.characters s]
  | instruction target data => [.instruction target data]
  | element name attrs content =>
    .startElement name :: attrEvents attrs ++ eventsAll content ++ [.endElement]

/-- The events of several items, one after the other. -/
def eventsAll : List Item → List Event
  | [] => []
  | i :: is => events i ++ eventsAll is

end

/-! ## Reading a forest back -/

/-- What is known of an element whose end has been met, reading from the back. -/
structure Frame where
  /-- Its attributes. -/
  attrs : List (String × String)
  /-- Its content. -/
  content : List Item

/-- Add an item in front of the content of the innermost frame. Attributes may not follow it. -/
def Frame.push (i : Item) : List Frame → Option (List Frame)
  | ⟨[], content⟩ :: frames => some (⟨[], i :: content⟩ :: frames)
  | _ => none

/-- Read one event, which comes before those that have made the frames. The innermost element is
first; the last frame is that of the forest. -/
def stepBack : Event → List Frame → Option (List Frame)
  -- from the back, an element begins with its end
  | .endElement, frames => some (⟨[], []⟩ :: frames)
  | .characters s, frames => Frame.push (text s) frames
  | .instruction target data, frames => Frame.push (instruction target data) frames
  -- once an attribute was met, nothing but attributes and the start may come before it
  | .attr name value, ⟨attrs, content⟩ :: frames =>
    some (⟨(name, value) :: attrs, content⟩ :: frames)
  | .startElement name, ⟨attrs, content⟩ :: frames => Frame.push (element name attrs content) frames
  | _, _ => none

/-- Read events from the back. -/
def readBack : List Event → Option (List Frame)
  | [] => some [⟨[], []⟩]
  | e :: es => (readBack es).bind (stepBack e)

/-- The forest that a list of events stands for, if it stands for one. -/
def ofEvents (es : List Event) : Option (List Item) :=
  match readBack es with
  | some [⟨[], content⟩] => some content
  | _ => none

/-- Read from the end, attributes are those of an element whose start is still to come. -/
theorem readBack_attrEvents (attrs : List (String × String)) {es : List Event}
    {content : List Item} {frames : List Frame} (h : readBack es = some (⟨[], content⟩ :: frames)) :
    readBack (attrEvents attrs ++ es) = some (⟨attrs, content⟩ :: frames) := by
  -- the first attribute is met last, so the induction needs no other frame
  induction attrs with
  | nil => exact h
  | cons a attrs ih =>
    change (readBack (attrEvents attrs ++ es)).bind (stepBack (.attr a.1 a.2)) = _
    rw [ih]
    rfl

mutual

/-- Reading the events of an item adds the item to the innermost frame. -/
theorem readBack_events {es : List Event} {content : List Item} {frames : List Frame}
    (h : readBack es = some (⟨[], content⟩ :: frames)) :
    ∀ i : Item, readBack (i.events ++ es) = some (⟨[], i :: content⟩ :: frames)
  | text s => by
    change (readBack es).bind (stepBack (.characters s)) = _
    rw [h]
    rfl
  | instruction target data => by
    change (readBack es).bind (stepBack (.instruction target data)) = _
    rw [h]
    rfl
  | element name attrs inner => by
    -- the end opens a frame, the content and the attributes fill it, and the start takes it away
    have hopened : readBack (.endElement :: es) = some (⟨[], []⟩ :: ⟨[], content⟩ :: frames) := by
      rw [readBack, h]
      rfl
    have hfilled := readBack_attrEvents attrs (readBack_eventsAll hopened inner)
    rw [List.append_nil] at hfilled
    have heq : (element name attrs inner).events ++ es =
        .startElement name :: (attrEvents attrs ++ (eventsAll inner ++ .endElement :: es)) := by
      simp [events]
    rw [heq, readBack, hfilled]
    rfl

/-- The same for several items. -/
theorem readBack_eventsAll {es : List Event} {content : List Item} {frames : List Frame}
    (h : readBack es = some (⟨[], content⟩ :: frames)) :
    ∀ is : List Item, readBack (eventsAll is ++ es) = some (⟨[], is ++ content⟩ :: frames)
  | [] => h
  | i :: is => by
    rw [eventsAll, List.append_assoc]
    exact readBack_events (readBack_eventsAll h is) i

end

/-- A forest is read back from its events. -/
theorem ofEvents_eventsAll (is : List Item) : ofEvents (eventsAll is) = some is := by
  have hstart : readBack [] = some [⟨[], []⟩] := rfl
  have h := readBack_eventsAll hstart is
  rw [List.append_nil, List.append_nil] at h
  rw [ofEvents, h]

/-- An item is read back from its events. -/
theorem ofEvents_events (i : Item) : ofEvents i.events = some [i] := by
  have h := ofEvents_eventsAll [i]
  rwa [eventsAll, eventsAll, List.append_nil] at h

/-! ## Nothing else is read -/

/-- The events that a frame was read from. -/
def Frame.events (f : Frame) : List Event := attrEvents f.attrs ++ eventsAll f.content

/-- The events that frames were read from. Each frame but the innermost follows an end. -/
def framesEvents : List Frame → List Event
  | [] => []
  | f :: frames => f.events ++ frames.flatMap fun g => .endElement :: g.events

/-- An item can be put only into a frame that has no attributes. -/
theorem Frame.exists_of_push {i : Item} {frames frames' : List Frame}
    (h : Frame.push i frames = some frames') :
    ∃ content rest, frames = ⟨[], content⟩ :: rest ∧ frames' = ⟨[], i :: content⟩ :: rest := by
  unfold Frame.push at h
  split at h
  · rename_i content rest
    exact ⟨content, rest, rfl, (Option.some.inj h).symm⟩
  · cases h

/-- An item is pushed into the innermost frame only if that has no attributes yet. -/
theorem Frame.eq_of_push {i : Item} {attrs : List (String × String)} {content : List Item}
    {frames frames' : List Frame} (h : Frame.push i (⟨attrs, content⟩ :: frames) = some frames') :
    attrs = [] ∧ frames' = ⟨[], i :: content⟩ :: frames := by
  obtain ⟨content', rest, heq, rfl⟩ := Frame.exists_of_push h
  obtain ⟨⟨rfl, rfl⟩, rfl⟩ : (attrs = [] ∧ content = content') ∧ frames = rest := by
    simpa using heq
  exact ⟨rfl, rfl⟩

/-- Frames have one more event in front after one more step. -/
theorem framesEvents_of_stepBack {e : Event} {frames frames' : List Frame}
    (hnonempty : frames ≠ []) (h : stepBack e frames = some frames') :
    frames' ≠ [] ∧ framesEvents frames' = e :: framesEvents frames := by
  obtain ⟨⟨attrs, content⟩, frames, rfl⟩ := List.exists_cons_of_ne_nil hnonempty
  cases e with
  | endElement =>
    obtain rfl := Option.some.inj h
    exact ⟨List.cons_ne_nil _ _, by simp [framesEvents, Frame.events, attrEvents, eventsAll]⟩
  | attr name value =>
    obtain rfl := Option.some.inj h
    exact ⟨List.cons_ne_nil _ _, rfl⟩
  | characters s =>
    obtain ⟨rfl, rfl⟩ := Frame.eq_of_push h
    exact ⟨List.cons_ne_nil _ _, rfl⟩
  | instruction target data =>
    obtain ⟨rfl, rfl⟩ := Frame.eq_of_push h
    exact ⟨List.cons_ne_nil _ _, rfl⟩
  | startElement name =>
    -- the start takes the innermost frame away and makes an element of it
    obtain ⟨content', rest, rfl, rfl⟩ := Frame.exists_of_push h
    refine ⟨List.cons_ne_nil _ _, ?_⟩
    simp [framesEvents, Frame.events, attrEvents, eventsAll, events]
  | startDocument => cases h
  | endDocument => cases h
  | flush => cases h
  | close => cases h

/-- What is read back from some events has these events, so nothing is lost. -/
theorem framesEvents_of_readBack {es : List Event} {frames : List Frame}
    (h : readBack es = some frames) : frames ≠ [] ∧ framesEvents frames = es := by
  induction es generalizing frames with
  | nil =>
    obtain rfl := Option.some.inj h
    exact ⟨List.cons_ne_nil _ _, rfl⟩
  | cons e es ih =>
    obtain ⟨later, hread, hstepped⟩ := Option.bind_eq_some_iff.1 h
    obtain ⟨hnonempty, rfl⟩ := ih hread
    exact framesEvents_of_stepBack hnonempty hstepped

/-- A list of events stands for a forest exactly if it is the events of that forest. -/
theorem ofEvents_eq_some_iff {es : List Event} {forest : List Item} :
    ofEvents es = some forest ↔ eventsAll forest = es := by
  constructor
  · intro h
    unfold ofEvents at h
    split at h
    · rename_i content hread
      obtain rfl := Option.some.inj h
      obtain ⟨-, rfl⟩ := framesEvents_of_readBack hread
      simp [framesEvents, Frame.events, attrEvents]
    · cases h
  · rintro rfl
    exact ofEvents_eventsAll forest

end Item

/-! ## What may stand in an item -/

/-- Whether an event may stand among the events of an item, and not only around them. -/
def Event.isContent : Event → Bool
  | .instruction .. => true
  | .startElement _ => true
  | .attr .. => true
  | .characters _ => true
  | .endElement => true
  | _ => false

theorem isContent_of_mem_attrEvents {attrs : List (String × String)} {e : Event}
    (h : e ∈ attrEvents attrs) : e.isContent = true := by
  obtain ⟨a, -, rfl⟩ := List.mem_map.1 h
  rfl

namespace Item

mutual

/-- All the events of an item are content: nothing in it begins, ends, flushes or closes a
document. -/
theorem isContent_of_mem_events {e : Event} : ∀ i : Item, e ∈ i.events → e.isContent = true
  | text s, h => by
    rw [List.mem_singleton.1 h]
    rfl
  | instruction target data, h => by
    rw [List.mem_singleton.1 h]
    rfl
  | element name attrs content, h => by
    simp only [events, List.mem_append, List.mem_cons, List.not_mem_nil, or_false] at h
    rcases h with ((rfl | h) | h) | rfl
    · rfl
    · exact isContent_of_mem_attrEvents h
    · exact isContent_of_mem_eventsAll content h
    · rfl

/-- The same for several items. -/
theorem isContent_of_mem_eventsAll {e : Event} :
    ∀ is : List Item, e ∈ eventsAll is → e.isContent = true
  | i :: is, h => by
    rcases List.mem_append.1 h with h | h
    · exact isContent_of_mem_events i h
    · exact isContent_of_mem_eventsAll is h

end

end Item

end ParseMarkup
