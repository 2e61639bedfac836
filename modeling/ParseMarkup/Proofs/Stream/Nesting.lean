import ParseMarkup.Proofs.Stream.Forest

/-!
# Nesting of events

What a flat list of events says about elements, read from the front: which elements have begun and
not ended, and in which of them an event stands. Elements have no identity in such a list, so they
are numbered by their order of beginning.

The module introduces:

* `Nesting`: which elements are open after some events, and how many have begun;
* `Misplaced`: that an event breaks the discipline of calls, given the events before it;
* `openings` and `texts`: the elements of a list and its texts, each with the elements around it.

All of this is stated for lists of events alone, and so holds for whatever makes the calls.
-/

namespace ParseMarkup

/-! ## Open elements -/

/-- Which elements some events leave open. Elements are numbered from 0 in the order in which they
begin. -/
structure Nesting where
  /-- The numbers of the elements that have not ended, innermost first. -/
  unended : List Nat
  /-- How many elements have begun. -/
  begun : Nat
  deriving DecidableEq, Repr

namespace Nesting

/-- Nothing has begun. -/
def zero : Nesting := ⟨[], 0⟩

/-- One more event. An end without an open element changes nothing. -/
def step (n : Nesting) : Event → Nesting
  | .startElement _ => ⟨n.begun :: n.unended, n.begun + 1⟩
  | .endElement => ⟨n.unended.tail, n.begun⟩
  | _ => n

/-- More events, in order. -/
def after (n : Nesting) (es : List Event) : Nesting := es.foldl step n

@[simp] theorem after_nil (n : Nesting) : n.after [] = n := rfl

@[simp] theorem after_cons (n : Nesting) (e : Event) (es : List Event) :
    n.after (e :: es) = (n.step e).after es := rfl

@[simp] theorem after_append (n : Nesting) (first second : List Event) :
    n.after (first ++ second) = (n.after first).after second :=
  List.foldl_append

@[simp] theorem after_attrEvents (n : Nesting) (attrs : List (String × String)) :
    n.after (attrEvents attrs) = n := by
  induction attrs with
  | nil => rfl
  | cons a attrs ih => exact ih

end Nesting

/-! ## The discipline of calls -/

/-- Whether an event stands in a start tag: it starts an element or is an attribute. -/
def Event.isInTag : Event → Bool
  | .startElement _ => true
  | .attr .. => true
  | _ => false

/-- Whether some events end in a start tag. -/
def endsInTag (es : List Event) : Bool := es.getLast?.any Event.isInTag

/-- That an event may not follow the events before it: an attribute that follows neither the start
of an element nor an attribute, or an end when every element that has begun has ended. -/
def Misplaced (before : List Event) : Event → Prop
  | .attr .. => endsInTag before = false
  | .endElement => (Nesting.zero.after before).unended = []
  | _ => False

/-- Whether a start tag is open after some calls depends on the last one only. -/
theorem endsInTag_concat (es : List Event) (e : Event) :
    endsInTag (es ++ [e]) = e.isInTag := by
  rw [endsInTag, List.getLast?_concat, Option.any_some]

/-! ## Elements and texts in their places -/

/-- Whether an event starts an element. -/
def Event.isStart : Event → Bool
  | .startElement _ => true
  | _ => false

/-- The attributes that some events begin with. -/
def leadingAttrs : List Event → List (String × String)
  | .attr name value :: es => (name, value) :: leadingAttrs es
  | _ => []

/-- An element as it begins in a list of events. -/
structure Opening where
  /-- The numbers of the elements it begins in, innermost first. -/
  inside : List Nat
  /-- Its name. -/
  name : String
  /-- The attributes that follow its start directly. -/
  attrs : List (String × String)
  deriving DecidableEq, Repr

/-- The elements of a list of events that comes after a nesting, in the order of their starts. -/
def openings (n : Nesting) : List Event → List Opening
  | [] => []
  | .startElement name :: es =>
    ⟨n.unended, name, leadingAttrs es⟩ :: openings (n.step (.startElement name)) es
  | e :: es => openings (n.step e) es

/-- The texts of a list of events that comes after a nesting, each with the numbers of the elements
that it stands in, innermost first. -/
def texts (n : Nesting) : List Event → List (List Nat × String)
  | [] => []
  | .characters s :: es => (n.unended, s) :: texts n es
  | e :: es => texts (n.step e) es

/-- The attributes at the front of some events, when no further one follows. -/
theorem leadingAttrs_attrEvents_append (attrs : List (String × String)) {es : List Event}
    (h : leadingAttrs es = []) : leadingAttrs (attrEvents attrs ++ es) = attrs := by
  induction attrs with
  | nil => exact h
  | cons a attrs ih =>
    rw [attrEvents_cons, List.cons_append, leadingAttrs, ih]

theorem openings_attrEvents_append (n : Nesting) (attrs : List (String × String))
    (es : List Event) : openings n (attrEvents attrs ++ es) = openings n es := by
  induction attrs with
  | nil => rfl
  | cons a attrs ih => exact ih

theorem texts_attrEvents_append (n : Nesting) (attrs : List (String × String)) (es : List Event) :
    texts n (attrEvents attrs ++ es) = texts n es := by
  induction attrs with
  | nil => rfl
  | cons a attrs ih => exact ih

theorem countP_isStart_attrEvents (attrs : List (String × String)) :
    (attrEvents attrs).countP Event.isStart = 0 := by
  rw [List.countP_eq_zero]
  intro e hmem
  obtain ⟨a, -, rfl⟩ := List.mem_map.1 hmem
  exact Bool.false_ne_true

/-- As many elements have begun as there are starts. -/
theorem Nesting.begun_after (n : Nesting) (es : List Event) :
    (n.after es).begun = n.begun + es.countP Event.isStart := by
  induction es generalizing n with
  | nil => rfl
  | cons e es ih =>
    rw [Nesting.after_cons, ih, List.countP_cons]
    cases e with
    | startElement name =>
      show n.begun + 1 + es.countP Event.isStart = n.begun + (es.countP Event.isStart + 1)
      omega
    | _ => rfl

namespace Item

mutual

/-- There are as many starts as ends in an item. -/
theorem countP_isStart_events :
    ∀ i : Item, i.events.countP Event.isStart = i.events.count .endElement
  | text s => rfl
  | instruction target data => rfl
  | element name attrs content => by
    have hnoEnd : (attrEvents attrs).count .endElement = 0 := by
      rw [List.count_eq_zero]
      intro hmem
      obtain ⟨a, -, heq⟩ := List.mem_map.1 hmem
      exact nomatch heq
    simp [events, List.countP_cons, Event.isStart, countP_isStart_attrEvents, hnoEnd,
      countP_isStart_eventsAll content]

theorem countP_isStart_eventsAll :
    ∀ is : List Item, (eventsAll is).countP Event.isStart = (eventsAll is).count .endElement
  | [] => rfl
  | i :: is => by
    rw [eventsAll, List.countP_append, List.count_append, countP_isStart_events i,
      countP_isStart_eventsAll is]

end

end Item

/-- What follows the attributes of an element is no attribute. -/
theorem leadingAttrs_eventsAll_append (content : List Item) (es : List Event) :
    leadingAttrs (Item.eventsAll content ++ .endElement :: es) = [] := by
  cases content with
  | nil => rfl
  | cons i is => cases i <;> rfl

/-- An element is begun, its content follows, and it is ended; its attributes change nothing. -/
theorem Nesting.after_element (n : Nesting) (name : String) (attrs : List (String × String))
    (content : List Item) :
    n.after (Item.element name attrs content).events =
      ((n.step (.startElement name)).after (Item.eventsAll content)).step .endElement := by
  simp [Item.events]

/-- The events of an element before others, with its start, attributes, content and end in view. -/
theorem Item.events_element_append (name : String) (attrs : List (String × String))
    (content : List Item) (es : List Event) :
    (Item.element name attrs content).events ++ es =
      .startElement name :: (attrEvents attrs ++
        (Item.eventsAll content ++ .endElement :: es)) := by
  simp [Item.events]

/-- The events of an element open it around those of its content. -/
theorem openings_element_append (n : Nesting) (name : String) (attrs : List (String × String))
    (content : List Item) (es : List Event) :
    openings n ((Item.element name attrs content).events ++ es) =
      ⟨n.unended, name, attrs⟩ ::
        openings (n.step (.startElement name)) (Item.eventsAll content ++ .endElement :: es) := by
  rw [Item.events_element_append, openings, openings_attrEvents_append,
    leadingAttrs_attrEvents_append attrs (leadingAttrs_eventsAll_append content es)]

example : openings .zero [.startElement "a", .attr "k" "v", .startElement "b", .endElement,
    .startElement "c", .endElement, .endElement] =
      [⟨[], "a", [("k", "v")]⟩, ⟨[0], "b", []⟩, ⟨[0], "c", []⟩] := by decide

/-- The texts in an element lie one level deeper than the element. -/
theorem texts_element_append (n : Nesting) (name : String) (attrs : List (String × String))
    (content : List Item) (es : List Event) :
    texts n ((Item.element name attrs content).events ++ es) =
      texts (n.step (.startElement name)) (Item.eventsAll content ++ .endElement :: es) := by
  rw [Item.events_element_append, texts, texts_attrEvents_append]
  exact fun s h => nomatch h

/-- The element with the number of the starts before it begins in those that are open there. -/
theorem getElem?_openings_append (n : Nesting) (before : List Event) (name : String)
    (after : List Event) :
    (openings n (before ++ .startElement name :: after))[before.countP Event.isStart]? =
      some ⟨(n.after before).unended, name, leadingAttrs after⟩ := by
  induction before generalizing n with
  | nil => rfl
  | cons e es ih =>
    rw [List.cons_append, List.countP_cons, Nesting.after_cons]
    cases e with
    | startElement name' => exact ih _
    | _ => exact ih _

end ParseMarkup
