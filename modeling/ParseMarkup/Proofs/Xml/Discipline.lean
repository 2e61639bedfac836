import ParseMarkup.Proofs.Stream.Calls
import ParseMarkup.Proofs.Stream.Nesting
import ParseMarkup.Proofs.Xml.Forest
import ParseMarkup.Proofs.Xml.Pieces

/-!
# Well-nested calls

An XML writer over memory takes a call exactly if it keeps the discipline of calls, and what it has
taken is the beginning of a forest, printed as that forest is. The writer itself keeps no more than
the names of the open elements and the mark of a pending start tag.

The module introduces `XmlWriter.Tracks`, that the state of a writer is that after some events. The
main statements:

* `XmlWriter.Tracks.call`: a call is refused exactly if it is misplaced;
* `XmlWriter.Tracks.replay_callAll`: what was refused leaves no trace;
* `XmlWriter.exists_forest_of_replay`: calls that were all taken, and the ends that they lack, are
  the events of a forest;
* `XmlWriter.callAll_new_memory`: which calls are refused, and what the end of the document makes of
  those that were not.
-/

namespace ParseMarkup

namespace XmlWriter

/-! ## The state of a writer and the events it has taken -/

/-- An open writer in the state in which some events leave it. -/
structure Tracks (taken : List Event) (w : XmlWriter TextBuffer) : Prop where
  /-- As many elements are open as have begun and not ended. -/
  depth : w.depth = (Nesting.zero.after taken).unended.length
  /-- A start tag is pending if the events end in one. -/
  pending : w.startTagOpen = endsInTag taken
  isOpen : w.closed = false

theorem tracks_new : Tracks [] (new {}) := ⟨rfl, rfl, rfl⟩

/-- However the element that is open ends, no start tag is pending afterwards. -/
theorem exists_call_endElement (text : String) (openElements : List String) (isPending : Bool)
    (name : String) :
    ∃ text', Sink.call .endElement
        (⟨⟨text⟩, name :: openElements, isPending, false⟩ : XmlWriter TextBuffer) =
      .ok () ⟨⟨text'⟩, openElements, false, false⟩ := by
  cases isPending
  · exact ⟨_, call_endElement _ _ _⟩
  · exact ⟨_, call_endElement_pending _ _ _⟩

/-- What one more event makes of the state is known from the event. -/
theorem tracks_concat {taken : List Event} {openElements : List String} (e : Event) (text : String)
    (hdepth : openElements.length = ((Nesting.zero.after taken).step e).unended.length) :
    Tracks (taken ++ [e]) ⟨⟨text⟩, openElements, e.isInTag, false⟩ where
  depth := by rwa [Nesting.after_append]
  pending := (endsInTag_concat taken e).symm
  isOpen := rfl

/-- A call for content that is not misplaced is taken and tracked, and one that is misplaced is
refused and changes nothing. -/
theorem Tracks.call {taken : List Event} {w : XmlWriter TextBuffer} (h : Tracks taken w)
    {e : Event} (hcontent : e.isContent = true) :
    (Misplaced taken e ∧ ∃ err, Sink.call e w = .error err w ∧ err.kind = .invalidInput) ∨
      (¬ Misplaced taken e ∧ ∃ w', Sink.call e w = .ok () w' ∧ Tracks (taken ++ [e]) w') := by
  obtain ⟨⟨text⟩, openElements, isPending, closed⟩ := w
  obtain ⟨hdepth, hpending, hopen⟩ := h
  cases hopen
  replace hdepth : openElements.length = (Nesting.zero.after taken).unended.length := hdepth
  replace hpending : isPending = endsInTag taken := hpending
  cases e with
  | instruction target data =>
    exact Or.inr ⟨id, _, call_instruction _ _ _ _ _,
      tracks_concat (.instruction target data) _ hdepth⟩
  | characters s =>
    exact Or.inr ⟨id, _, call_characters _ _ _ _, tracks_concat (.characters s) _ hdepth⟩
  | startElement name =>
    exact Or.inr ⟨id, _, call_startElement _ _ _ _,
      tracks_concat (.startElement name) _ (congrArg (· + 1) hdepth)⟩
  | attr name value =>
    cases isPending with
    | false => exact Or.inl ⟨hpending.symm, _, call_attr_refused _ _ _ _, rfl⟩
    | true =>
      refine Or.inr ⟨fun hmisplaced => ?_, _, call_attr _ _ _ _,
        tracks_concat (.attr name value) _ hdepth⟩
      exact Bool.false_ne_true (hmisplaced.symm.trans hpending.symm)
  | endElement =>
    cases openElements with
    | nil =>
      exact Or.inl ⟨List.length_eq_zero_iff.1 hdepth.symm, _, call_endElement_refused _ _, rfl⟩
    | cons name rest =>
      have hnonempty : (Nesting.zero.after taken).unended ≠ [] := by
        intro heq
        rw [heq] at hdepth
        cases hdepth
      -- the element that ends is the last that has begun and not ended
      have hdepth' : rest.length = (Nesting.zero.after taken).unended.tail.length := by
        rw [List.length_tail, ← hdepth]
        rfl
      obtain ⟨text', hended⟩ := exists_call_endElement text rest isPending name
      exact Or.inr ⟨hnonempty, _, hended, tracks_concat .endElement text' hdepth'⟩
  | _ => cases hcontent

/-- Flushing memory changes nothing. -/
theorem call_flush_memory {w : XmlWriter TextBuffer} (hopen : w.closed = false) :
    Sink.call .flush w = .ok () w := by
  obtain ⟨t, openElements, isPending, closed⟩ := w
  cases hopen
  rfl

/-! ## Many calls -/

/-- Calls that were refused, and flushes, leave no trace: the state is the one that the calls for
content that were taken lead to alone. -/
theorem Tracks.replay_callAll {before : List Event} {w : XmlWriter TextBuffer}
    (h : Tracks before w) {calls : List Event}
    (hbody : ∀ e ∈ calls, e.isContent = true ∨ e = .flush) :
    replay ((callAll calls w).1.filter Event.isContent) w = .ok () (callAll calls w).2 := by
  induction calls generalizing before w with
  | nil => rfl
  | cons e es ih =>
    obtain ⟨hfirst, hbody'⟩ := List.forall_mem_cons.1 hbody
    rcases hfirst with hcontent | rfl
    · rcases h.call hcontent with ⟨-, err, hrefused, -⟩ | ⟨-, w', hcalled, htracks⟩
      · -- a refused call leaves the writer as it was
        rw [callAll_cons_error hrefused]
        exact ih h hbody'
      · rw [callAll_cons_ok hcalled, List.filter_cons_of_pos hcontent, replay_cons_ok hcalled]
        exact ih htracks hbody'
    · -- over memory a flush is taken and changes nothing
      rw [callAll_cons_ok (call_flush_memory h.isOpen), List.filter_cons_of_neg (by decide)]
      exact ih h hbody'

/-- A writer tracks calls for content that it takes all. -/
theorem Tracks.of_replay {before es : List Event} {w w' : XmlWriter TextBuffer}
    (h : Tracks before w) (hcontent : ∀ e ∈ es, e.isContent = true)
    (htaken : replay es w = .ok () w') :
    Tracks (before ++ es) w' := by
  induction es generalizing before w with
  | nil =>
    cases htaken
    rwa [List.append_nil]
  | cons e es ih =>
    obtain ⟨hfirst, hcontent'⟩ := List.forall_mem_cons.1 hcontent
    rcases h.call hfirst with ⟨-, err, hrefused, -⟩ | ⟨-, w'', hcalled, htracks⟩
    · rw [replay_cons_error hrefused] at htaken
      cases htaken
    · rw [replay_cons_ok hcalled] at htaken
      rw [List.append_cons]
      exact ih htracks hcontent' htaken

/-- None of the calls that a new writer takes all is misplaced. -/
theorem not_misplaced_of_replay {before after : List Event} {e : Event}
    (hcontent : ∀ e' ∈ before ++ e :: after, e'.isContent = true) {w : XmlWriter TextBuffer}
    (htaken : replay (before ++ e :: after) (new {}) = .ok () w) :
    ¬ Misplaced before e := by
  intro hmisplaced
  obtain ⟨w', hbegun⟩ := exists_replay_of_append htaken
  rw [replay_append_ok hbegun] at htaken
  have htracks := tracks_new.of_replay
    (fun e' hmem => hcontent e' (List.mem_append_left _ hmem)) hbegun
  rcases htracks.call (hcontent e (List.mem_append_right _ (List.mem_cons_self ..))) with
    ⟨-, err, hrefused, -⟩ | ⟨hplaced, -⟩
  · rw [replay_cons_error hrefused] at htaken
    cases htaken
  · exact hplaced hmisplaced

/-! ## The forest of the calls that were taken -/

/-- Ends alone are read back as that many open elements with nothing in them. -/
theorem readBack_replicate_endElement (count : Nat) :
    Item.readBack (List.replicate count .endElement) =
      some (⟨[], []⟩ :: (List.replicate count []).map (Item.Frame.mk [])) := by
  induction count with
  | zero => rfl
  | succ count ih =>
    rw [List.replicate_succ, Item.readBack, ih]
    rfl

/-- Calls that are all taken, and the ends that they lack, are read from the back into one frame for
each element that was open before, and one for the forest around them. The innermost may have
attributes if its start tag was pending. -/
theorem exists_readBack_of_replay {es : List Event} (hcontent : ∀ e ∈ es, e.isContent = true)
    {text : String} {openElements : List String} {isPending : Bool} {w : XmlWriter TextBuffer}
    (htaken : replay es (⟨⟨text⟩, openElements, isPending, false⟩ : XmlWriter TextBuffer) =
      .ok () w) :
    ∃ attrs inner, ∃ outer : List (List Item),
      Item.readBack (es ++ List.replicate w.depth .endElement) =
        some (⟨attrs, inner⟩ :: outer.map (Item.Frame.mk [])) ∧
      outer.length = openElements.length ∧ (isPending = false → attrs = []) := by
  -- the frames grow from the back, so the induction goes over states that are later and later
  induction es generalizing text openElements isPending with
  | nil =>
    cases htaken
    exact ⟨[], [], List.replicate openElements.length [], readBack_replicate_endElement _,
      List.length_replicate, fun _ => rfl⟩
  | cons e es ih =>
    have hcontent' : ∀ e' ∈ es, e'.isContent = true := fun e' hmem =>
      hcontent e' (List.mem_cons_of_mem e hmem)
    rw [List.cons_append, Item.readBack]
    cases e with
    | instruction target data =>
      rw [replay_cons_ok (call_instruction _ _ _ _ _)] at htaken
      obtain ⟨attrs, inner, outer, hread, hlength, hnoAttrs⟩ := ih hcontent' htaken
      obtain rfl := hnoAttrs rfl
      exact ⟨[], .instruction target data :: inner, outer, by rw [hread]; rfl, hlength,
        fun _ => rfl⟩
    | characters s =>
      rw [replay_cons_ok (call_characters _ _ _ _)] at htaken
      obtain ⟨attrs, inner, outer, hread, hlength, hnoAttrs⟩ := ih hcontent' htaken
      obtain rfl := hnoAttrs rfl
      exact ⟨[], .text s :: inner, outer, by rw [hread]; rfl, hlength, fun _ => rfl⟩
    | startElement name =>
      rw [replay_cons_ok (call_startElement _ _ _ _)] at htaken
      obtain ⟨attrs, inner, outer, hread, hlength, -⟩ := ih hcontent' htaken
      -- the frame of the element that starts is inside the one that is innermost before
      obtain ⟨inner', outer, rfl⟩ := List.exists_cons_of_length_eq_add_one hlength
      exact ⟨[], .element name attrs inner :: inner', outer, by rw [hread]; rfl,
        Nat.succ.inj hlength, fun _ => rfl⟩
    | attr name value =>
      cases isPending with
      | false =>
        rw [replay_cons_error (call_attr_refused _ _ _ _)] at htaken
        cases htaken
      | true =>
        rw [replay_cons_ok (call_attr _ _ _ _)] at htaken
        obtain ⟨attrs, inner, outer, hread, hlength, -⟩ := ih hcontent' htaken
        exact ⟨(name, value) :: attrs, inner, outer, by rw [hread]; rfl, hlength, nofun⟩
    | endElement =>
      cases openElements with
      | nil =>
        rw [replay_cons_error (call_endElement_refused _ _)] at htaken
        cases htaken
      | cons name rest =>
        obtain ⟨text', hended⟩ := exists_call_endElement text rest isPending name
        rw [replay_cons_ok hended] at htaken
        obtain ⟨attrs, inner, outer, hread, hlength, hnoAttrs⟩ := ih hcontent' htaken
        obtain rfl := hnoAttrs rfl
        exact ⟨[], [], inner :: outer, by rw [hread]; rfl, congrArg (· + 1) hlength, fun _ => rfl⟩
    | _ => cases hcontent _ (List.mem_cons_self ..)

/-- Calls that a new writer takes all, and the ends that they lack, are the events of a forest. -/
theorem exists_forest_of_replay {es : List Event} (hcontent : ∀ e ∈ es, e.isContent = true)
    {w : XmlWriter TextBuffer} (htaken : replay es (new {}) = .ok () w) :
    ∃ forest, Item.eventsAll forest = es ++ List.replicate w.depth .endElement := by
  obtain ⟨attrs, inner, outer, hread, hlength, hnoAttrs⟩ :=
    exists_readBack_of_replay hcontent htaken
  obtain rfl := List.length_eq_zero_iff.1 hlength
  obtain rfl := hnoAttrs rfl
  refine ⟨inner, Item.ofEvents_eq_some_iff.1 ?_⟩
  rw [Item.ofEvents, hread]
  rfl

/-- Ending the document makes the calls for the ends that are lacking. -/
theorem call_endDocument_replay {w : XmlWriter TextBuffer} (hopen : w.closed = false) :
    Sink.call .endDocument w = replay (List.replicate w.depth .endElement) w := by
  have hends : ∀ count (w : XmlWriter TextBuffer),
      endElements count w = replay (List.replicate count .endElement) w := by
    intro count
    induction count with
    | zero => exact fun w => rfl
    | succ count ih =>
      intro w
      simp only [endElements, List.replicate_succ, replay, bind, EStateM.bind, ← ih]
      rfl
  rw [call_endDocument_eq hopen, hends]

/-- If the calls for content are all taken when made alone, so are they with flushes in between. -/
theorem Tracks.callAll_fst_eq {before : List Event} {w w' : XmlWriter TextBuffer}
    (h : Tracks before w) {calls : List Event}
    (hbody : ∀ e ∈ calls, e.isContent = true ∨ e = .flush)
    (htaken : replay (calls.filter Event.isContent) w = .ok () w') :
    (ParseMarkup.callAll calls w).1 = calls := by
  induction calls generalizing before w with
  | nil => rfl
  | cons e es ih =>
    obtain ⟨hfirst, hbody'⟩ := List.forall_mem_cons.1 hbody
    rcases hfirst with hcontent | rfl
    · rw [List.filter_cons_of_pos hcontent] at htaken
      rcases h.call hcontent with ⟨-, err, hrefused, -⟩ | ⟨-, w'', hcalled, htracks⟩
      · rw [replay_cons_error hrefused] at htaken
        cases htaken
      · rw [replay_cons_ok hcalled] at htaken
        rw [callAll_cons_ok hcalled, ih htracks hbody' htaken]
    · rw [List.filter_cons_of_neg (by decide)] at htaken
      rw [callAll_cons_ok (call_flush_memory h.isOpen), ih h hbody' htaken]

/-- Any calls for content and flushes on a new writer, with more of them after those that are
refused. The writer refuses a call exactly if it is misplaced after the calls it has taken, and then
nothing changes; so it takes all calls exactly if those for content are the beginning of a forest.
What it has taken is the beginning of one forest with no end but the lacking ones, and ending the
document leaves that forest in print. -/
theorem callAll_new_memory {calls : List Event}
    (hbody : ∀ e ∈ calls, e.isContent = true ∨ e = .flush) :
    let w := (ParseMarkup.callAll calls (new ({} : TextBuffer))).2
    let taken := (ParseMarkup.callAll calls (new ({} : TextBuffer))).1.filter Event.isContent
    let lacking := (Nesting.zero.after taken).unended.length
    (∀ e, e.isContent = true ∨ e = .flush →
      (Misplaced taken e → ∃ err, Sink.call e w = .error err w ∧ err.kind = .invalidInput) ∧
      (¬ Misplaced taken e → ∃ w', Sink.call e w = .ok () w')) ∧
    ((ParseMarkup.callAll calls (new ({} : TextBuffer))).1 = calls ↔
      ∃ forest, calls.filter Event.isContent <+: Item.eventsAll forest) ∧
    ∃ forest, Item.eventsAll forest = taken ++ List.replicate lacking .endElement ∧
      (∀ other, Item.eventsAll other = taken ++ List.replicate lacking .endElement →
        other = forest) ∧
      ∃ w', Sink.call .endDocument w = .ok () w' ∧ w'.depth = 0 ∧
        w'.transport.text = Item.xmlAll forest := by
  intro w taken lacking
  have hcontent : ∀ e ∈ taken, e.isContent = true := fun e hmem => (List.mem_filter.1 hmem).2
  have hreplayed : replay taken (new {}) = .ok () w := tracks_new.replay_callAll hbody
  have htracks : Tracks taken w := tracks_new.of_replay hcontent hreplayed
  refine ⟨?_, ⟨?_, ?_⟩, ?_⟩
  · rintro e (hcontent | rfl)
    · -- a call is either misplaced and refused, or placed and taken; the two exclude each other
      rcases htracks.call hcontent with ⟨hmisplaced, hrefused⟩ | ⟨hplaced, w', hcalled, -⟩
      · exact ⟨fun _ => hrefused, fun hplaced => absurd hmisplaced hplaced⟩
      · exact ⟨fun hmisplaced => absurd hmisplaced hplaced, fun _ => ⟨w', hcalled⟩⟩
    · exact ⟨False.elim, fun _ => ⟨w, call_flush_memory htracks.isOpen⟩⟩
  · intro hall
    -- ending the elements that are open completes the calls to a forest
    obtain ⟨forest, hevents⟩ := exists_forest_of_replay hcontent hreplayed
    have hbegun : taken = calls.filter Event.isContent := congrArg (List.filter _) hall
    rw [hbegun] at hevents
    exact ⟨forest, _, hevents.symm⟩
  · -- a forest is taken as a whole, so any prefix of its calls is
    rintro ⟨forest, rest, hevents⟩
    have hall := replay_eventsAll forest "" []
    rw [← hevents] at hall
    obtain ⟨w', hbegun⟩ := exists_replay_of_append hall
    exact tracks_new.callAll_fst_eq hbody hbegun
  · obtain ⟨forest, hevents⟩ := exists_forest_of_replay hcontent hreplayed
    rw [htracks.depth] at hevents
    refine ⟨forest, hevents, fun other hsame => ?_, ?_⟩
    · -- no other forest has the same events
      have hread := Item.ofEvents_eq_some_iff.2 (hsame.trans hevents.symm)
      rw [Item.ofEvents_eventsAll] at hread
      exact (Option.some.inj hread).symm
    · -- the calls taken and the lacking ends are the calls for the whole forest
      have hall := replay_eventsAll forest "" []
      rw [hevents] at hall
      rw [call_endDocument_replay htracks.isOpen, htracks.depth,
        ← replay_append_ok hreplayed]
      exact ⟨_, hall, rfl, String.empty_append⟩

/-- An attribute and an end that are refused leave no trace, and an empty text keeps its element
from closing its own tag. -/
theorem callAll_new_memory_refusals :
    let calls : List Event := [.attr "lost" "1", .startElement "a", .attr "k" "<", .flush,
      .startElement "b", .characters "", .attr "late" "2", .endElement]
    (∀ e ∈ calls, e.isContent = true ∨ e = .flush) ∧
      ∃ w', Sink.call .endDocument (ParseMarkup.callAll calls (new ({} : TextBuffer))).2 =
        .ok () w' ∧ w'.depth = 0 ∧ w'.transport.text = "<a k=\"&lt;\"><b></b></a>" := by
  intro calls
  have hbody : ∀ e ∈ calls, e.isContent = true ∨ e = .flush := by decide
  obtain ⟨-, -, forest, -, hunique, w', hended, hdepth, htext⟩ := callAll_new_memory hbody
  refine ⟨hbody, w', hended, hdepth, ?_⟩
  rw [htext, ← hunique [.element "a" [("k", "<")] [.element "b" [] [.text ""]]] (by rfl)]
  rfl

end XmlWriter

end ParseMarkup
