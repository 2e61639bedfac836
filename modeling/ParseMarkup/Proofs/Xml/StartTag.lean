import ParseMarkup.Proofs.Xml.Session

/-!
# What a start tag holds

The end of a start tag is left open until the next call shows how it ends. An attribute is written
into the tag, and a call that puts anything else completes the tag first, with one exception: the
prologue of a document is written as it is, so it ends up in the tag that is pending.

The module introduces:

* `Event.staysInTag`, `Event.tagText` and `Event.tagEnd`: what a call puts while a tag is pending;
* `givenAttrs`: the attributes among some calls.

The main statement is `XmlWriter.runSession_startTag`: what the text of any session holds between
the name of an element and the end of its start tag. `XmlWriter.runSession_startTag_prologue` shows
the exception.
-/

namespace ParseMarkup

/-! ## Calls in a start tag -/

namespace Event

/-- Whether a call leaves a pending start tag pending. -/
def staysInTag : Event → Bool
  | .startDocument => true
  | .attr .. => true
  | .flush => true
  | _ => false

/-- What a call that leaves a start tag pending puts into it. -/
def tagText : Event → String
  | .startDocument => "<?xml version=\"1.0\"?>"
  | .attr name value => tagAttrs Xml.escape [(name, value)]
  | _ => ""

/-- How a call completes a pending start tag, if it does. -/
def tagEnd : Event → String
  | .instruction .. => ">"
  | .startElement _ => ">"
  | .characters _ => ">"
  | .endElement => "/>"
  | .endDocument => "/>"
  | _ => ""

end Event

/-- The attributes among some calls. -/
def givenAttrs : List Event → List (String × String)
  | [] => []
  | .attr name value :: es => (name, value) :: givenAttrs es
  | _ :: es => givenAttrs es

/-- The text of calls that leave a start tag pending is that of their attributes, unless a document
begins among them. -/
theorem join_tagText {es : List Event} (hnoPrologue : .startDocument ∉ es) :
    String.join (es.map Event.tagText) = tagAttrs Xml.escape (givenAttrs es) := by
  induction es with
  | nil => rfl
  | cons e es ih =>
    rw [List.mem_cons, not_or] at hnoPrologue
    rw [List.map_cons, String.join_cons, ih hnoPrologue.2]
    cases e with
    | startDocument => exact absurd rfl hnoPrologue.1
    | attr name value =>
      rw [Event.tagText, givenAttrs, ← tagAttrs_append]
      rfl
    | _ => exact String.empty_append

/-- What is put while a start tag is pending completes the tag first. -/
def CompletesTag (added : String) : Prop := ∃ rest, added = ">" ++ rest ∨ added = "/>" ++ rest

/-- The prologue of a document does not complete a tag, since it does not begin with the end of
one. -/
theorem not_completesTag_prologue : ¬ CompletesTag "<?xml version=\"1.0\"?>" := by
  -- a tag is completed by one of two characters, and this is neither
  have hfirst : ∀ added : String, CompletesTag added →
      added.toList.head? = some '>' ∨ added.toList.head? = some '/' := by
    rintro added ⟨rest, rfl | rfl⟩
    · rw [String.toList_append]
      exact Or.inl rfl
    · rw [String.toList_append]
      exact Or.inr rfl
  intro hcompletes
  exact absurd (hfirst _ hcompletes) (by decide)

/-- What does not leave a pending tag pending completes it, unless it is the call to close. -/
theorem Event.completesTag_tagEnd {e : Event} (hleaves : ¬ e.staysInTag = true)
    (hnotClose : e ≠ .close) (more : String) : e.tagEnd ≠ "" ∧ CompletesTag (e.tagEnd ++ more) := by
  cases e with
  | startDocument | attr | flush => exact absurd rfl hleaves
  | instruction | startElement | characters => exact ⟨(by decide : ">" ≠ ""), more, Or.inl rfl⟩
  | endElement | endDocument => exact ⟨(by decide : "/>" ≠ ""), more, Or.inr rfl⟩
  | close => exact absurd rfl hnotClose

/-- How the first of some calls that does not leave a pending start tag pending completes it. -/
def tagEndOf (es : List Event) : String :=
  ((es.dropWhile Event.staysInTag).head?.map Event.tagEnd).getD ""

/-- A call that stays in the tag leaves its end to later calls. -/
theorem tagEndOf_cons_stays {e : Event} (hstays : e.staysInTag = true) (es : List Event) :
    tagEndOf (e :: es) = tagEndOf es := by
  rw [tagEndOf, List.dropWhile_cons_of_pos hstays, tagEndOf]

/-- The first call that leaves the tag decides its end. -/
theorem tagEndOf_cons_leaves {e : Event} (hleaves : ¬ e.staysInTag = true) (es : List Event) :
    tagEndOf (e :: es) = e.tagEnd := by
  rw [tagEndOf, List.dropWhile_cons_of_neg hleaves]
  rfl

namespace XmlWriter

/-! ## Calls on a writer with a pending tag -/

section Pending

/-- A call that stays in a pending tag puts its text into it. -/
theorem afterCall_stays {e : Event} (hstays : e.staysInTag = true) (text : String)
    (openElements : List String) :
    afterCall e (⟨⟨text⟩, openElements, true, false⟩ : XmlWriter TextBuffer) =
      ⟨⟨text ++ e.tagText⟩, openElements, true, false⟩ := by
  cases e with
  | startDocument => rfl
  | attr name value =>
    rw [afterCall, call_attr, Event.tagText, tagAttrs, tagAttrs, String.append_empty]
    simp only [String.append_assoc]
  | flush =>
    change _ = (⟨⟨text ++ ""⟩, openElements, true, false⟩ : XmlWriter TextBuffer)
    rw [String.append_empty]
    rfl
  | _ => cases hstays

/-- A call that does not stay in it, other than to close, puts its end first. -/
theorem exists_afterCall_leaves {e : Event} (hleaves : ¬ e.staysInTag = true)
    (hnotClose : e ≠ .close) (text name : String) (openElements : List String) :
    ∃ more, (afterCall e
        (⟨⟨text⟩, name :: openElements, true, false⟩ : XmlWriter TextBuffer)).transport.text =
      text ++ e.tagEnd ++ more := by
  cases e with
  | startDocument => exact absurd rfl hleaves
  | instruction target data =>
    rw [afterCall, call_instruction]
    exact ⟨_, rfl⟩
  | startElement name' =>
    rw [afterCall, call_startElement]
    exact ⟨"<" ++ name', String.append_assoc⟩
  | attr name' value => exact absurd rfl hleaves
  | characters s =>
    rw [afterCall, call_characters]
    exact ⟨_, rfl⟩
  | endElement =>
    rw [afterCall, call_endElement_cons]
    exact ⟨"", String.append_empty.symm⟩
  | endDocument =>
    -- the innermost element is the first to end
    obtain ⟨more, hended⟩ := exists_call_endDocument openElements (text ++ endText true name) false
    rw [afterCall, call_endDocument_cons, hended]
    exact ⟨more, rfl⟩
  | flush => exact absurd rfl hleaves
  | close => exact absurd rfl hnotClose

/-- What calls put while a start tag is pending: first what stays in the tag, then its end, and then
whatever follows, but nothing follows a tag without an end. -/
theorem exists_callAll_pending (es : List Event) (text name : String) (openElements : List String) :
    ∃ more, (callAll es
        (⟨⟨text⟩, name :: openElements, true, false⟩ : XmlWriter TextBuffer)).2.transport.text =
        text ++ String.join ((es.takeWhile Event.staysInTag).map Event.tagText) ++ tagEndOf es ++
          more ∧
      (tagEndOf es = "" → more = "") := by
  -- every call that stays in the tag adds to the text, so the induction is for any text
  induction es generalizing text with
  | nil =>
    refine ⟨"", ?_, fun _ => rfl⟩
    change text = text ++ "" ++ "" ++ ""
    simp only [String.append_empty]
  | cons e es ih =>
    rw [callAll_cons_snd]
    by_cases hstays : e.staysInTag = true
    · obtain ⟨more, hgrown, hlast⟩ := ih (text ++ e.tagText)
      rw [afterCall_stays hstays, List.takeWhile_cons_of_pos hstays, tagEndOf_cons_stays hstays,
        List.map_cons, String.join_cons, ← String.append_assoc]
      exact ⟨more, hgrown, hlast⟩
    · rw [List.takeWhile_cons_of_neg hstays, tagEndOf_cons_leaves hstays, List.map_nil]
      by_cases hcloses : e = .close
      · -- nothing is put after the writer was closed
        have hclosed := closed_afterCall e
          (⟨⟨text⟩, name :: openElements, true, false⟩ : XmlWriter TextBuffer)
        rw [decide_eq_true hcloses, Bool.or_true] at hclosed
        refine ⟨"", ?_, fun _ => rfl⟩
        rw [callAll_snd_of_closed hclosed, hcloses]
        change text = text ++ "" ++ "" ++ ""
        simp only [String.append_empty]
      · obtain ⟨more, hfirst⟩ := exists_afterCall_leaves hstays hcloses text name openElements
        obtain ⟨more', hothers⟩ := exists_callAll_append es (afterCall e
          (⟨⟨text⟩, name :: openElements, true, false⟩ : XmlWriter TextBuffer))
        refine ⟨more ++ more', ?_,
          fun hnone => absurd hnone (e.completesTag_tagEnd hstays hcloses "").1⟩
        rw [hothers, hfirst, String.join_nil, String.append_empty, String.append_assoc]

/-! ## Pending tags belong to open elements -/

/-- A start tag is pending only while an element is open. -/
def TagInElement (w : XmlWriter TextBuffer) : Prop := w.startTagOpen = true → w.openElements ≠ []

/-- A new writer reflects the history of any calls until it is closed, and a history has no start
tag outside of all elements. -/
theorem tagInElement_callAll {es : List Event}
    (hopen : (callAll es (new ({} : TextBuffer))).2.closed = false) :
    TagInElement (callAll es (new ({} : TextBuffer))).2 := by
  have hnotClosed : .close ∉ es := by
    intro hmem
    rw [closed_callAll, decide_eq_true hmem, Bool.or_true] at hopen
    cases hopen
  exact ((reflects_new _).history hnotClosed).element

/-- While a start tag is pending, a call other than an attribute that puts anything completes the
tag first, if it is not the prologue of a document. -/
theorem exists_afterCall_pending {w : XmlWriter TextBuffer} (hinElement : TagInElement w)
    (hpending : w.startTagOpen = true) (hopen : w.closed = false) {e : Event}
    (hnotAttr : ∀ name value, e ≠ .attr name value) :
    ∃ added, (ParseMarkup.afterCall e w).transport.text = w.transport.text ++ added ∧
      (added ≠ "" → (CompletesTag added ↔ e ≠ .startDocument)) := by
  obtain ⟨⟨text⟩, openElements, isPending, closed⟩ := w
  obtain rfl : isPending = true := hpending
  obtain rfl : closed = false := hopen
  by_cases hstays : e.staysInTag = true
  · -- of the calls that stay in the tag, an attribute is left out and a flush puts nothing
    refine ⟨e.tagText, by rw [afterCall_stays hstays], fun hputs => ?_⟩
    cases e with
    | startDocument => exact ⟨fun hcompletes => absurd hcompletes not_completesTag_prologue,
        fun hne => absurd rfl hne⟩
    | attr name value => exact absurd rfl (hnotAttr name value)
    | flush => exact absurd rfl hputs
    | _ => cases hstays
  · -- a call that leaves the tag puts its end first, unless it closes and puts nothing
    have hnotPrologue : e ≠ .startDocument := fun heq => hstays (heq ▸ rfl)
    by_cases hcloses : e = .close
    · refine ⟨"", ?_, fun hputs => absurd rfl hputs⟩
      rw [hcloses, String.append_empty]
      rfl
    · obtain ⟨name, rest, rfl⟩ := List.exists_cons_of_ne_nil (hinElement rfl)
      obtain ⟨more, hleft⟩ := exists_afterCall_leaves hstays hcloses text name rest
      refine ⟨e.tagEnd ++ more, by rw [hleft, String.append_assoc], fun _ => ?_⟩
      exact ⟨fun _ => hnotPrologue, fun _ => (e.completesTag_tagEnd hstays hcloses more).2⟩

end Pending

/-! ## Sessions -/

variable {L V : Type} [Display L] [Display V]

/-- What a session over memory puts into start tags. While a tag is pending, any call other than an
attribute that puts something completes the tag first, except that the prologue of a document does
not. So between the name of an element and the end of its start tag there is nothing but the
attributes given to this element, as long as no document is begun in the tag; if one is, its
prologue stands in the tag at this place. A tag that is never completed is the last thing in the
text. -/
theorem runSession_startTag (steps : List (SessionStep L V)) :
    let calls := steps.flatMap SessionStep.calls
    let after := fun made => (callAll made (new ({} : TextBuffer))).2
    (runSession steps (new {})).2 = after calls ∧
    (∀ before e later, calls = before ++ e :: later → (after before).startTagOpen = true →
      (after before).closed = false → (∀ name value, e ≠ .attr name value) →
      ∃ added, (after (before ++ [e])).transport.text = (after before).transport.text ++ added ∧
        (added ≠ "" → (CompletesTag added ↔ e ≠ .startDocument))) ∧
    (∀ before name later, calls = before ++ .startElement name :: later →
      (after before).closed = false →
      let inTag := later.takeWhile Event.staysInTag
      ∃ more, (after calls).transport.text =
          (after before).transport.text ++ pendingEnd (after before).startTagOpen ++ "<" ++ name ++
            String.join (inTag.map Event.tagText) ++ tagEndOf later ++ more ∧
        (tagEndOf later = "" → more = "") ∧
        (.startDocument ∉ inTag →
          String.join (inTag.map Event.tagText) = tagAttrs Xml.escape (givenAttrs inTag))) := by
  intro calls after
  refine ⟨runSession_snd steps _, fun before e later hmade hpending hopen hnotAttr => ?_,
    fun before name later hmade hopen => ?_⟩
  · -- the last call is made on what the calls before it left
    have hlast : after (before ++ [e]) = ParseMarkup.afterCall e (after before) := by
      change (callAll (before ++ [e]) _).2 = _
      rw [callAll_append_snd, callAll_cons_snd]
      rfl
    rw [hlast]
    exact exists_afterCall_pending (tagInElement_callAll hopen) hpending hopen hnotAttr
  · -- the calls from the start of the element on, made on what the calls before it left
    have hmadeOn : after calls = (callAll later (ParseMarkup.afterCall (.startElement name)
        (after before))).2 := by
      change (callAll calls _).2 = _
      rw [hmade, callAll_append_snd, callAll_cons_snd]
    rw [hmadeOn]
    generalize after before = w at hopen ⊢
    obtain ⟨⟨text⟩, openElements, isPending, closed⟩ := w
    obtain rfl : closed = false := hopen
    rw [ParseMarkup.afterCall, call_startElement]
    obtain ⟨more, hgrown, hlast⟩ := exists_callAll_pending later
      (text ++ pendingEnd isPending ++ "<" ++ name) name openElements
    exact ⟨more, hgrown, hlast, join_tagText⟩

/-- The prologue of a document is put right behind the name of an element whose start tag is
pending, whether by a single call or by a dump. -/
theorem runSession_startTag_prologue :
    let after := fun steps : List (SessionStep String String) =>
      (runSession steps (new ({} : TextBuffer))).2
    let start : SessionStep String String := .call (.startElement "a")
    ((after [start]).startTagOpen = true ∧ (after [start]).closed = false ∧
        (after [start]).transport.text = "<a") ∧
      (after [start, .call .startDocument]).transport.text =
        "<a" ++ "<?xml version=\"1.0\"?>" ∧
      ¬ CompletesTag "<?xml version=\"1.0\"?>" ∧
      (after [start, .dump .default (.error ⟨"1", "2"⟩)]).transport.text =
        "<a<?xml version=\"1.0\"?>><?xml-stylesheet href=\"tree.xsl\" type=\"text/xsl\"?>" ++
          "<error left=\"1\" right=\"2\"/></a>" := by
  intro after start
  refine ⟨⟨rfl, rfl, rfl⟩, rfl, not_completesTag_prologue, ?_⟩
  decide +kernel

end XmlWriter

end ParseMarkup
