import ParseMarkup.Proofs.Stream.Calls
import ParseMarkup.Proofs.Stream.Nesting
import ParseMarkup.Proofs.Xml.Pieces
import ParseMarkup.Transport.Faulty

/-!
# The state of a writer and its history

An XML writer may fail in the middle of a call, and whoever makes the calls may go on. Its state is
known at any time from what was attempted so far and from what succeeded of that, whatever the
transport does: a call changes the state before it puts text, except that an element is open only
when its name got through.

The module introduces:

* `Attempt`: a call on a writer, or an end of an element that the end of the document attempts;
* `XmlWriter.history`: what was attempted in the course of some calls;
* `unended` and `OutsideTag`: the open elements, and whether an attribute is refused, read off a
  history alone;
* `XmlWriter.Reflects`: that the state of a writer is the one that a history tells;
* `XmlWriter.Changes`: that the state of a writer changes as an attempt says.

The main statements: every attempt on an open writer changes its state as it says
(`XmlWriter.changes_afterCall`), so it keeps the writer in step with its history
(`XmlWriter.Reflects.attempt`), and so do many calls (`XmlWriter.Reflects.history`);
`XmlWriter.callAll_new_history` tells what is known of a writer at any time before it is closed.
-/

namespace ParseMarkup

/-! ## Histories -/

/-- Whether an event may not stand in a start tag, so that it ends one that is pending. -/
def Event.leavesTag : Event → Bool
  | .instruction .. => true
  | .startElement _ => true
  | .characters _ => true
  | .endElement => true
  | _ => false

/-- A call that was attempted. -/
structure Attempt where
  event : Event
  /-- Whether an element was open when it was made. -/
  inElement : Bool
  /-- Whether it succeeded. -/
  succeeded : Bool
  deriving DecidableEq, Repr

namespace Attempt

/-- Whether the attempt has begun an element, which it has only if it succeeded. -/
def beginsElement (a : Attempt) : Bool := a.event.isStart && a.succeeded

/-- Whether the attempt was to end an element that was open, whether it succeeded or not. -/
def endsElement (a : Attempt) : Bool := a.event = .endElement && a.inElement

/-- The names of the open elements after one more attempt. -/
def step (names : List String) (a : Attempt) : List String :=
  match a.event with
  | .startElement name => if a.succeeded then name :: names else names
  | .endElement => names.tail
  | _ => names

end Attempt

/-- The names of the elements that have begun and that no attempt was made to end, innermost
first. -/
def unended (as : List Attempt) : List String := as.foldl Attempt.step []

/-- An attempt to begin or to end an element changes how many are open, and no other does. -/
theorem Attempt.length_step {names : List String} {a : Attempt}
    (hinElement : a.inElement = !names.isEmpty) :
    (Attempt.step names a).length + (if a.endsElement then 1 else 0) =
      names.length + if a.beginsElement then 1 else 0 := by
  obtain ⟨event, _, succeeded⟩ := a
  cases event with
  | startElement name => cases succeeded <;> rfl
  | endElement =>
    obtain rfl := hinElement
    cases names <;> rfl
  | _ => rfl

/-- After an element has begun, one is open. -/
theorem Attempt.step_ne_nil_of_begins {names : List String} {a : Attempt}
    (h : a.beginsElement = true) : Attempt.step names a ≠ [] := by
  obtain ⟨event, _, succeeded⟩ := a
  cases event with
  | startElement name =>
    obtain rfl : succeeded = true := h
    exact List.cons_ne_nil name names
  | _ => cases h

/-- What may stand in a start tag neither begins nor ends an element. -/
theorem Attempt.step_of_stays {names : List String} {a : Attempt}
    (h : a.event.leavesTag = false) : Attempt.step names a = names := by
  obtain ⟨event, _, succeeded⟩ := a
  cases event with
  | startElement name => cases h
  | endElement => cases h
  | _ => rfl

/-- What was attempted since the last start of an element that succeeded, latest first; all if there
is no such start. -/
def sinceStart (as : List Attempt) : List Attempt := as.reverse.takeWhile fun a => !a.beginsElement

/-- That no start tag is open after some attempts: no start has succeeded, or something that may not
stand in a start tag was attempted since the last that did. -/
def OutsideTag (as : List Attempt) : Prop :=
  (∀ a ∈ as, a.beginsElement = false) ∨ ∃ a ∈ sinceStart as, a.event.leavesTag = true

/-- A start that succeeds forgets what came before it; any other attempt is added. -/
theorem sinceStart_concat (as : List Attempt) (a : Attempt) :
    sinceStart (as ++ [a]) = if a.beginsElement then [] else a :: sinceStart as := by
  cases hbegins : a.beginsElement <;> simp [sinceStart, hbegins]

/-- Whether a start tag is open is known from the last attempt and from what it was before. -/
theorem outsideTag_concat (as : List Attempt) (a : Attempt) :
    OutsideTag (as ++ [a]) ↔
      a.beginsElement = false ∧ (a.event.leavesTag = true ∨ OutsideTag as) := by
  rw [OutsideTag, OutsideTag, sinceStart_concat, List.forall_mem_append, List.forall_mem_singleton]
  by_cases hbegins : a.beginsElement = true
  · simp [hbegins]
  · rw [Bool.not_eq_true] at hbegins
    simp [hbegins, or_left_comm]

namespace XmlWriter

variable {ω : Type}

/-- That the state of an open writer is the one that a history tells. -/
structure Reflects (as : List Attempt) (w : XmlWriter ω) : Prop where
  isOpen : w.closed = false
  openElements : w.openElements = unended as
  /-- No attempt was made to end more elements than have begun. -/
  count : w.depth + as.countP Attempt.endsElement = as.countP Attempt.beginsElement
  pending : w.startTagOpen = true ↔ ¬ OutsideTag as
  /-- A start tag is that of an open element. -/
  element : w.startTagOpen = true → w.openElements ≠ []

/-- That an attempt takes the state of a writer, which is open afterwards, from `w` to `w'`. -/
structure Changes (a : Attempt) (w w' : XmlWriter ω) : Prop where
  isOpen : w'.closed = false
  openElements : w'.openElements = Attempt.step w.openElements a
  /-- An end without an open element is refused, so it does not even leave a tag. -/
  pending : (w.startTagOpen = true → w.openElements ≠ []) →
    w'.startTagOpen = (a.beginsElement || (w.startTagOpen && !a.event.leavesTag))

/-- A writer reflects its history and one more attempt if its state changes as the attempt says. -/
theorem Reflects.concat {as : List Attempt} {w w' : XmlWriter ω} (h : Reflects as w) {a : Attempt}
    (hinElement : a.inElement = !w.openElements.isEmpty) (hchanges : Changes a w w') :
    Reflects (as ++ [a]) w' where
  isOpen := hchanges.isOpen
  openElements := by
    rw [hchanges.openElements, h.openElements, unended, unended, List.foldl_append]
    rfl
  count := by
    -- the stack and the two counts change together
    have hchanged := Attempt.length_step hinElement
    have hbefore := h.count
    rw [List.countP_append, List.countP_append, List.countP_singleton, List.countP_singleton, depth,
      hchanges.openElements]
    rw [depth] at hbefore
    omega
  pending := by
    rw [outsideTag_concat, hchanges.pending h.element, Bool.or_eq_true, Bool.and_eq_true, h.pending,
      Bool.not_eq_true']
    cases a.beginsElement <;> simp [and_comm]
  element := by
    rw [hchanges.pending h.element, hchanges.openElements, Bool.or_eq_true, Bool.and_eq_true,
      Bool.not_eq_true']
    -- a tag is pending after an attempt that begins an element, or after one that stays in the tag
    rintro (hbegins | ⟨hpending, hstays⟩)
    · exact Attempt.step_ne_nil_of_begins hbegins
    · rw [Attempt.step_of_stays hstays]
      exact h.element hpending

/-- A new writer reflects the empty history. -/
theorem reflects_new (transport : ω) : Reflects [] (new transport) where
  isOpen := rfl
  openElements := rfl
  count := rfl
  pending := by simp [new, OutsideTag]
  element := nofun

variable [Transport ω]

/-- A call as it is attempted on a writer. -/
def attempt (e : Event) (w : XmlWriter ω) : Attempt where
  event := e
  inElement := !w.openElements.isEmpty
  succeeded :=
    match Sink.call e w with
    | .ok .. => true
    | .error .. => false

/-- The attempts to end `count` elements, up to the first that fails. -/
def endAttempts : Nat → XmlWriter ω → List Attempt
  | 0, _ => []
  | count + 1, w =>
    match endElement w with
    | .ok _ w' => attempt .endElement w :: endAttempts count w'
    | .error _ _ => [attempt .endElement w]

/-- What one call attempts: itself, or, at the end of the document, to end the open elements. -/
def attemptsOf (e : Event) (w : XmlWriter ω) : List Attempt :=
  match e with
  | .endDocument => endAttempts w.depth w
  | e => [attempt e w]

/-- What some calls attempt, one after the other, also after those that fail. -/
def history : List Event → XmlWriter ω → List Attempt
  | [], _ => []
  | e :: es, w => attemptsOf e w ++ history es (afterCall e w)

/-! ## One attempt -/

/-- A call that is taken leaves the writer that it returns, and counts as a success. -/
theorem afterCall_ok {e : Event} {w w' : XmlWriter ω} (h : Sink.call e w = .ok () w') :
    afterCall e w = w' ∧ attempt e w = ⟨e, !w.openElements.isEmpty, true⟩ := by
  rw [afterCall, attempt, h]
  exact ⟨rfl, rfl⟩

/-- A call that fails leaves the writer as it was when it failed, and counts as a failure. -/
theorem afterCall_error {e : Event} {w w' : XmlWriter ω} {err : StreamError}
    (h : Sink.call e w = .error err w') :
    afterCall e w = w' ∧ attempt e w = ⟨e, !w.openElements.isEmpty, false⟩ := by
  rw [afterCall, attempt, h]
  exact ⟨rfl, rfl⟩

/-- A call that puts pieces leaves the state as it was before the first of them, whether they get
through or not. -/
theorem afterCall_of_putAll {e : Event} {w : XmlWriter ω} {pieces : List String} {t : ω}
    {openElements : List String} {isPending : Bool}
    (h : Sink.call e w = putAll pieces ⟨t, openElements, isPending, false⟩) :
    ∃ t', afterCall e w = ⟨t', openElements, isPending, false⟩ := by
  rcases putAll_cases t openElements isPending false pieces with ⟨t', hput⟩ | ⟨err, t', hput⟩
  · exact ⟨t', (afterCall_ok (h.trans hput)).1⟩
  · exact ⟨t', (afterCall_error (h.trans hput)).1⟩

/-- An attempt that begins no element changes the state in the same way whether it succeeds or
not. -/
theorem changes_of_not_start {e : Event} {w : XmlWriter ω} (hnotStart : e.isStart = false)
    {isPending : Bool}
    (hleft : ∃ t', afterCall e w =
      ⟨t', Attempt.step w.openElements (attempt e w), isPending, false⟩)
    (hpending : (w.startTagOpen = true → w.openElements ≠ []) →
      isPending = if e.leavesTag then false else w.startTagOpen) :
    Changes (attempt e w) w (afterCall e w) := by
  obtain ⟨t', hleft⟩ := hleft
  have hbegins : (attempt e w).beginsElement = false := by
    rw [Attempt.beginsElement, attempt, hnotStart, Bool.false_and]
  refine ⟨?_, ?_, fun hinElement => ?_⟩
  · rw [hleft]
  · rw [hleft]
  · rw [hleft, hbegins, Bool.false_or, hpending hinElement, attempt]
    cases e.leavesTag
    · exact (Bool.and_true _).symm
    · exact (Bool.and_false _).symm

/-- What every single attempt does to an open writer, however it ends. -/
theorem changes_afterCall {w : XmlWriter ω} (hopen : w.closed = false) {e : Event}
    (hnotEndDocument : e ≠ .endDocument) (hnotClose : e ≠ .close) :
    Changes (attempt e w) w (afterCall e w) := by
  obtain ⟨t, openElements, isPending, isClosed⟩ := w
  obtain rfl : isClosed = false := hopen
  cases e with
  | startDocument =>
    exact changes_of_not_start rfl (afterCall_of_putAll (call_startDocument_eq ..)) fun _ => rfl
  | instruction target data =>
    exact changes_of_not_start rfl (afterCall_of_putAll (call_instruction_eq ..)) fun _ => rfl
  | characters s =>
    exact changes_of_not_start rfl (afterCall_of_putAll (call_characters_eq ..)) fun _ => rfl
  | attr name value =>
    refine changes_of_not_start rfl ?_ fun _ => rfl
    cases isPending with
    | false => exact ⟨t, (afterCall_error (call_attr_refused ..)).1⟩
    | true => exact afterCall_of_putAll (call_attr_eq ..)
  | endElement =>
    cases openElements with
    | nil =>
      refine changes_of_not_start rfl ⟨t, (afterCall_error (call_endElement_refused ..)).1⟩ ?_
      -- nothing is open, so no start tag is pending either
      intro hinElement
      cases isPending with
      | false => rfl
      | true => exact absurd rfl (hinElement rfl)
    | cons name rest =>
      exact changes_of_not_start rfl (afterCall_of_putAll (call_endElement_eq ..)) fun _ => rfl
  | flush =>
    refine changes_of_not_start rfl ?_ fun _ => rfl
    rcases call_flush_cases t openElements isPending with ⟨t', hcalled⟩ | ⟨err, t', hcalled⟩
    · exact ⟨t', (afterCall_ok hcalled).1⟩
    · exact ⟨t', (afterCall_error hcalled).1⟩
  | startElement name =>
    -- the element is open only if all pieces get through; the tag before it is ended in any case
    have hcalled := call_startElement_eq t openElements isPending name
    rcases putAll_cases t openElements false false (endPieces isPending ++ ["<", name]) with
      ⟨t', hput⟩ | ⟨err, t', hput⟩
    · rw [hput] at hcalled
      obtain ⟨hleft, hmade⟩ := afterCall_ok hcalled
      rw [hleft, hmade]
      exact ⟨rfl, rfl, fun _ => rfl⟩
    · rw [hput] at hcalled
      obtain ⟨hleft, hmade⟩ := afterCall_error hcalled
      rw [hleft, hmade]
      exact ⟨rfl, rfl, fun _ => (Bool.and_false _).symm⟩
  | endDocument => exact absurd rfl hnotEndDocument
  | close => exact absurd rfl hnotClose

/-- A writer reflects its history and one more attempt, however it ends. -/
theorem Reflects.attempt {as : List Attempt} {w : XmlWriter ω} (h : Reflects as w) {e : Event}
    (hnotEndDocument : e ≠ .endDocument) (hnotClose : e ≠ .close) :
    Reflects (as ++ [attempt e w]) (afterCall e w) :=
  h.concat rfl (changes_afterCall h.isOpen hnotEndDocument hnotClose)

/-! ## Many attempts -/

/-- So it does through the attempts to end elements, up to the first that fails. -/
theorem Reflects.endAttempts {as : List Attempt} {w w' : XmlWriter ω} (h : Reflects as w)
    {count : Nat}
    (hended : endElements count w = .ok () w' ∨ ∃ err, endElements count w = .error err w') :
    Reflects (as ++ endAttempts count w) w' := by
  -- each attempt leaves another writer and a longer history, so both stay general
  induction count generalizing as w with
  | zero =>
    rcases hended with hdone | ⟨err, hfailed⟩
    · cases hdone
      rwa [XmlWriter.endAttempts, List.append_nil]
    · cases hfailed
  | succ count ih =>
    have hone := h.attempt (e := .endElement) nofun nofun
    have hcalled : Sink.call .endElement w = endElement w := rfl
    simp only [endElements, bind, EStateM.bind] at hended
    rw [XmlWriter.endAttempts]
    cases hmade : endElement w with
    | ok _ w'' =>
      rw [hmade] at hended
      rw [(afterCall_ok (hcalled.trans hmade)).1] at hone
      rw [List.append_cons]
      exact ih hone hended
    | error err w'' =>
      rw [hmade] at hended
      rw [(afterCall_error (hcalled.trans hmade)).1] at hone
      rcases hended with hdone | ⟨err', hfailed⟩
      · cases hdone
      · cases hfailed
        exact hone

/-- A call adds the attempts that it makes, which are several for the end of a document. -/
theorem Reflects.attemptsOf {as : List Attempt} {w : XmlWriter ω} (h : Reflects as w) {e : Event}
    (hnotClose : e ≠ .close) : Reflects (as ++ attemptsOf e w) (afterCall e w) := by
  by_cases hends : e = .endDocument
  · subst hends
    refine h.endAttempts ?_
    rw [← call_endDocument_eq h.isOpen]
    cases hcalled : Sink.call .endDocument w with
    | ok _ w' =>
      rw [(afterCall_ok hcalled).1]
      exact Or.inl rfl
    | error err w' =>
      rw [(afterCall_error hcalled).1]
      exact Or.inr ⟨err, rfl⟩
  · have hone := h.attempt hends hnotClose
    cases e with
    | endDocument => exact absurd rfl hends
    | _ => exact hone

/-- A writer reflects its history after any calls but those to close. -/
theorem Reflects.history {as : List Attempt} {w : XmlWriter ω} (h : Reflects as w)
    {calls : List Event} (hopen' : .close ∉ calls) :
    Reflects (as ++ history calls w) (callAll calls w).2 := by
  induction calls generalizing as w with
  | nil => rwa [XmlWriter.history, List.append_nil]
  | cons e es ih =>
    rw [List.mem_cons, not_or] at hopen'
    rw [XmlWriter.history, callAll_cons_snd, ← List.append_assoc]
    exact ih (h.attemptsOf (Ne.symm hopen'.1)) hopen'.2

/-! ## The end of the document -/

/-- The innermost element is not open any more when its end was attempted, whether that succeeded or
not. -/
theorem endElement_cases {w : XmlWriter ω} (hopen : w.closed = false) {count : Nat}
    (hdepth : w.depth = count + 1) :
    (∃ w', endElement w = .ok () w' ∧ w'.closed = false ∧ w'.depth = count) ∨
      ∃ err w', endElement w = .error err w' ∧ w'.closed = false ∧ w'.depth = count := by
  obtain ⟨t, openElements, isPending, closed⟩ := w
  obtain rfl : closed = false := hopen
  obtain ⟨name, rest, rfl⟩ := List.exists_cons_of_length_eq_add_one hdepth
  have hcalled := call_endElement_eq t rest isPending name
  rcases putAll_cases t rest false false (if isPending then ["/>"] else ["</", name, ">"]) with
    ⟨t', hput⟩ | ⟨err, t', hput⟩
  · exact Or.inl ⟨_, hcalled.trans hput, rfl, Nat.succ.inj hdepth⟩
  · exact Or.inr ⟨err, _, hcalled.trans hput, rfl, Nat.succ.inj hdepth⟩

/-- If an end fails, fewer elements are open nonetheless. -/
theorem endElements_cases {w : XmlWriter ω} (hopen : w.closed = false) {count : Nat}
    (hdepth : w.depth = count) :
    (∃ w', endElements count w = .ok () w' ∧ w'.closed = false ∧ w'.depth = 0) ∨
      ∃ err w', endElements count w = .error err w' ∧ w'.closed = false ∧ w'.depth < count := by
  induction count generalizing w with
  | zero => exact Or.inl ⟨w, rfl, hopen, hdepth⟩
  | succ count ih =>
    simp only [endElements, bind, EStateM.bind]
    rcases endElement_cases hopen hdepth with
      ⟨w', hended, hopen', hdepth'⟩ | ⟨err, w', hended, hopen', hdepth'⟩
    · rw [hended]
      rcases ih hopen' hdepth' with hdone | ⟨err, w'', hfailed, hopen'', hless⟩
      · exact Or.inl hdone
      · exact Or.inr ⟨err, w'', hfailed, hopen'', Nat.lt_succ_of_lt hless⟩
    · rw [hended]
      exact Or.inr ⟨err, w', rfl, hopen', by omega⟩

/-- The end of the document leaves no element open, or fails and leaves fewer open than before. -/
theorem call_endDocument_cases {w : XmlWriter ω} (hopen : w.closed = false) :
    (∃ w', Sink.call .endDocument w = .ok () w' ∧ w'.closed = false ∧ w'.depth = 0) ∨
      ∃ err w', Sink.call .endDocument w = .error err w' ∧ w'.closed = false ∧
        w'.depth < w.depth := by
  rw [call_endDocument_eq hopen]
  exact endElements_cases hopen rfl

/-- Each time that it fails, one element less is open. -/
theorem callAll_endDocument_of_failed {w : XmlWriter ω} (hopen : w.closed = false) {n : Nat}
    (hfailed : (callAll (List.replicate n .endDocument) w).1 = []) :
    n + (callAll (List.replicate n .endDocument) w).2.depth ≤ w.depth := by
  induction n generalizing w with
  | zero => exact Nat.le_of_eq (Nat.zero_add _)
  | succ n ih =>
    rw [List.replicate_succ] at hfailed ⊢
    rcases call_endDocument_cases hopen with ⟨w', hended, -⟩ | ⟨err, w', hended, hopen', hless⟩
    · rw [callAll_cons_ok hended] at hfailed
      cases hfailed
    · rw [callAll_cons_error hended] at hfailed ⊢
      have hrest := ih hopen' hfailed
      omega

/-- As many calls as elements are open end the document, however many of them fail. -/
theorem depth_callAll_endDocument {w : XmlWriter ω} (hopen : w.closed = false) {n : Nat}
    (henough : w.depth ≤ n) : (callAll (List.replicate n .endDocument) w).2.depth = 0 := by
  induction n generalizing w with
  | zero => exact Nat.le_zero.1 henough
  | succ n ih =>
    rw [List.replicate_succ, callAll_cons_snd]
    rcases call_endDocument_cases hopen with
      ⟨w', hended, hopen', hdepth⟩ | ⟨err, w', hended, hopen', hless⟩
    · rw [(afterCall_ok hended).1]
      exact ih hopen' (by omega)
    · rw [(afterCall_error hended).1]
      exact ih hopen' (by omega)

/-- What is known of a writer after any calls, with whatever failures of its transport, as long as
it was not closed. A pending start tag is that of an open element. The open elements are those that
have begun and that no attempt was made to end. An attribute is refused, before anything is put,
exactly if no start tag is open by the history; otherwise its pieces are put. Ending the document
leaves no element open, or fails and leaves fewer; so it fails at most once for each open
element. -/
theorem callAll_new_history (transport : ω) {calls : List Event} (hnotClosed : .close ∉ calls) :
    let w := (callAll calls (new transport)).2
    let as := history calls (new transport)
    (w.startTagOpen = true → 0 < w.depth) ∧
    (w.depth + as.countP Attempt.endsElement = as.countP Attempt.beginsElement ∧
      w.openElements = unended as) ∧
    (∀ name value,
      (OutsideTag as → Sink.call (.attr name value) w = .error (.strayAttribute name) w) ∧
      (¬ OutsideTag as →
        Sink.call (.attr name value) w = putAll [" ", name, "=\"", Xml.escape value, "\""] w)) ∧
    ((∃ w', Sink.call .endDocument w = .ok () w' ∧ w'.depth = 0) ∨
      ∃ err w', Sink.call .endDocument w = .error err w' ∧ w'.depth < w.depth) ∧
    (∀ n, (callAll (List.replicate n .endDocument) w).1 = [] →
      n + (callAll (List.replicate n .endDocument) w).2.depth ≤ w.depth) ∧
    ∀ n, w.depth ≤ n → (callAll (List.replicate n .endDocument) w).2.depth = 0 := by
  intro w as
  have hreflects : Reflects as w := (reflects_new transport).history hnotClosed
  refine ⟨?_, ⟨hreflects.count, hreflects.openElements⟩, ?_, ?_, ?_, ?_⟩
  · intro htag
    exact List.length_pos_iff.2 (hreflects.element htag)
  · intro name value
    have hopen := hreflects.isOpen
    have hpending := hreflects.pending
    -- only the writer's state matters from here on, not how it came about
    generalize w = w at hopen hpending
    obtain ⟨t, openElements, isPending, closed⟩ := w
    obtain rfl : closed = false := hopen
    refine ⟨fun houtside => ?_, fun hinside => ?_⟩
    · cases isPending with
      | false => exact call_attr_refused ..
      | true => exact absurd houtside (hpending.1 rfl)
    · obtain rfl : isPending = true := hpending.2 hinside
      exact call_attr_eq ..
  · rcases call_endDocument_cases hreflects.isOpen with
      ⟨w', hended, -, hdepth⟩ | ⟨err, w', hended, -, hless⟩
    · exact Or.inl ⟨w', hended, hdepth⟩
    · exact Or.inr ⟨err, w', hended, hless⟩
  · exact fun n hfailed => callAll_endDocument_of_failed hreflects.isOpen hfailed
  · exact fun n henough => depth_callAll_endDocument hreflects.isOpen henough

/-- The text of `a` and the end of `b` fail: nothing can be added to the start tag of `a`, and one
more end of the document ends it. -/
theorem callAll_new_history_faulty :
    let lost : StreamError := ⟨.other, "lost"⟩
    let transport : FaultyTransport := { faults := [⟨2, .fail lost⟩, ⟨4, .fail lost⟩] }
    let calls : List Event :=
      [.startElement "a", .characters "t", .startElement "b", .endDocument]
    let w := (callAll calls (new transport)).2
    .close ∉ calls ∧ w.openElements = ["a"] ∧
      Sink.call (.attr "k" "v") w = .error (.strayAttribute "k") w ∧
      (callAll [.endDocument] w).2.depth = 0 := by
  intro lost transport calls w
  have hnotClosed : .close ∉ calls := by decide
  have hopenElements : w.openElements = ["a"] := by decide +kernel
  obtain ⟨-, -, hattr, -, -, hended⟩ := callAll_new_history transport hnotClosed
  refine ⟨hnotClosed, hopenElements, (hattr "k" "v").1 (Or.inr ?_), hended 1 ?_⟩
  · exact ⟨⟨.endElement, true, false⟩, by decide +kernel, rfl⟩
  · rw [depth, hopenElements]
    exact Nat.le_refl 1

end XmlWriter

end ParseMarkup
