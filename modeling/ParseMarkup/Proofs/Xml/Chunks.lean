import ParseMarkup.Proofs.Dump.Alike
import ParseMarkup.Proofs.Dump.Faults
import ParseMarkup.Proofs.Transport.Interrupted
import ParseMarkup.Proofs.Xml.Pieces

/-!
# XML over transports that do alike

An XML writer hands its pieces to the transport and looks at nothing but whether they got through.
So it answers alike over transports that do alike, and nothing of a whole session shows how a
transport cuts the pieces or where it is interrupted, not even in the middle of an element that a
real fault has broken off.

The module introduces:

* `XmlWriter.Alike`: two writers in the same state over related transports;
* `StepShown`: what can be seen of a step from outside.

The main statements: writers over transports that do alike answer alike (`XmlWriter.answerAlike`),
and sessions over transports that differ in chunks and interruptions show the same in every step
(`XmlWriter.runSession_chunks`).
-/

namespace ParseMarkup

namespace XmlWriter

variable {ω ω' : Type} {R : ω → ω' → Prop}

/-- Two writers in the same state over related transports. -/
structure Alike (R : ω → ω' → Prop) (w : XmlWriter ω) (w' : XmlWriter ω') : Prop where
  transport : R w.transport w'.transport
  openElements : w.openElements = w'.openElements
  startTagOpen : w.startTagOpen = w'.startTagOpen
  closed : w.closed = w'.closed

/-! ## Calls -/

/-- Work on related transports leaves the writers alike, since nothing else of them changes. -/
theorem onTransport_alike {work : StreamM ω Unit} {work' : StreamM ω' Unit} {t : ω} {t' : ω'}
    (hdone : EndAlike R (work t) (work' t')) (openElements : List String)
    (isPending isClosed : Bool) :
    EndAlike (Alike R) (onTransport work ⟨t, openElements, isPending, isClosed⟩)
      (onTransport work' ⟨t', openElements, isPending, isClosed⟩) := by
  simp only [onTransport]
  generalize work t = result at hdone ⊢
  generalize work' t' = result' at hdone ⊢
  cases hdone with
  | ok hrelated => exact .ok ⟨hrelated, rfl, rfl, rfl⟩
  | error hrelated => exact .error ⟨hrelated, rfl, rfl, rfl⟩

section Calls

variable [Transport ω] [Transport ω']

/-- Alike writers put pieces alike: the first piece that fails for one fails for the other. -/
theorem putAll_alike (halike : TransportAlike R) (pieces : List String) {w : XmlWriter ω}
    {w' : XmlWriter ω'} (h : Alike R w w') :
    EndAlike (Alike R) (putAll pieces w) (putAll pieces w') := by
  induction pieces generalizing w w' with
  | nil => exact .ok h
  | cons piece pieces ih =>
    refine EndAlike.bind ?_ fun _ _ _ h => ih h
    obtain ⟨t, openElements, isPending, isClosed⟩ := w
    obtain ⟨t', openElements', isPending', isClosed'⟩ := w'
    obtain ⟨hrelated, rfl, rfl, rfl⟩ := h
    exact onTransport_alike (halike.put piece hrelated) ..

/-- Alike writers end an element alike, whether they refuse, close a pending tag or write an end
tag. -/
theorem endElement_alike (halike : TransportAlike R) {w : XmlWriter ω} {w' : XmlWriter ω'}
    (h : Alike R w w') :
    EndAlike (Alike R) (Sink.call .endElement w) (Sink.call .endElement w') := by
  obtain ⟨t, openElements, isPending, isClosed⟩ := w
  obtain ⟨t', openElements', isPending', isClosed'⟩ := w'
  have hsame := h
  obtain ⟨hrelated, rfl, rfl, rfl⟩ := h
  cases isClosed with
  | true =>
    rw [call_closed, call_closed]
    exact .error hsame
  | false =>
    cases openElements with
    | nil =>
      rw [call_endElement_refused, call_endElement_refused]
      exact .error hsame
    | cons name rest =>
      rw [call_endElement_eq, call_endElement_eq]
      exact putAll_alike halike _ ⟨hrelated, rfl, rfl, rfl⟩

/-- The same for several elements in a row. -/
theorem endElements_alike (halike : TransportAlike R) (count : Nat) {w : XmlWriter ω}
    {w' : XmlWriter ω'} (h : Alike R w w') :
    EndAlike (Alike R) (endElements count w) (endElements count w') := by
  induction count generalizing w w' with
  | zero => exact .ok h
  | succ count ih => exact (endElement_alike halike h).bind fun _ _ _ h => ih h

/-- Writers in the same state over transports that do alike answer every call alike. -/
theorem answerAlike (halike : TransportAlike R) : AnswerAlike (Alike R) := by
  rintro e ⟨t, openElements, isPending, isClosed⟩ ⟨t', openElements', isPending', isClosed'⟩ h
  have hsame := h
  obtain ⟨hrelated, rfl, rfl, rfl⟩ := h
  cases isClosed with
  | true =>
    rw [call_closed, call_closed]
    by_cases hcloses : e = .close
    · rw [if_pos hcloses, if_pos hcloses]
      exact .ok hsame
    · rw [if_neg hcloses, if_neg hcloses]
      exact .error hsame
  | false =>
    cases e with
    | startDocument =>
      rw [call_startDocument_eq, call_startDocument_eq]
      exact putAll_alike halike _ hsame
    | instruction target data =>
      rw [call_instruction_eq, call_instruction_eq]
      exact putAll_alike halike _ ⟨hrelated, rfl, rfl, rfl⟩
    | characters s =>
      rw [call_characters_eq, call_characters_eq]
      exact putAll_alike halike _ ⟨hrelated, rfl, rfl, rfl⟩
    | startElement name =>
      -- the element is open in both or in neither
      have hput : EndAlike (Alike R) (putAll (endPieces isPending ++ ["<", name])
            (⟨t, openElements, false, false⟩ : XmlWriter ω))
          (putAll (endPieces isPending ++ ["<", name])
            (⟨t', openElements, false, false⟩ : XmlWriter ω')) :=
        putAll_alike halike _ ⟨hrelated, rfl, rfl, rfl⟩
      rw [call_startElement_eq, call_startElement_eq]
      generalize putAll _ (⟨t, openElements, false, false⟩ : XmlWriter ω) = result at hput ⊢
      generalize putAll _ (⟨t', openElements, false, false⟩ : XmlWriter ω') = result' at hput ⊢
      cases hput with
      | ok h => exact .ok ⟨h.transport, congrArg (name :: ·) h.openElements, rfl, h.closed⟩
      | error h => exact .error h
    | attr name value =>
      cases isPending with
      | true =>
        rw [call_attr_eq, call_attr_eq]
        exact putAll_alike halike _ hsame
      | false =>
        rw [call_attr_refused, call_attr_refused]
        exact .error hsame
    | endElement => exact endElement_alike halike hsame
    | endDocument =>
      rw [call_endDocument_eq rfl, call_endDocument_eq rfl]
      exact endElements_alike halike _ hsame
    | flush =>
      rw [call_flush_eq, call_flush_eq]
      exact onTransport_alike (halike.flush hrelated) ..
    | close =>
      rw [call_close_eq, call_close_eq]
      exact onTransport_alike (halike.flush hrelated) ..

end Calls

/-! ## Sessions over transports with faults -/

/-- What can be seen of one step of a session that writes XML to a transport with faults. -/
structure StepShown where
  /-- The error, if the step failed. -/
  error? : Option SessionError
  /-- How many elements are open after the step. -/
  depth : Nat
  /-- Whether the writer is closed after the step. -/
  closed : Bool
  /-- How often the transport was flushed up to here. -/
  flushes : Nat
  /-- The bytes that the transport took in the step. -/
  received : List UInt8
  deriving DecidableEq, Repr

/-- What a report shows. -/
def shown (r : StepReport (XmlWriter FaultyTransport)) : StepShown where
  error? := r.error?
  depth := r.after.depth
  closed := r.after.closed
  flushes := r.after.transport.flushes
  received := r.after.transport.receivedSince r.before.transport.received.size

/-- Reports that differ in chunks and interruptions alone show the same. -/
theorem shown_eq_of_alike {r r' : StepReport (XmlWriter FaultyTransport)}
    (h : r.Alike (Alike FaultyTransport.Alike) r') : shown r = shown r' := by
  obtain ⟨herror, hbefore, hafter, -⟩ := h
  simp only [shown, depth, FaultyTransport.receivedSince, herror, hbefore.transport.received,
    hafter.openElements, hafter.closed, hafter.transport.flushes, hafter.transport.received]

variable {L V : Type} [Display L] [Display V]

/-- Any session shows the same in every step over two transports that have taken nothing yet and
that differ in nothing but how many bytes a write takes and in interruptions; and the bytes that
they have taken at the end are the same. -/
theorem runSession_chunks {first second : FaultyTransport} (hready : first.Ready)
    (hready' : second.Ready) (hfaults : first.hardFaults = second.hardFaults)
    (hflushResults : first.flushResults = second.flushResults)
    (hflushes : first.flushes = second.flushes) (steps : List (SessionStep L V)) :
    (runSession steps (new first)).1.map shown = (runSession steps (new second)).1.map shown ∧
      (runSession steps (new first)).2.transport.received =
        (runSession steps (new second)).2.transport.received := by
  have hreceived : first.received = second.received := by rw [hready.received, hready'.received]
  have hstart : Alike FaultyTransport.Alike (new first) (new second) :=
    ⟨⟨hready.inStep.regular, hready'.inStep.regular, hreceived, hfaults, hflushResults, hflushes⟩,
      rfl, rfl, rfl⟩
  obtain ⟨hreports, hlast⟩ :=
    runSession_alike (answerAlike FaultyTransport.transportAlike) steps hstart
  refine ⟨?_, hlast.transport.received⟩
  have hsame : List.Forall₂ (fun r r' => shown r = shown r') (runSession steps (new first)).1
      (runSession steps (new second)).1 := hreports.imp fun _ _ => shown_eq_of_alike
  rw [← List.forall₂_eq_eq_eq, List.forall₂_map_left_iff, List.forall₂_map_right_iff]
  exact hsame

/-- Writes of a single byte, some of them interrupted, show the same as writes without a limit, also
when a name is broken off in the middle and the session goes on. -/
theorem runSession_chunks_interrupted :
    let gone : StreamError := ⟨.brokenPipe, "gone"⟩
    let again : Refusal := .fail ⟨.interrupted, "again"⟩
    let first : FaultyTransport :=
      { chunk := some 1,
        faults := [⟨0, again⟩, ⟨2, again⟩, ⟨3, again⟩, ⟨3, .fail gone⟩, ⟨4, again⟩] }
    let second : FaultyTransport := { faults := [⟨3, .fail gone⟩] }
    let steps : List (SessionStep String String) :=
      [.call (.startElement "abc"), .write (.error ⟨"1", "2"⟩), .call .close]
    (first.Ready ∧ second.Ready ∧ first.hardFaults = second.hardFaults) ∧
      (runSession steps (new first)).1.map shown =
        [⟨some (.call gone), 0, false, 0, bytesOf "<ab"⟩,
          ⟨none, 0, false, 0, bytesOf "<error left=\"1\" right=\"2\"/>"⟩,
          ⟨none, 0, true, 1, []⟩] := by
  intro gone again first second steps
  have hready : first.Ready := ⟨rfl, by simp [first], by simp [first]⟩
  have hready' : second.Ready := ⟨rfl, by simp [second], by simp [second]⟩
  have hfaults : first.hardFaults = second.hardFaults := by decide
  refine ⟨⟨hready, hready', hfaults⟩, ?_⟩
  rw [(runSession_chunks hready hready' hfaults rfl rfl steps).1]
  decide +kernel

end XmlWriter

end ParseMarkup
