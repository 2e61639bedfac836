import ParseMarkup.Xml.Writer

/-!
# Calls as pieces of text

What a call on an XML writer does over any transport, laid out flat: it first changes the state of
the writer, then puts some pieces of text one after the other, up to the first that the transport
refuses. Only the start of an element changes the state once more, when all pieces are put.

The module introduces `XmlWriter.putAll`, putting pieces in order, and states each call through it
(`XmlWriter.call_startElement_eq` and so on). The main statement is `XmlWriter.putAll_cases`:
putting pieces changes nothing but the transport, however it ends.
-/

namespace ParseMarkup

namespace XmlWriter

variable {ω : Type} [Transport ω]

/-- Put pieces of text in order, up to the first that is refused. -/
def putAll : List String → StreamM (XmlWriter ω) Unit
  | [] => pure ()
  | piece :: pieces => do
    raw piece
    putAll pieces

/-- The piece that completes a start tag, if one is pending. -/
def endPieces (isPending : Bool) : List String := if isPending then [">"] else []

section Calls

variable (t : ω) (openElements : List String) (isPending : Bool)

/-- A piece of text goes to the transport and to nothing else. -/
theorem raw_cases (isClosed : Bool) (piece : String) :
    (∃ t', raw piece (⟨t, openElements, isPending, isClosed⟩ : XmlWriter ω) =
        .ok () ⟨t', openElements, isPending, isClosed⟩) ∨
      ∃ err t', raw piece (⟨t, openElements, isPending, isClosed⟩ : XmlWriter ω) =
        .error err ⟨t', openElements, isPending, isClosed⟩ := by
  simp only [raw, onTransport]
  cases hput : Transport.put piece t with
  | ok _ t' => exact Or.inl ⟨t', rfl⟩
  | error err t' => exact Or.inr ⟨err, t', rfl⟩

/-- Neither do many pieces change the state of the writer, whether they all get through or not. -/
theorem putAll_cases (isClosed : Bool) (pieces : List String) :
    (∃ t', putAll pieces (⟨t, openElements, isPending, isClosed⟩ : XmlWriter ω) =
        .ok () ⟨t', openElements, isPending, isClosed⟩) ∨
      ∃ err t', putAll pieces (⟨t, openElements, isPending, isClosed⟩ : XmlWriter ω) =
        .error err ⟨t', openElements, isPending, isClosed⟩ := by
  induction pieces generalizing t with
  | nil => exact Or.inl ⟨t, rfl⟩
  | cons piece pieces ih =>
    simp only [putAll, bind, EStateM.bind]
    rcases raw_cases t openElements isPending isClosed piece with ⟨t', hput⟩ | ⟨err, t', hput⟩
    · rw [hput]
      exact ih t'
    · rw [hput]
      exact Or.inr ⟨err, t', rfl⟩

/-- A pending start tag is completed by a piece of its own, which comes before the others. -/
theorem finishStartTag_bind_putAll (pieces : List String) :
    (ensureOpen >>= fun _ => finishStartTag >>= fun _ => putAll pieces)
        (⟨t, openElements, isPending, false⟩ : XmlWriter ω) =
      putAll (endPieces isPending ++ pieces) ⟨t, openElements, false, false⟩ := by
  cases isPending
  · rfl
  · rfl

/-! ## The calls -/

/-- The prologue is one piece, with no end of a pending start tag before it. -/
theorem call_startDocument_eq :
    Sink.call .startDocument (⟨t, openElements, isPending, false⟩ : XmlWriter ω) =
      putAll ["<?xml version=\"1.0\"?>"] ⟨t, openElements, isPending, false⟩ := by
  simp only [putAll, bind_pure_unit]
  rfl

/-- An instruction is put in pieces, after the end of a pending start tag. -/
theorem call_instruction_eq (target data : String) :
    Sink.call (.instruction target data) (⟨t, openElements, isPending, false⟩ : XmlWriter ω) =
      putAll (endPieces isPending ++
          (["<?", target] ++ (if data.isEmpty then [] else [" ", data]) ++ ["?>"]))
        ⟨t, openElements, false, false⟩ := by
  rw [← finishStartTag_bind_putAll]
  show instruction target data ⟨t, openElements, isPending, false⟩ = _
  cases h : data.isEmpty <;> simp [instruction, putAll, h]

/-- A text is one escaped piece, after the end of a pending start tag. -/
theorem call_characters_eq (s : String) :
    Sink.call (.characters s) (⟨t, openElements, isPending, false⟩ : XmlWriter ω) =
      putAll (endPieces isPending ++ [Xml.escape s]) ⟨t, openElements, false, false⟩ := by
  rw [← finishStartTag_bind_putAll]
  show characters s ⟨t, openElements, isPending, false⟩ = _
  simp [characters, putAll]

omit [Transport ω] in

/-- An element is open only after its start was put: if that fails, the writer is left as the
failure leaves it. -/
theorem bind_openElement (name : String) (work : StreamM (XmlWriter ω) Unit) (w : XmlWriter ω) :
    (work >>= fun _ => pushElement name >>= fun _ => setStartTagOpen true) w =
      match work w with
      | .ok _ w => .ok () { w with openElements := name :: w.openElements, startTagOpen := true }
      | .error err w => .error err w := by
  simp only [bind, EStateM.bind]
  cases work w <;> rfl

/-- The element is open, and its start tag pending, only when all pieces have got through. -/
theorem call_startElement_eq (name : String) :
    Sink.call (.startElement name) (⟨t, openElements, isPending, false⟩ : XmlWriter ω) =
      match putAll (endPieces isPending ++ ["<", name])
          (⟨t, openElements, false, false⟩ : XmlWriter ω) with
      | .ok _ w => .ok () { w with openElements := name :: w.openElements, startTagOpen := true }
      | .error err w => .error err w := by
  have hsplit : startElement (ω := ω) name =
      ((ensureOpen >>= fun _ => finishStartTag >>= fun _ => putAll ["<", name]) >>= fun _ =>
        pushElement name >>= fun _ => setStartTagOpen true) := by
    simp [startElement, putAll]
  show startElement name ⟨t, openElements, isPending, false⟩ = _
  rw [← finishStartTag_bind_putAll, hsplit, bind_openElement]

/-- An attribute is put if a start tag is pending. -/
theorem call_attr_eq (name value : String) :
    Sink.call (.attr name value) (⟨t, openElements, true, false⟩ : XmlWriter ω) =
      putAll [" ", name, "=\"", Xml.escape value, "\""] ⟨t, openElements, true, false⟩ := by
  simp only [putAll, bind_pure_unit]
  rfl

/-- Otherwise it is refused before anything is put. -/
theorem call_attr_refused (name value : String) :
    Sink.call (.attr name value) (⟨t, openElements, false, false⟩ : XmlWriter ω) =
      .error (.strayAttribute name) ⟨t, openElements, false, false⟩ := rfl

/-- The element is not open any more when its end is put. -/
theorem call_endElement_eq (name : String) :
    Sink.call .endElement (⟨t, name :: openElements, isPending, false⟩ : XmlWriter ω) =
      putAll (if isPending then ["/>"] else ["</", name, ">"])
        ⟨t, openElements, false, false⟩ := by
  cases isPending
  · simp only [Bool.false_eq_true, if_false, putAll, bind_pure_unit]
    rfl
  · simp only [if_true, putAll, bind_pure_unit]
    rfl

/-- Without an open element, nothing is put. -/
theorem call_endElement_refused :
    Sink.call .endElement (⟨t, [], isPending, false⟩ : XmlWriter ω) =
      .error .unmatchedEnd ⟨t, [], isPending, false⟩ := rfl

/-- Flushing is left to the transport. -/
theorem call_flush_eq :
    Sink.call .flush (⟨t, openElements, isPending, false⟩ : XmlWriter ω) =
      onTransport Transport.flush ⟨t, openElements, isPending, false⟩ := rfl

/-- The writer is closed before the transport is flushed. -/
theorem call_close_eq :
    Sink.call .close (⟨t, openElements, isPending, false⟩ : XmlWriter ω) =
      onTransport Transport.flush ⟨t, openElements, isPending, true⟩ := rfl

/-- A closed writer refuses every call, except that closing it again does nothing. -/
theorem call_closed (e : Event) :
    Sink.call e (⟨t, openElements, isPending, true⟩ : XmlWriter ω) =
      if e = .close then .ok () ⟨t, openElements, isPending, true⟩
      else .error .sinkClosed ⟨t, openElements, isPending, true⟩ := by
  cases e <;> rfl

/-- Flushing puts nothing. -/
theorem call_flush_cases :
    (∃ t', Sink.call .flush (⟨t, openElements, isPending, false⟩ : XmlWriter ω) =
        .ok () ⟨t', openElements, isPending, false⟩) ∨
      ∃ err t', Sink.call .flush (⟨t, openElements, isPending, false⟩ : XmlWriter ω) =
        .error err ⟨t', openElements, isPending, false⟩ := by
  rw [call_flush_eq]
  simp only [onTransport]
  cases Transport.flush t with
  | ok _ t' => exact Or.inl ⟨t', rfl⟩
  | error err t' => exact Or.inr ⟨err, t', rfl⟩

end Calls

/-- The end of a document is the ends of its open elements, up to the first that fails. -/
theorem call_endDocument_eq {w : XmlWriter ω} (h : w.closed = false) :
    Sink.call .endDocument w = endElements w.depth w := by
  obtain ⟨t, openElements, isPending, closed⟩ := w
  cases h
  rfl

end XmlWriter

end ParseMarkup
