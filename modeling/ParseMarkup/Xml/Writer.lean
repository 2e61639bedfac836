import ParseMarkup.Xml.Entity
import ParseMarkup.Stream.Sink
import ParseMarkup.Transport.Basic

/-!
# Writing XML

A sink that writes the events it takes as XML text to a transport. Attribute values and
character data are escaped, so the text is well nested whatever they contain.

The end of a start tag is left open until the next call shows whether the element has content:
if it ends at once, the tag closes as `/>`, otherwise with `>` before the content. Every change
of the writer's own state comes at a fixed place between two pieces of text, so a transport
that fails in between leaves a definite state:

* the mark of an open start tag is taken away before its `>` or `/>` is written;
* an element is taken off the open ones before its end tag is written;
* an element is put on the open ones after `<` and its name are written.

A closed writer refuses every call, except that it may be closed again.
-/

namespace ParseMarkup

/-- A writer of XML. -/
structure XmlWriter (ω : Type) where
  /-- Where the text goes. -/
  transport : ω
  /-- The names of the elements that are open, innermost first. -/
  openElements : List String := []
  /-- Whether the start tag of the innermost element still lacks its end. -/
  startTagOpen : Bool := false
  /-- Whether the writer was closed. -/
  closed : Bool := false
  deriving DecidableEq, Repr

namespace StreamError

/-- What a closed writer answers. -/
def sinkClosed : StreamError := ⟨.other, "xml sink is closed"⟩

/-- What is answered to an attribute when no start tag is open. -/
def strayAttribute (name : String) : StreamError :=
  ⟨.invalidInput, "attribute `" ++ name ++ "` written outside a start tag"⟩

/-- What is answered to the end of an element when none is open. -/
def unmatchedEnd : StreamError :=
  ⟨.invalidInput, "end_element without a matching start_element"⟩

end StreamError

namespace XmlWriter

variable {ω : Type}

/-- A writer at the beginning of a transport. -/
def new (transport : ω) : XmlWriter ω := { transport }

/-- How many elements are open. -/
def depth (w : XmlWriter ω) : Nat := w.openElements.length

/-- Go on only if the writer was not closed. -/
def ensureOpen : StreamM (XmlWriter ω) Unit := fun w =>
  if w.closed then .error .sinkClosed w else .ok () w

/-- Note whether a start tag is open. -/
def setStartTagOpen (isOpen : Bool) : StreamM (XmlWriter ω) Unit := fun w =>
  .ok () { w with startTagOpen := isOpen }

/-- Put an element on the open ones. -/
def pushElement (name : String) : StreamM (XmlWriter ω) Unit := fun w =>
  .ok () { w with openElements := name :: w.openElements }

/-- Take the innermost element off the open ones. -/
def popElement : StreamM (XmlWriter ω) String := fun w =>
  match w.openElements with
  | [] => .error .unmatchedEnd w
  | name :: rest => .ok name { w with openElements := rest }

/-- Note that the writer is closed. -/
def markClosed : StreamM (XmlWriter ω) Unit := fun w => .ok () { w with closed := true }

variable [Transport ω]

/-- Do something to the transport alone. -/
def onTransport (work : StreamM ω Unit) : StreamM (XmlWriter ω) Unit := fun w =>
  match w with
  | ⟨transport, openElements, startTagOpen, closed⟩ =>
    match work transport with
    | .ok _ transport => .ok () ⟨transport, openElements, startTagOpen, closed⟩
    | .error err transport => .error err ⟨transport, openElements, startTagOpen, closed⟩

/-- Write a piece of text as it is. -/
def raw (piece : String) : StreamM (XmlWriter ω) Unit := onTransport (Transport.put piece)

/-- End the start tag that is open, if one is: its element has content. -/
def finishStartTag : StreamM (XmlWriter ω) Unit := do
  if (← get).startTagOpen then
    -- the tag counts as ended even if its `>` does not get through
    setStartTagOpen false
    raw ">"

/-- The XML declaration. It is written as it is, whatever came before. -/
def startDocument : StreamM (XmlWriter ω) Unit := do
  ensureOpen
  raw "<?xml version=\"1.0\"?>"

/-- `<?target data?>`, without the blank if there is no data. -/
def instruction (target data : String) : StreamM (XmlWriter ω) Unit := do
  ensureOpen
  finishStartTag
  raw "<?"
  raw target
  unless data.isEmpty do
    raw " "
    raw data
  raw "?>"

/-- `<name`; the rest of the start tag follows later. -/
def startElement (name : String) : StreamM (XmlWriter ω) Unit := do
  ensureOpen
  finishStartTag
  raw "<"
  raw name
  -- a name that did not get through opens no element
  pushElement name
  setStartTagOpen true

/-- ` name="value"`, the value escaped; refused when no start tag is open. -/
def attr (name value : String) : StreamM (XmlWriter ω) Unit := do
  ensureOpen
  unless (← get).startTagOpen do
    throw (StreamError.strayAttribute name)
  raw " "
  raw name
  raw "=\""
  raw (Xml.escape value)
  raw "\""

/-- The text, escaped. -/
def characters (text : String) : StreamM (XmlWriter ω) Unit := do
  ensureOpen
  finishStartTag
  raw (Xml.escape text)

/-- `/>` if the start tag is still open, else `</name>`; refused when no element is open. -/
def endElement : StreamM (XmlWriter ω) Unit := do
  ensureOpen
  -- the element is no longer open even if its end tag does not get through
  let name ← popElement
  if (← get).startTagOpen then
    setStartTagOpen false
    raw "/>"
  else
    raw "</"
    raw name
    raw ">"

/-- End `count` elements, up to the first that fails. -/
def endElements : Nat → StreamM (XmlWriter ω) Unit
  | 0 => pure ()
  | count + 1 => do
    endElement
    endElements count

/-- End every element that is open, innermost first. -/
def endDocument : StreamM (XmlWriter ω) Unit := do
  ensureOpen
  endElements (← get).depth

/-- Flush the transport. -/
def flush : StreamM (XmlWriter ω) Unit := do
  ensureOpen
  onTransport Transport.flush

/-- Close: no call is taken any more, even if the flush that follows fails. Closing again does
nothing. -/
def close : StreamM (XmlWriter ω) Unit := do
  unless (← get).closed do
    markClosed
    onTransport Transport.flush

/-- The call for an event. -/
def call : Event → StreamM (XmlWriter ω) Unit
  | .startDocument => startDocument
  | .instruction target data => instruction target data
  | .startElement name => startElement name
  | .attr name value => attr name value
  | .characters text => characters text
  | .endElement => endElement
  | .endDocument => endDocument
  | .flush => flush
  | .close => close

instance : Sink (XmlWriter ω) := ⟨call⟩

end XmlWriter

end ParseMarkup
