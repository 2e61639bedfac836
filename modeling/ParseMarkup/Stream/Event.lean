/-!
# Events of a document

A document is passed on as a sequence of events, one per call: nothing is held back, and
whoever takes the events decides on the format.
-/

namespace ParseMarkup

/-- One call made on the consumer of a document. -/
inductive Event where
  /-- The prologue of a document. -/
  | startDocument
  /-- A processing instruction, such as one that names a stylesheet. -/
  | instruction (target data : String)
  /-- An element begins. -/
  | startElement (name : String)
  /-- An attribute of the element that began last. -/
  | attr (name value : String)
  /-- Text in the current element. -/
  | characters (text : String)
  /-- The element that began last, of those that are open, ends. -/
  | endElement
  /-- The epilogue of a document. -/
  | endDocument
  /-- What is buffered is to be passed on. -/
  | flush
  /-- No more events follow. -/
  | close
  deriving DecidableEq, Repr

end ParseMarkup
