import ParseMarkup.Dump.Stream
import ParseMarkup.Xml.Writer

/-!
# Dumping a tree as a document

The module introduces:

* `Node.write`: one tree into a document that is already under way, without a limit of depth;
* `Node.dumpWith`, `Node.dump`: a whole document, after which the sink is closed on every path;
* `Node.document`: the XML text of a tree.

If the document fails and closing fails too, the error of the document is the result, and the
other is only logged.
-/

namespace ParseMarkup

/-- How writing to a sink ended. -/
structure Outcome (σ : Type) where
  /-- The error, if it failed. -/
  error? : Option DumpError
  /-- The sink afterwards. -/
  sink : σ
  /-- What was logged, in order. -/
  log : Array LogEntry

variable {σ L V : Type} [Sink σ] [Display L] [Display V]

/-- Write a tree into a document that is already under way. -/
def Node.write (t : Node L V) (sink : σ) : Outcome σ :=
  match t.stream Depth.unlimited ⟨sink, .zero, #[]⟩ with
  | .ok _ ⟨sink, _, log⟩ => ⟨none, sink, log⟩
  | .error err ⟨sink, _, log⟩ => ⟨some err, sink, log⟩

/-- The calls for a document: prologue, stylesheet, the tree, epilogue, and a flush. -/
def Node.streamDocument (config : DumpConfig) (root : Node L V) : DumpM σ Unit := do
  DumpM.call .startDocument
  DumpM.call (.instruction config.stylesheet.target config.stylesheet.data)
  root.stream config.maxDepth
  DumpM.call .endDocument
  DumpM.call .flush

/-- Dump a tree as a whole document and close the sink, whether the document failed or not. -/
def Node.dumpWith (config : DumpConfig) (root : Node L V) (sink : σ) : Outcome σ :=
  match root.streamDocument config ⟨sink, .zero, #[.dumpStarted root.elementName]⟩ with
  | .ok _ ⟨sink, _, log⟩ =>
    match Sink.call .close sink with
    | .ok _ sink => ⟨none, sink, log.push .dumpFinished⟩
    | .error err sink => ⟨some (.sink err), sink, log⟩
  | .error err ⟨sink, _, log⟩ =>
    -- the error of the document is the result, whatever closing says
    match Sink.call .close sink with
    | .ok _ sink => ⟨some err, sink, log⟩
    | .error closeErr sink => ⟨some err, sink, log.push (.closeFailed closeErr.message)⟩

/-- Dump a tree with the default settings. -/
def Node.dump (root : Node L V) (sink : σ) : Outcome σ := root.dumpWith .default sink

/-- Dump a tree into memory. -/
def Node.dumpToMemory (root : Node L V) : Outcome (XmlWriter TextBuffer) :=
  root.dump (XmlWriter.new {})

/-- The XML text of a tree, or why there is none. -/
def Node.document (root : Node L V) : Except DumpError String :=
  let outcome := root.dumpToMemory
  match outcome.error? with
  | none => .ok outcome.sink.transport.text
  | some err => .error err

end ParseMarkup
