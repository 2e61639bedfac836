import ParseMarkup.Dump.Config
import ParseMarkup.Stream.Sink
import ParseMarkup.Tree.Span

/-!
# Streaming a tree

A tree is passed to a sink call by call, with nothing held back: what has reached the sink when
a call fails stays there, and no further call is made for the tree.

The module introduces:

* `Progress`: the sink, the depth and the log in the middle of streaming;
* `DumpM`: work on a `Progress` that may fail;
* `Node.stream`: the calls for a tree.

For a node, the depth is entered first, then the node is noted in the log, then its calls are
made. Each value is formatted right before the call that passes its text on.
-/

namespace ParseMarkup

/-- How far streaming to a sink has come. -/
structure Progress (σ : Type) where
  /-- The sink after the calls so far. -/
  sink : σ
  /-- How many nodes have been entered and not left. -/
  depth : Depth
  /-- The entries logged so far. -/
  log : Array LogEntry

/-- Streaming work on a sink of type `σ`. A failure keeps what was done before it. -/
abbrev DumpM (σ α : Type) : Type := EStateM DumpError (Progress σ) α

namespace DumpM

variable {σ : Type}

/-- Add an entry to the log. -/
def note (entry : LogEntry) : DumpM σ Unit := fun p =>
  match p with
  | ⟨sink, depth, log⟩ => .ok () ⟨sink, depth, log.push entry⟩

/-- Make a call on the sink. -/
def call [Sink σ] (e : Event) : DumpM σ Unit := fun p =>
  match p with
  | ⟨sink, depth, log⟩ =>
    match Sink.call e sink with
    | .ok _ sink => .ok () ⟨sink, depth, log⟩
    | .error err sink => .error (.sink err) ⟨sink, depth, log⟩

/-- The text of a value. What formatting it logs, a warning if it broke off among it, goes to the
log. -/
def format {α : Type} [Display α] (a : α) : DumpM σ String := fun p =>
  match p with
  | ⟨sink, depth, log⟩ =>
    let d := display a
    .ok d.text ⟨sink, depth, log ++ d.entries⟩

/-- Do something to the depth alone. -/
def onDepth (work : EStateM DumpError Depth Unit) : DumpM σ Unit := fun p =>
  match p with
  | ⟨sink, depth, log⟩ =>
    match work depth with
    | .ok _ depth => .ok () ⟨sink, depth, log⟩
    | .error err depth => .error err ⟨sink, depth, log⟩

/-- Enter a node: go one deeper, and note the node and its depth unless that was too deep. -/
def enterNode (limit : UInt64) (element : String) (id : Option String) : DumpM σ Unit := do
  onDepth (Depth.enter limit)
  -- a node that is too deep is not noted
  note (.entering element id (← get).depth.current)

/-- Leave a node. -/
def leaveNode : DumpM σ Unit := onDepth Depth.leave

variable [Sink σ]

/-- Pass on an attribute with the text of a value. -/
def attr {α : Type} [Display α] (name : String) (a : α) : DumpM σ Unit := do
  let text ← format a
  call (.attr name text)

/-- Pass on an attribute if there is a value for it. -/
def attr? {α : Type} [Display α] (name : String) : Option α → DumpM σ Unit
  | none => pure ()
  | some a => attr name a

/-- Pass on the text of a value as content. -/
def characters {α : Type} [Display α] (a : α) : DumpM σ Unit := do
  let text ← format a
  call (.characters text)

/-- Pass on the text of a value as content if there is one. -/
def characters? {α : Type} [Display α] : Option α → DumpM σ Unit
  | none => pure ()
  | some a => characters a

end DumpM

open DumpM

variable {σ L V : Type} [Sink σ] [Display L] [Display V]

/-- The calls for a token: tag, both endpoints, and the value as content if there is one. -/
def Terminal.stream (t : Terminal L V) : DumpM σ Unit := do
  call (.startElement "terminal")
  call (.attr "id" t.tag)
  attr "left" t.left
  attr "right" t.right
  characters? t.value
  call .endElement

/-- The calls for an error leaf: both endpoints. -/
def ErrorNode.stream (e : ErrorNode L) : DumpM σ Unit := do
  call (.startElement "error")
  attr "left" e.left
  attr "right" e.right
  call .endElement

mutual

/-- The calls for a tree, as long as no node is deeper than `limit`. A production passes on its
tag, its variant, the endpoints it reports if it has any, and then its children in order. -/
def Node.stream (limit : UInt64) : Node L V → DumpM σ Unit
  | .terminal t => do
    enterNode limit "terminal" (some t.tag)
    t.stream
    leaveNode
  | .error e => do
    enterNode limit "error" none
    e.stream
    leaveNode
  | .nonterminal ⟨tag, variant, cs⟩ => do
    enterNode limit "nonterminal" (some tag)
    call (.startElement "nonterminal")
    call (.attr "id" tag)
    attr "variant" variant
    -- the endpoints are attributes, so they come before the first child
    attr? "left" (leftmost cs)
    attr? "right" (rightmost cs)
    Node.streamAll limit cs
    call .endElement
    leaveNode

/-- The calls for several trees, tree after tree. -/
def Node.streamAll (limit : UInt64) : List (Node L V) → DumpM σ Unit
  | [] => pure ()
  | c :: cs => do
    Node.stream limit c
    Node.streamAll limit cs

end

end ParseMarkup
