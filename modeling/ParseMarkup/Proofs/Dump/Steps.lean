import ParseMarkup.Dump.Document
import ParseMarkup.Proofs.Stream.Forest

/-!
# Streaming as a list of steps

`Node.stream` recurses over a tree in a monad, and may stop in the middle of it. Here the same
work is laid out flat: a tree gives a list of steps that depends on nothing but the tree, and
streaming does these steps in order, up to the first that fails.

The module introduces:

* `StreamStep`: one step, which is to enter a node, to log what formatting a value logs, to make
  a call, or to leave a node;
* `Node.steps`: the steps for a tree, and `Node.documentSteps` those for a whole document;
* `runSteps`: doing steps in order.

The main statements are `Node.stream_eq_runSteps` and `Node.streamDocument_eq_runSteps`. What is
to be known of streaming on any sink follows from them by induction on a list.
-/

namespace ParseMarkup

/-- One step of streaming a tree. -/
inductive StreamStep where
  /-- Enter a node, which fails if it is too deep, and note it. -/
  | enter (element : String) (id : Option String)
  /-- Log what formatting a value logs. -/
  | log (entries : List LogEntry)
  /-- Make a call on the sink. -/
  | call (e : Event)
  /-- Leave a node. -/
  | leave

section Steps

variable {L V α : Type} [Display L] [Display V] [Display α]

/-! ## Steps of a tree -/

/-- The steps for an attribute with the text of a value. -/
def attrSteps (name : String) (a : α) : List StreamStep :=
  [.log (display a).entries, .call (.attr name (displayText a))]

/-- The steps for an attribute that is passed on if there is a value for it. -/
def attrSteps? (name : String) : Option α → List StreamStep
  | none => []
  | some a => attrSteps name a

/-- The steps for content that is passed on if there is a value for it. -/
def charactersSteps? : Option α → List StreamStep
  | none => []
  | some a => [.log (display a).entries, .call (.characters (displayText a))]

/-- The steps for a token. -/
def Terminal.steps (t : Terminal L V) : List StreamStep :=
  [.call (.startElement "terminal"), .call (.attr "id" t.tag)] ++ attrSteps "left" t.left ++
    attrSteps "right" t.right ++ charactersSteps? t.value ++ [.call .endElement]

/-- The steps for an error leaf. -/
def ErrorNode.steps (e : ErrorNode L) : List StreamStep :=
  [.call (.startElement "error")] ++ attrSteps "left" e.left ++ attrSteps "right" e.right ++
    [.call .endElement]

mutual

/-- The steps for a tree. -/
def Node.steps : Node L V → List StreamStep
  | .terminal t => .enter "terminal" (some t.tag) :: t.steps ++ [.leave]
  | .error e => .enter "error" none :: e.steps ++ [.leave]
  | .nonterminal ⟨tag, variant, cs⟩ =>
    [.enter "nonterminal" (some tag), .call (.startElement "nonterminal"),
        .call (.attr "id" tag)] ++
      attrSteps "variant" variant ++ attrSteps? "left" (leftmost cs) ++
      attrSteps? "right" (rightmost cs) ++ Node.stepsAll cs ++ [.call .endElement, .leave]

/-- The steps for several trees, tree after tree. -/
def Node.stepsAll : List (Node L V) → List StreamStep
  | [] => []
  | c :: cs => Node.steps c ++ Node.stepsAll cs

end

/-- The steps for a tree as a whole document, before the sink is closed. -/
def Node.documentSteps (config : DumpConfig) (root : Node L V) : List StreamStep :=
  [.call .startDocument, .call (.instruction config.stylesheet.target config.stylesheet.data)] ++
    root.steps ++ [.call .endDocument, .call .flush]

/-! ## Calls among the steps -/

/-- The event of a step, if it is a call. -/
def StreamStep.call? : StreamStep → Option Event
  | .call e => some e
  | _ => none

/-- The calls among some steps, in order. -/
def callsIn (steps : List StreamStep) : List Event := steps.filterMap StreamStep.call?

@[simp] theorem callsIn_nil : callsIn [] = [] := rfl

@[simp] theorem callsIn_enter (element : String) (id : Option String) (rest : List StreamStep) :
    callsIn (.enter element id :: rest) = callsIn rest := rfl

@[simp] theorem callsIn_log (entries : List LogEntry) (rest : List StreamStep) :
    callsIn (.log entries :: rest) = callsIn rest := rfl

@[simp] theorem callsIn_call (e : Event) (rest : List StreamStep) :
    callsIn (.call e :: rest) = e :: callsIn rest := rfl

@[simp] theorem callsIn_leave (rest : List StreamStep) :
    callsIn (.leave :: rest) = callsIn rest := rfl

@[simp] theorem callsIn_append (first second : List StreamStep) :
    callsIn (first ++ second) = callsIn first ++ callsIn second := by
  simp [callsIn]

/-- The calls in some steps are the steps that are calls. -/
theorem mem_callsIn {e : Event} {steps : List StreamStep} :
    e ∈ callsIn steps ↔ .call e ∈ steps := by
  constructor
  · intro h
    obtain ⟨step, hmem, heq⟩ := List.mem_filterMap.1 h
    cases step with
    | call e' =>
      rw [← Option.some.inj heq]
      exact hmem
    | _ => cases heq
  · intro h
    exact List.mem_filterMap.2 ⟨_, h, rfl⟩

/-- The attribute with the text of a value, if there is a value for it. -/
def attrOf? (name : String) : Option α → List (String × String)
  | none => []
  | some a => [(name, displayText a)]

/-- Displaying a value and then its text shows the text of the value. -/
theorem attrOf?_map (name : String) (a : Option α) :
    attrOf? name (a.map displayText) = attrOf? name a := by
  cases a <;> rfl

/-- The element that a token is streamed as. -/
def Terminal.item (t : Terminal L V) : Item :=
  .element "terminal" [("id", t.tag), ("left", displayText t.left), ("right", displayText t.right)]
    (t.value.elim [] fun v => [.text (displayText v)])

/-- The element that an error leaf is streamed as. -/
def ErrorNode.item (e : ErrorNode L) : Item :=
  .element "error" [("left", displayText e.left), ("right", displayText e.right)] []

/-- The attributes of a production: tag, variant, and the endpoints it reports if it has any. -/
def Production.attrs (n : Production (Node L V)) : List (String × String) :=
  [("id", n.tag), ("variant", displayText n.variant)] ++ attrOf? "left" n.left? ++
    attrOf? "right" n.right?

mutual

/-- The element that a tree is streamed as. -/
def Node.item : Node L V → Item
  | .terminal t => t.item
  | .error e => e.item
  | .nonterminal ⟨tag, variant, cs⟩ =>
    .element "nonterminal" (Production.attrs ⟨tag, variant, cs⟩) (Node.items cs)

/-- The elements that several trees are streamed as. -/
def Node.items : List (Node L V) → List Item
  | [] => []
  | c :: cs => Node.item c :: Node.items cs

end

/-- An attribute that may be left out makes one call or none. -/
theorem callsIn_attrSteps? (name : String) (a : Option α) :
    callsIn (attrSteps? name a) = attrEvents (attrOf? name a) := by
  cases a <;> rfl

theorem Terminal.callsIn_steps (t : Terminal L V) : callsIn t.steps = t.item.events := by
  obtain ⟨left, tag, value, right⟩ := t
  cases value <;> rfl

theorem ErrorNode.callsIn_steps (e : ErrorNode L) : callsIn e.steps = e.item.events := rfl

mutual

/-- The calls for a tree are the events of its element. -/
theorem Node.callsIn_steps : ∀ t : Node L V, callsIn t.steps = t.item.events
  | .terminal t => by simp [Node.steps, Node.item, t.callsIn_steps]
  | .error e => by simp [Node.steps, Node.item, e.callsIn_steps]
  | .nonterminal ⟨tag, variant, cs⟩ => by
    simp [Node.steps, Node.item, Item.events, callsIn_attrSteps?, Node.callsIn_stepsAll cs,
      attrSteps, Production.attrs, Production.left?, Production.right?, attrEvents_cons,
      attrEvents_append]

/-- The same for several trees. -/
theorem Node.callsIn_stepsAll :
    ∀ cs : List (Node L V), callsIn (Node.stepsAll cs) = Item.eventsAll (Node.items cs)
  | [] => rfl
  | c :: cs => by
    rw [Node.stepsAll, callsIn_append, Node.callsIn_steps c, Node.callsIn_stepsAll cs]
    rfl

end

end Steps

section Run

open DumpM

variable {σ L V α : Type} [Sink σ] [Display L] [Display V] [Display α]

/-! ## Doing the steps -/

/-- Do one step. No node may be deeper than `limit`. -/
def StreamStep.run (limit : UInt64) : StreamStep → DumpM σ Unit
  | .enter element id => enterNode limit element id
  | .log entries => fun p => .ok () { p with log := p.log ++ entries }
  | .call e => DumpM.call e
  | .leave => leaveNode

/-- Entering a node goes one deeper in any case. -/
theorem StreamStep.run_enter (limit : UInt64) (element : String) (id : Option String)
    (p : Progress σ) :
    (StreamStep.enter element id).run limit p =
      if p.depth.succ.current > limit then
        .error (.depthLimitExceeded p.depth.succ.current limit) { p with depth := p.depth.succ }
      else
        .ok () ⟨p.sink, p.depth.succ, p.log.push (.entering element id p.depth.succ.current)⟩ := by
  obtain ⟨sink, depth, log⟩ := p
  -- the depth is the same in both cases: a node that is too deep has been entered as well
  by_cases hdeep : depth.succ.current > limit
  · simp [StreamStep.run, enterNode, onDepth, Depth.enter, hdeep, bind, EStateM.bind]
  · simp only [StreamStep.run, enterNode, onDepth, Depth.enter, if_neg hdeep, bind, EStateM.bind]
    rfl

/-- A call changes the sink alone. -/
theorem StreamStep.run_call (limit : UInt64) (e : Event) (p : Progress σ) :
    (StreamStep.call e).run limit p =
      match Sink.call e p.sink with
      | .ok _ sink => .ok () { p with sink }
      | .error err sink => .error (.sink err) { p with sink } := by
  obtain ⟨sink, depth, log⟩ := p
  rfl

/-- Do the steps in order, up to the first that fails. -/
def runSteps (limit : UInt64) : List StreamStep → DumpM σ Unit
  | [] => pure ()
  | step :: rest => do
    step.run limit
    runSteps limit rest

/-- What the first step leaves is what the others begin with, unless it fails. -/
theorem runSteps_cons_apply (limit : UInt64) (step : StreamStep) (rest : List StreamStep)
    (p : Progress σ) :
    runSteps limit (step :: rest) p =
      match step.run limit p with
      | .ok _ p => runSteps limit rest p
      | .error err p => .error err p := by
  simp only [runSteps, bind, EStateM.bind]
  cases step.run limit p <;> rfl

/-- To run two runs of steps is to run the first and, if it does not fail, the second. -/
theorem runSteps_append (limit : UInt64) (first second : List StreamStep) :
    runSteps (σ := σ) limit (first ++ second) = (do
      runSteps limit first
      runSteps limit second) := by
  -- the monad laws bring both sides to one chain of steps
  induction first with
  | nil => simp [runSteps]
  | cons step rest ih => simp [runSteps, ih]

/-- The steps of an attribute are what streaming it does: its value is displayed, what that logs is
noted, and the call is made. -/
theorem runSteps_attrSteps (limit : UInt64) (name : String) (a : α) :
    runSteps (σ := σ) limit (attrSteps name a) = attr name a := by
  simp only [attrSteps, runSteps, bind_pure_unit]
  rfl

theorem runSteps_attrSteps? (limit : UInt64) (name : String) (a : Option α) :
    runSteps (σ := σ) limit (attrSteps? name a) = attr? name a := by
  cases a with
  | none => rfl
  | some a => exact runSteps_attrSteps limit name a

theorem runSteps_charactersSteps? (limit : UInt64) (a : Option α) :
    runSteps (σ := σ) limit (charactersSteps? a) = characters? a := by
  cases a with
  | none => rfl
  | some a =>
    simp only [charactersSteps?, runSteps, bind_pure_unit]
    rfl

/-- Streaming a token runs its steps, whatever the limit, since a token has no children. -/
theorem Terminal.stream_eq_runSteps (limit : UInt64) (t : Terminal L V) :
    t.stream (σ := σ) = runSteps limit t.steps := by
  simp [Terminal.stream, Terminal.steps, runSteps_append, runSteps, StreamStep.run,
    runSteps_attrSteps, runSteps_charactersSteps?]

theorem ErrorNode.stream_eq_runSteps (limit : UInt64) (e : ErrorNode L) :
    e.stream (σ := σ) = runSteps limit e.steps := by
  simp [ErrorNode.stream, ErrorNode.steps, runSteps_append, runSteps, StreamStep.run,
    runSteps_attrSteps]

-- One case for each kind of node: its own calls are laid out by the lemmas above, its children by
-- the companion on lists.
mutual

/-- Streaming a tree does its steps in order. -/
theorem Node.stream_eq_runSteps (limit : UInt64) :
    ∀ t : Node L V, t.stream (σ := σ) limit = runSteps limit t.steps
  | .terminal t => by
    simp [Node.stream, Node.steps, runSteps_append, runSteps, StreamStep.run,
      t.stream_eq_runSteps limit]
  | .error e => by
    simp [Node.stream, Node.steps, runSteps_append, runSteps, StreamStep.run,
      e.stream_eq_runSteps limit]
  | .nonterminal ⟨tag, variant, cs⟩ => by
    simp [Node.stream, Node.steps, runSteps_append, runSteps, StreamStep.run,
      runSteps_attrSteps, runSteps_attrSteps?, Node.streamAll_eq_runSteps limit cs]

/-- The same for several trees. -/
theorem Node.streamAll_eq_runSteps (limit : UInt64) :
    ∀ cs : List (Node L V), Node.streamAll (σ := σ) limit cs = runSteps limit (Node.stepsAll cs)
  | [] => by simp [Node.streamAll, Node.stepsAll, runSteps]
  | c :: cs => by
    simp [Node.streamAll, Node.stepsAll, runSteps_append, Node.stream_eq_runSteps limit c,
      Node.streamAll_eq_runSteps limit cs]

end

/-- Streaming a whole document does its steps in order. -/
theorem Node.streamDocument_eq_runSteps (config : DumpConfig) (root : Node L V) :
    root.streamDocument (σ := σ) config = runSteps config.maxDepth (root.documentSteps config) := by
  simp [Node.streamDocument, Node.documentSteps, runSteps_append, runSteps, StreamStep.run,
    Node.stream_eq_runSteps]

end Run

end ParseMarkup
