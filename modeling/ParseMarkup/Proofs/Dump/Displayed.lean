import ParseMarkup.Proofs.Dump.Reader
import ParseMarkup.Proofs.Dump.Scratch
import ParseMarkup.Proofs.Markup.Agreement

/-!
# Output is made of displayed texts

Rendering and streaming show a location or a payload only as the text it is displayed as, and show
that text only in the place of this one value. The places are a matter of the tree: which calls are
made, in which order, and which of them passes on which value is settled before anything is
displayed. So a value that breaks off changes its own text and nothing else.

The module introduces:

* `Part`: a piece of a rendered text with its value still to be displayed, and `Node.parts`;
* `Slot`: a call with its value still to be displayed;
* `Cue`: one thing that is done when a tree is streamed, and `Node.cues`;
* `Plan`: the slots that are called for some cues, and why no more are, and `Node.plan`.

None of these depends on how values are displayed. The main statements: the displayed texts of the
parts of a tree are its rendering (`Node.render_eq_textAll_parts`), its script is that of its plan
(`Node.documentScript_eq_plan`), and the consequences for both outputs (`Node.output_displayed`).
-/

namespace ParseMarkup

/-! ## Parts of a rendered text -/

/-- A piece of a rendered text. -/
inductive Part (L V : Type) where
  /-- A text that is the same however values are displayed. -/
  | given (s : String)
  /-- The text of a location. -/
  | location (l : L)
  /-- The text of a payload. -/
  | payload (v : V)

section Parts

variable {L V : Type}

/-- The pieces of an attribute that shows a location. -/
def Part.attr (name : String) (l : L) : List (Part L V) :=
  [.given (" " ++ name ++ "=\""), .location l, .given "\""]

/-- The pieces of an attribute that shows a location if there is one. -/
def Part.attr? (name : String) : Option L → List (Part L V)
  | none => []
  | some l => Part.attr name l

/-- The beginning of a start tag, with the attributes that are given as texts. -/
def Part.startTag (name : String) (attrs : List (String × String)) : Part L V :=
  .given ("<" ++ name ++ tagAttrs id attrs)

mutual

/-- The pieces of a tree. -/
def Node.parts : Node L V → List (Part L V)
  | .terminal ⟨_, tag, none, _⟩ => [.startTag "terminal" [("id", tag)], .given "/>"]
  | .terminal ⟨left, tag, some v, right⟩ =>
    .startTag "terminal" [("id", tag)] :: Part.attr "left" left ++ Part.attr "right" right ++
      [.given ">", .payload v, .given "</terminal>"]
  | .error ⟨left, right⟩ =>
    .startTag "error" [] :: Part.attr "left" left ++ Part.attr "right" right ++ [.given "/>"]
  | .nonterminal ⟨tag, variant, []⟩ =>
    [.startTag "nonterminal" [("id", tag), ("variant", displayText variant)], .given " />"]
  | .nonterminal ⟨tag, variant, c :: cs⟩ =>
    .startTag "nonterminal" [("id", tag)] :: Part.attr? "left" (leftmost (c :: cs)) ++
      Part.attr? "right" (rightmost (c :: cs)) ++
      .given (tagAttrs id [("variant", displayText variant)] ++ ">") ::
        (Node.partsAll (c :: cs) ++ [.given "</nonterminal>"])

/-- The pieces of several trees, tree after tree. -/
def Node.partsAll : List (Node L V) → List (Part L V)
  | [] => []
  | c :: cs => Node.parts c ++ Node.partsAll cs

end

variable [Display L] [Display V]

/-- The text of a piece. -/
def Part.text : Part L V → String
  | given s => s
  | location l => displayText l
  | payload v => displayText v

/-- The text of several pieces. -/
def Part.textAll (parts : List (Part L V)) : String := String.join (parts.map Part.text)

@[simp] theorem Part.textAll_nil : Part.textAll ([] : List (Part L V)) = "" := rfl

@[simp] theorem Part.textAll_cons (part : Part L V) (parts : List (Part L V)) :
    Part.textAll (part :: parts) = part.text ++ Part.textAll parts :=
  String.join_cons

@[simp] theorem Part.textAll_append (parts parts' : List (Part L V)) :
    Part.textAll (parts ++ parts') = Part.textAll parts ++ Part.textAll parts' := by
  rw [textAll, List.map_append, String.join_append]
  rfl

/-- The parts of an attribute with a location make up the attribute as it is written in a tag. -/
theorem Part.textAll_attr (name : String) (l : L) :
    Part.textAll (Part.attr name l : List (Part L V)) = tagAttrs id [(name, displayText l)] := by
  simp [Part.attr, Part.text, tagAttrs, String.append_assoc]

/-- The same for an attribute that is left out when there is no location. -/
theorem Part.textAll_attr? (name : String) (l : Option L) :
    Part.textAll (Part.attr? name l : List (Part L V)) = tagAttrs id (attrOf? name l) := by
  cases l with
  | none => rfl
  | some l => exact Part.textAll_attr name l

mutual

/-- Rendering a tree appends the texts of its pieces. -/
theorem Node.text_print_parts :
    ∀ (t : Node L V) (p : Printer), (t.print p).text = p.text ++ Part.textAll t.parts
  | .terminal ⟨left, tag, none, right⟩, p => by
    simp only [Node.print, Terminal.print, parts, Part.textAll_cons, Part.textAll_nil, Part.text,
      Part.startTag, Printer.text_selfClose, Printer.text_attr, Printer.text_startTag,
      String.append_assoc, String.append_empty]
    rfl
  | .terminal ⟨left, tag, some v, right⟩, p => by
    simp only [Node.print, Terminal.print, parts, List.cons_append, Part.textAll_cons,
      Part.textAll_append, Part.textAll_attr, Part.textAll_nil, Part.text, Part.startTag,
      Printer.text_endTag, Printer.text_value, Printer.text_endStartTag, Printer.text_attr,
      Printer.text_startTag, String.append_assoc, String.append_empty]
    rfl
  | .error e, p => by
    simp only [Node.print, ErrorNode.print, parts, List.cons_append, Part.textAll_cons,
      Part.textAll_append, Part.textAll_attr, Part.textAll_nil, Part.text, Part.startTag,
      Printer.text_selfClose, Printer.text_attr, Printer.text_startTag, tagAttrs,
      String.append_assoc, String.append_empty]
  | .nonterminal ⟨tag, variant, []⟩, p => by
    simp only [Node.print, parts, Part.textAll_cons, Part.textAll_nil, Part.text, Part.startTag,
      Printer.text_selfClose, Printer.text_space, Printer.text_attr, Printer.text_startTag,
      tagAttrs, String.append_assoc, String.append_empty]
    rfl
  | .nonterminal ⟨tag, variant, c :: cs⟩, p => by
    -- the children are printed one by one into whatever the start tag has left
    simp only [Node.print, parts, List.cons_append, Part.textAll_cons, Part.textAll_append,
      Part.textAll_attr?, Part.textAll_nil, Part.text, Part.startTag, Printer.text_endTag,
      Node.text_printAll_parts (c :: cs), Printer.text_endStartTag, Printer.text_attr,
      Printer.text_attr?, Printer.text_startTag, String.append_assoc, String.append_empty]
    rfl

/-- The same for several trees. -/
theorem Node.text_printAll_parts :
    ∀ (cs : List (Node L V)) (p : Printer),
      (printAll cs p).text = p.text ++ Part.textAll (Node.partsAll cs)
  | [], p => by simp [printAll, partsAll]
  | c :: cs, p => by
    rw [printAll, Node.text_printAll_parts cs, Node.text_print_parts c, partsAll,
      Part.textAll_append, String.append_assoc]

end

/-- The text of a tree is made of the texts of its pieces. -/
theorem Node.render_eq_textAll_parts (t : Node L V) : t.render = Part.textAll t.parts := by
  rw [Node.render, Node.text_print_parts]
  exact String.empty_append

end Parts

/-! ## Calls with their values in place -/

/-- A call for a tree. -/
inductive Slot (L V : Type) where
  /-- A call that is the same however values are displayed. -/
  | given (e : Event)
  /-- An attribute that shows a number. -/
  | number (name : String) (i : Int32)
  /-- An attribute that shows a location. -/
  | location (name : String) (l : L)
  /-- Content that shows a payload. -/
  | payload (v : V)

/-- One thing that is done when a tree is streamed. -/
inductive Cue (L V : Type) where
  /-- Enter a node. -/
  | enter (element : String) (id : Option String)
  /-- Make a call. -/
  | call (s : Slot L V)
  /-- Leave a node. -/
  | leave

section Cues

variable {L V L' V' : Type}

/-- The cue for an attribute that shows a location if there is one. -/
def Cue.location? (name : String) : Option L → List (Cue L V)
  | none => []
  | some l => [.call (.location name l)]

/-- The cue for content that shows a payload if there is one. -/
def Cue.payload? : Option V → List (Cue L V)
  | none => []
  | some v => [.call (.payload v)]

mutual

/-- What is done when a tree is streamed. -/
def Node.cues : Node L V → List (Cue L V)
  | .terminal ⟨left, tag, value, right⟩ =>
    [.enter "terminal" (some tag), .call (.given (.startElement "terminal")),
        .call (.given (.attr "id" tag)), .call (.location "left" left),
        .call (.location "right" right)] ++
      Cue.payload? value ++ [.call (.given .endElement), .leave]
  | .error ⟨left, right⟩ =>
    [.enter "error" none, .call (.given (.startElement "error")), .call (.location "left" left),
      .call (.location "right" right), .call (.given .endElement), .leave]
  | .nonterminal ⟨tag, variant, cs⟩ =>
    [.enter "nonterminal" (some tag), .call (.given (.startElement "nonterminal")),
        .call (.given (.attr "id" tag)), .call (.number "variant" variant)] ++
      Cue.location? "left" (leftmost cs) ++ Cue.location? "right" (rightmost cs) ++
      Node.cuesAll cs ++ [.call (.given .endElement), .leave]

/-- What is done when several trees are streamed, tree after tree. -/
def Node.cuesAll : List (Node L V) → List (Cue L V)
  | [] => []
  | c :: cs => Node.cues c ++ Node.cuesAll cs

end

/-- What is done for a tree as a whole document, before the sink is closed. -/
def Node.documentCues (config : DumpConfig) (root : Node L V) : List (Cue L V) :=
  [.call (.given .startDocument),
      .call (.given (.instruction config.stylesheet.target config.stylesheet.data))] ++
    root.cues ++ [.call (.given .endDocument), .call (.given .flush)]

/-! ### Values replaced by others -/

/-- The same call with its value replaced. -/
def Slot.map (f : L → L') (g : V → V') : Slot L V → Slot L' V'
  | given e => given e
  | number name i => number name i
  | location name l => location name (f l)
  | payload v => payload (g v)

/-- The same with its value replaced, if it has one. -/
def Cue.map (f : L → L') (g : V → V') : Cue L V → Cue L' V'
  | enter element id => enter element id
  | call s => call (s.map f g)
  | leave => leave

/-- The cue for a location that may be missing is mapped with the location. -/
theorem Cue.location?_map (f : L → L') (g : V → V') (name : String) (l : Option L) :
    Cue.location? name (l.map f) = (Cue.location? name l).map (Cue.map f g) := by
  cases l <;> rfl

mutual

/-- What is done does not depend on the values. -/
theorem Node.cues_map (f : L → L') (g : V → V') :
    ∀ t : Node L V, (t.map f g).cues = t.cues.map (Cue.map f g)
  | .terminal ⟨left, tag, value, right⟩ => by cases value <;> rfl
  | .error e => rfl
  | .nonterminal ⟨tag, variant, cs⟩ => by
    rw [map, cues, cues, leftmost_mapAll, rightmost_mapAll, Cue.location?_map f g,
      Cue.location?_map f g, Node.cuesAll_mapAll f g cs]
    simp only [List.map_append]
    rfl

/-- The same for several trees. -/
theorem Node.cuesAll_mapAll (f : L → L') (g : V → V') :
    ∀ cs : List (Node L V), Node.cuesAll (Node.mapAll f g cs) = (Node.cuesAll cs).map (Cue.map f g)
  | [] => rfl
  | c :: cs => by
    rw [mapAll, cuesAll, cuesAll, List.map_append, Node.cues_map f g c, Node.cuesAll_mapAll f g cs]

end

/-- The cues of a document stand at the same places, each with its value mapped. -/
theorem Node.documentCues_map (f : L → L') (g : V → V') (config : DumpConfig) (t : Node L V) :
    (t.map f g).documentCues config = (t.documentCues config).map (Cue.map f g) := by
  rw [documentCues, documentCues, t.cues_map f g, List.map_append, List.map_append]
  rfl

/-! ### Values displayed -/

section Steps

variable [Display L] [Display V]

/-- The call, with its value displayed. -/
def Slot.event : Slot L V → Event
  | given e => e
  | number name i => .attr name (displayText i)
  | location name l => .attr name (displayText l)
  | payload v => .characters (displayText v)

/-- The steps of streaming for a cue. -/
def Cue.steps : Cue L V → List StreamStep
  | enter element id => [.enter element id]
  | call (.given e) => [.call e]
  | call (.number name i) => attrSteps name i
  | call (.location name l) => attrSteps name l
  | call (.payload v) => charactersSteps? (some v)
  | leave => [.leave]

/-- The cue for a location that may be missing gives the steps of its attribute. -/
theorem Cue.flatMap_steps_location? (name : String) (l : Option L) :
    (Cue.location? name l : List (Cue L V)).flatMap Cue.steps = attrSteps? name l := by
  cases l <;> rfl

mutual

/-- The steps of a tree are those of its cues, one by one. -/
theorem Node.flatMap_steps_cues : ∀ t : Node L V, t.cues.flatMap Cue.steps = t.steps
  | .terminal ⟨left, tag, value, right⟩ => by cases value <;> rfl
  | .error e => rfl
  | .nonterminal ⟨tag, variant, cs⟩ => by
    simp only [cues, steps, List.flatMap_append, Cue.flatMap_steps_location?,
      Node.flatMap_steps_cuesAll cs]
    rfl

/-- The same for several trees. -/
theorem Node.flatMap_steps_cuesAll :
    ∀ cs : List (Node L V), (Node.cuesAll cs).flatMap Cue.steps = Node.stepsAll cs
  | [] => rfl
  | c :: cs => by
    rw [cuesAll, stepsAll, List.flatMap_append, Node.flatMap_steps_cues c,
      Node.flatMap_steps_cuesAll cs]

end

/-- The cues of a document give the steps of its dump. -/
theorem Node.flatMap_steps_documentCues (config : DumpConfig) (t : Node L V) :
    (t.documentCues config).flatMap Cue.steps = t.documentSteps config := by
  rw [documentCues, documentSteps, List.flatMap_append, List.flatMap_append, t.flatMap_steps_cues]
  rfl

end Steps

/-! ### Plans -/

/-- What is going to be called for a tree, with the values in their places, and why no more is
called. -/
structure Plan (L V : Type) where
  /-- The calls, in order. -/
  slots : List (Slot L V)
  /-- Why they stop early, if they do. -/
  stop? : Option DumpError

/-- A plan with one more call in front. -/
def Plan.cons (s : Slot L V) (p : Plan L V) : Plan L V := { p with slots := s :: p.slots }

/-- The same plan with each value replaced. -/
def Plan.map (f : L → L') (g : V → V') (p : Plan L V) : Plan L' V' where
  slots := p.slots.map (Slot.map f g)
  stop? := p.stop?

/-- The plan for some cues at the depth `d`. Values have no part in it. -/
def planOf (limit : UInt64) : Depth → List (Cue L V) → Plan L V
  | _, [] => ⟨[], none⟩
  | d, .enter _ _ :: cs =>
    if d.succ.current > limit then ⟨[], some (.depthLimitExceeded d.succ.current limit)⟩
    else planOf limit d.succ cs
  | d, .call s :: cs => (planOf limit d cs).cons s
  | d, .leave :: cs => planOf limit d.pred cs

/-- The plan for a tree without a limit of depth. -/
def Node.plan (t : Node L V) : Plan L V := planOf Depth.unlimited .zero t.cues

/-- The plan for a tree as a document. -/
def Node.documentPlan (config : DumpConfig) (t : Node L V) : Plan L V :=
  planOf config.maxDepth .zero (t.documentCues config)

/-- Replacing values in the cues replaces them in the plan. -/
theorem planOf_map (limit : UInt64) (f : L → L') (g : V → V') (d : Depth) (cues : List (Cue L V)) :
    planOf limit d (cues.map (Cue.map f g)) = (planOf limit d cues).map f g := by
  induction cues generalizing d with
  | nil => rfl
  | cons c cs ih =>
    rw [List.map_cons]
    cases c with
    | enter element id =>
      -- whether a node is too deep has nothing to do with values
      rw [Cue.map, planOf, planOf]
      split
      · rfl
      · exact ih d.succ
    | call s => exact congrArg (Plan.cons (s.map f g)) (ih d)
    | leave => exact ih d.pred

/-- Displaying a value and then its text displays the value. -/
theorem Slot.event_map_displayText [Display L] [Display V] (s : Slot L V) :
    (s.map displayText displayText).event = s.event := by
  cases s <;> rfl

/-- The script that a plan becomes once it is said how values are displayed. -/
def Plan.script [Display L] [Display V] (p : Plan L V) : Script :=
  ⟨p.slots.map Slot.event, p.stop?⟩

/-- A plan for displayed values becomes the script of the plan for the values. -/
theorem Plan.script_map_displayText [Display L] [Display V] (p : Plan L V) :
    (p.map displayText displayText).script = p.script := by
  have hevents : Slot.event ∘ Slot.map displayText displayText =
      (Slot.event : Slot L V → Event) :=
    funext Slot.event_map_displayText
  rw [script, script, map, List.map_map, hevents]

/-- The script of the steps for some cues is that of their plan. -/
theorem scriptOf_flatMap_steps [Display L] [Display V] (limit : UInt64) (d : Depth)
    (cues : List (Cue L V)) :
    scriptOf limit d (cues.flatMap Cue.steps) = (planOf limit d cues).script := by
  induction cues generalizing d with
  | nil => rfl
  | cons c cs ih =>
    rw [List.flatMap_cons]
    cases c with
    | enter element id =>
      rw [Cue.steps, List.singleton_append, scriptOf, planOf, Depth.enter]
      by_cases hdeep : d.succ.current > limit
      · rw [if_pos hdeep, if_pos hdeep]
        rfl
      · rw [if_neg hdeep, if_neg hdeep]
        exact ih d.succ
    | call s =>
      have hrest := congrArg (Script.cons s.event) (ih d)
      -- displaying a value is logged, which is no call
      cases s <;> exact hrest
    | leave => exact ih d.pred

/-- The script of a tree is that of its plan. -/
theorem Node.script_eq_plan [Display L] [Display V] (t : Node L V) :
    t.script Depth.unlimited = t.plan.script := by
  rw [Node.script, ← t.flatMap_steps_cues, scriptOf_flatMap_steps]
  rfl

/-- So is that of its displayed form. -/
theorem Node.script_displayed [Display L] [Display V] (t : Node L V) :
    t.displayed.script Depth.unlimited = t.plan.script := by
  rw [script_eq_plan, plan, displayed, t.cues_map, planOf_map, Plan.script_map_displayText]
  rfl

/-- The script of a document is that of its plan. -/
theorem Node.documentScript_eq_plan [Display L] [Display V] (config : DumpConfig) (t : Node L V) :
    t.documentScript config = (t.documentPlan config).script := by
  rw [documentScript, ← t.flatMap_steps_documentCues, scriptOf_flatMap_steps]
  rfl

/-- So is that of the displayed tree. -/
theorem Node.documentScript_displayed [Display L] [Display V] (config : DumpConfig)
    (t : Node L V) :
    t.displayed.documentScript config = (t.documentPlan config).script := by
  rw [documentScript_eq_plan, documentPlan, displayed, t.documentCues_map, planOf_map,
    Plan.script_map_displayText]
  rfl

end Cues

/-! ## Both outputs -/

/-- A displayed tree renders as the tree does. -/
theorem Node.render_displayed {L V : Type} [Display L] [Display V] (t : Node L V) :
    t.displayed.render = t.render := by
  rw [render_eq_plain, item_displayed, ← render_eq_plain]

/-- Neither output depends on locations and payloads but through the texts they are displayed as. A
tree renders as the tree of these texts does, and that is how it is displayed itself, to its end
even if a value in it breaks off. On any sink, which may keep a record of its calls and fail as it
likes, writing or dumping the one does what writing or dumping the other does, with the same result.
The parts of the rendering and the plans of the calls hold the values in their places, before it is
said how values are displayed: a value that breaks off changes no text but its own. And all values
may pass through one buffer, whatever that holds at the start. -/
theorem Node.output_displayed {L V : Type} (t : Node L V) :
    (∀ [Display L] [Display V],
      t.render = t.displayed.render ∧ displayText t = t.render ∧
        displayText t.displayed = t.render ∧ (display t).complete = true) ∧
    (∀ [Display L] [Display V], t.render = Part.textAll t.parts) ∧
    (∀ [Display L] [Display V] (σ : Type) [Sink σ] (sink : σ),
      (t.write sink).ending = Script.play ⟨t.plan.slots.map Slot.event, none⟩ sink ∧
      (t.displayed.write sink).ending = (t.write sink).ending) ∧
    (∀ (config : DumpConfig) [Display L] [Display V] (σ : Type) [Sink σ] (sink : σ),
      (t.dumpWith config sink).ending =
        Script.playAndClose ⟨(t.documentPlan config).slots.map Slot.event,
          (t.documentPlan config).stop?⟩ sink ∧
      (t.displayed.dumpWith config sink).ending = (t.dumpWith config sink).ending) ∧
    (∀ [Display L] [Display V] (σ : Type) [Sink σ] (limit : UInt64) (buffer : String),
      (t.streamBuffered limit).run' buffer = (t.stream limit : DumpM σ Unit)) := by
  refine ⟨fun {_ _} => ⟨t.render_displayed.symm, rfl, t.render_displayed, rfl⟩,
    fun {_ _} => t.render_eq_textAll_parts, ?_, ?_, ?_⟩
  · intro _ _ σ _ sink
    -- nothing stops the script of a tree without a limit of depth
    have hstop : t.plan.stop? = none := by
      have hscript := t.script_eq_plan
      rw [script_unlimited] at hscript
      exact (congrArg Script.stop? hscript).symm
    rw [ending_write, ending_write, script_eq_plan, script_displayed, Plan.script, hstop]
    exact ⟨rfl, rfl⟩
  · intro config _ _ σ _ sink
    rw [ending_dumpWith, ending_dumpWith, documentScript_eq_plan, documentScript_displayed]
    exact ⟨rfl, rfl⟩
  · intro _ _ σ _ limit buffer
    exact t.forgets_streamBuffered limit buffer

example :
    (.error ⟨.brokenOff "1", .whole "2"⟩ : Node Displayed Displayed).render =
      "<error left=\"1\" right=\"2\"/>" := by decide

end ParseMarkup
