import ParseMarkup.Proofs.Dump.Replay
import ParseMarkup.Proofs.Xml.Forest
import ParseMarkup.Proofs.Xml.Lockstep

/-!
# Dumping into memory

Over memory nothing is refused, since the calls for a tree are well nested: what stops a dump is
the limit of depth alone, and what it leaves is the text of the element of the tree after a fixed
front.

The module introduces:

* `documentFront`: the text before the root element;
* `Node.bodyEvents`: the calls of a document that put text;
* `Node.documentText`: the text that dumping into memory leaves.

The main statements: all calls of the body are taken over memory
(`Node.replay_bodyEvents_memory`), and the document of a tree is its front and the text of its
element (`Node.document_eq`).
-/

namespace ParseMarkup

/-- The text before the root element: the declaration and the stylesheet. -/
def documentFront (config : DumpConfig) : String :=
  "<?xml version=\"1.0\"?>" ++
    (Item.instruction config.stylesheet.target config.stylesheet.data).xml

/-- Memory is in step with itself and never stops. -/
def TextBuffer.lockstep : Lockstep TextBuffer where
  InStep text t := t.text = text
  Stopped _ _ _ := False
  put_inStep := by
    intro text t h piece
    exact Or.inl ⟨⟨t.text ++ piece⟩, rfl, congrArg (· ++ piece) h⟩
  stopped_append := by
    intro text err t h piece
    exact h

section Dump

variable {L V : Type} [Display L] [Display V]

/-- The calls of a document that put text: all but the flush. -/
def Node.bodyEvents (config : DumpConfig) (t : Node L V) : List Event :=
  .startDocument :: .instruction config.stylesheet.target config.stylesheet.data ::
    ((t.script config.maxDepth).append [.endDocument]).calls

/-- The text that dumping into memory leaves, which is part of a document if a node is too deep. -/
def Node.documentText (config : DumpConfig) (t : Node L V) : String :=
  (t.dumpWith config (XmlWriter.new ({} : TextBuffer))).sink.transport.text

/-- A document stops only where its tree does. -/
theorem Node.stop?_documentScript (config : DumpConfig) (t : Node L V) :
    (t.documentScript config).stop? = (t.script config.maxDepth).stop? := by
  rw [documentScript_eq, Script.stop?_cons, Script.stop?_cons, Script.stop?_append]

/-- The calls for a document are its body and, if that is complete, a flush. -/
theorem Node.calls_documentScript (config : DumpConfig) (t : Node L V) :
    (t.documentScript config).calls = t.bodyEvents config ++
      if (t.documentScript config).stop? = none then [.flush] else [] := by
  rw [stop?_documentScript, documentScript_eq, bodyEvents, Script.calls_cons, Script.calls_cons,
    Script.calls_append, Script.calls_append]
  cases (t.script config.maxDepth).stop? <;> simp

/-- Every call in the body of a document writes; none of them flushes or closes. -/
theorem Node.writes_of_mem_bodyEvents {config : DumpConfig} {t : Node L V} {e : Event}
    (h : e ∈ t.bodyEvents config) : e.writes = true := by
  rw [bodyEvents, Script.calls_append, List.mem_cons, List.mem_cons, List.mem_append] at h
  rcases h with rfl | rfl | hmem | hmem
  · rfl
  · rfl
  · exact Event.writes_of_isContent (isContent_of_mem_script hmem)
  · split at hmem
    · rw [List.mem_singleton.1 hmem]
      rfl
    · cases hmem

/-- Over memory, all calls of a script are taken, in whatever elements. No other element is open
afterwards unless a node was too deep. -/
theorem Node.replay_script_memory (limit : UInt64) (t : Node L V) (text : String)
    (openElements : List String) :
    ∃ w, replay (t.script limit).calls
          (⟨⟨text⟩, openElements, false, false⟩ : XmlWriter TextBuffer) = .ok () w ∧
      ((t.script limit).stop? = none → w = ⟨⟨text ++ t.item.xml⟩, openElements, false, false⟩) := by
  -- the calls are the first of those for the whole element, which are all taken
  obtain ⟨rest, hcalls, hcomplete⟩ := exists_callsIn_eq limit t.steps .zero
  have hall := XmlWriter.replay_events t.item text openElements false
  rw [← t.callsIn_steps, hcalls, XmlWriter.pendingEnd_false, String.append_empty] at hall
  obtain ⟨w, htaken⟩ := exists_replay_of_append hall
  refine ⟨w, htaken, fun hstop => ?_⟩
  rw [hcomplete hstop, List.append_nil, htaken] at hall
  cases hall
  rfl

/-- The calls of a document that put text begin with those for its front. -/
theorem Node.replay_bodyEvents_front (config : DumpConfig) (t : Node L V) :
    replay (t.bodyEvents config) (XmlWriter.new ({} : TextBuffer)) =
      replay ((t.script config.maxDepth).append [.endDocument]).calls
        (⟨⟨documentFront config⟩, [], false, false⟩ : XmlWriter TextBuffer) := by
  rw [bodyEvents, XmlWriter.new, replay_cons_ok (XmlWriter.call_startDocument _ _ _),
    replay_cons_ok (XmlWriter.call_instruction _ _ _ _ _)]
  rfl

/-- Over memory, the calls of a document that put text are all taken. -/
theorem Node.replay_bodyEvents_memory (config : DumpConfig) (t : Node L V) :
    ∃ w, replay (t.bodyEvents config) (XmlWriter.new ({} : TextBuffer)) = .ok () w ∧
      ((t.documentScript config).stop? = none →
        w = ⟨⟨documentFront config ++ t.item.xml⟩, [], false, false⟩) := by
  obtain ⟨w, htaken, hcomplete⟩ := t.replay_script_memory config.maxDepth (documentFront config) []
  rw [replay_bodyEvents_front, Script.calls_append, replay_append_ok htaken, stop?_documentScript]
  split
  · -- all elements are closed, so there is nothing left to end
    rename_i hstop
    rw [hcomplete hstop, replay_cons_ok (XmlWriter.call_endDocument_nil _ _)]
    exact ⟨_, rfl, fun _ => rfl⟩
  · exact ⟨w, rfl, hcomplete⟩

/-- After these calls, flushing and closing add nothing to the text. -/
theorem Node.ending_dumpWith_memory {config : DumpConfig} {t : Node L V} {w : XmlWriter TextBuffer}
    (htaken : replay (t.bodyEvents config) (XmlWriter.new {}) = .ok () w) :
    w.closed = false ∧ (t.dumpWith config (XmlWriter.new ({} : TextBuffer))).ending =
      ((t.documentScript config).stop?, { w with closed := true }) := by
  have hwrites : ∀ e ∈ t.bodyEvents config, e.writes = true := fun e hmem =>
    writes_of_mem_bodyEvents hmem
  obtain ⟨-, hopen⟩ := (XmlWriter.follows_replay TextBuffer.lockstep hwrites).grows htaken
  refine ⟨hopen, ?_⟩
  obtain ⟨transport, openElements, startTagOpen, closed⟩ := w
  cases hopen
  have hplayed : (t.documentScript config).play (XmlWriter.new ({} : TextBuffer)) =
      ((t.documentScript config).stop?, ⟨transport, openElements, startTagOpen, false⟩) := by
    rw [Script.play, calls_documentScript, replay_append_ok htaken]
    cases (t.documentScript config).stop? <;> rfl
  rw [ending_dumpWith, Script.playAndClose, hplayed]
  rfl

/-- The document of a tree is its front and the text of the element of the tree. -/
theorem Node.document_eq (t : Node L V) :
    t.document = .ok (documentFront .default ++ t.item.xml) := by
  have hunlimited : (t.documentScript .default).stop? = none := by
    rw [stop?_documentScript]
    change (t.script Depth.unlimited).stop? = none
    rw [script_unlimited]
  obtain ⟨w, htaken, hcomplete⟩ := t.replay_bodyEvents_memory .default
  obtain ⟨-, hdumped⟩ := Node.ending_dumpWith_memory htaken
  rw [hunlimited, hcomplete hunlimited, Outcome.ending, Prod.mk.injEq] at hdumped
  rw [document, dumpToMemory, dump, hdumped.1, hdumped.2]

end Dump

end ParseMarkup
