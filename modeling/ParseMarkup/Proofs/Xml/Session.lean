import ParseMarkup.Proofs.Dump.Memory
import ParseMarkup.Proofs.Xml.Closed
import ParseMarkup.Proofs.Xml.Discipline

/-!
# Sessions over memory

Over memory an open XML writer takes every call that is made for a tree or for its document,
whatever elements are open and whether a start tag is pending or not. So what a session leaves is
what its calls leave, made one after the other.

The module introduces `SessionStep.calls`, the calls for a step of a session. The main statement is
`XmlWriter.runSession_snd`. `XmlWriter.exists_afterCall_append` says that no call takes away text
that was written before.
-/

namespace ParseMarkup

section Calls

variable {σ : Type} [Sink σ]

/-- Calls that are all taken leave the same whether or not one would go on after a refusal. -/
theorem callAll_of_replay {es : List Event} {sink sink' : σ}
    (htaken : replay es sink = .ok () sink') :
    callAll es sink = (es, sink') := by
  induction es generalizing sink with
  | nil =>
    cases htaken
    rfl
  | cons e es ih =>
    obtain ⟨_, next, hcalled, hrest⟩ := bind_eq_ok htaken
    rw [callAll_cons_ok hcalled, ih hrest]

theorem callAll_append_snd (first second : List Event) (sink : σ) :
    (callAll (first ++ second) sink).2 = (callAll second (callAll first sink).2).2 := by
  induction first generalizing sink with
  | nil => rfl
  | cons e es ih => rw [List.cons_append, callAll_cons_snd, callAll_cons_snd, ih]

end Calls

variable {L V : Type} [Display L] [Display V]

/-- The calls for a step of a session. -/
def SessionStep.calls : SessionStep L V → List Event
  | .call e => [e]
  | .write t => t.item.events
  | .dump config t => (t.documentScript config).calls ++ [.close]

namespace XmlWriter

/-! ## Calls over memory -/

section Memory

/-- How the innermost element ends. -/
def endText (isPending : Bool) (name : String) : String :=
  if isPending then "/>" else "</" ++ name ++ ">"

/-- Ending an element writes the end that its pending start tag, or its content, calls for. -/
theorem call_endElement_cons (text name : String) (openElements : List String) (isPending : Bool) :
    Sink.call .endElement
        (⟨⟨text⟩, name :: openElements, isPending, false⟩ : XmlWriter TextBuffer) =
      .ok () ⟨⟨text ++ endText isPending name⟩, openElements, false, false⟩ := by
  cases isPending
  · rw [call_endElement]
    simp only [endText, Bool.false_eq_true, if_false, String.append_assoc]
  · rfl

/-- The end of a document is the end of the innermost element, and then that of the others. -/
theorem call_endDocument_cons (text name : String) (openElements : List String)
    (isPending : Bool) :
    Sink.call .endDocument
        (⟨⟨text⟩, name :: openElements, isPending, false⟩ : XmlWriter TextBuffer) =
      Sink.call .endDocument (⟨⟨text ++ endText isPending name⟩, openElements, false, false⟩ :
        XmlWriter TextBuffer) := by
  rw [call_endDocument_replay rfl, call_endDocument_replay rfl]
  exact replay_cons_ok (call_endElement_cons text name openElements isPending)

/-- An open writer always ends the document, and with it all elements. -/
theorem exists_call_endDocument (openElements : List String) (text : String) (isPending : Bool) :
    ∃ more, Sink.call .endDocument
        (⟨⟨text⟩, openElements, isPending, false⟩ : XmlWriter TextBuffer) =
      .ok () ⟨⟨text ++ more⟩, [], isPending && openElements.isEmpty, false⟩ := by
  induction openElements generalizing text isPending with
  | nil =>
    refine ⟨"", ?_⟩
    rw [call_endDocument_nil, String.append_empty, List.isEmpty_nil, Bool.and_true]
  | cons name rest ih =>
    obtain ⟨more, hended⟩ := ih (text ++ endText isPending name) false
    refine ⟨endText isPending name ++ more, ?_⟩
    rw [call_endDocument_cons, hended, String.append_assoc, Bool.false_and, List.isEmpty_cons,
      Bool.and_false]

/-- A call only ever adds to the text. -/
theorem exists_afterCall_append (e : Event) (w : XmlWriter TextBuffer) :
    ∃ more, (afterCall e w).transport.text = w.transport.text ++ more := by
  have hnothing : ∀ text : String, ∃ more, text = text ++ more := fun text =>
    ⟨"", String.append_empty.symm⟩
  obtain ⟨⟨text⟩, openElements, isPending, closed⟩ := w
  cases closed with
  | true =>
    -- a closed writer refuses every call, or has nothing left to do
    rw [afterCall_of_closed rfl]
    exact hnothing text
  | false =>
    rw [afterCall]
    cases e with
    | startDocument => exact ⟨_, rfl⟩
    | instruction target data =>
      rw [call_instruction]
      exact ⟨_, String.append_assoc⟩
    | startElement name =>
      rw [call_startElement]
      exact ⟨_, by rw [String.append_assoc, String.append_assoc]⟩
    | attr name value =>
      cases isPending with
      -- outside of a start tag an attribute is refused
      | false => exact hnothing text
      | true =>
        rw [call_attr]
        exact ⟨_, by simp only [String.append_assoc]; rfl⟩
    | characters s =>
      rw [call_characters]
      exact ⟨_, String.append_assoc⟩
    | endElement =>
      cases openElements with
      | nil => exact hnothing text
      | cons name rest =>
        rw [call_endElement_cons]
        exact ⟨_, rfl⟩
    | endDocument =>
      obtain ⟨more, hended⟩ := exists_call_endDocument openElements text isPending
      rw [hended]
      exact ⟨more, rfl⟩
    | flush => exact hnothing text
    | close => exact hnothing text

/-- Calls only ever add to the text. -/
theorem exists_callAll_append (es : List Event) (w : XmlWriter TextBuffer) :
    ∃ more, (callAll es w).2.transport.text = w.transport.text ++ more := by
  induction es generalizing w with
  | nil => exact ⟨"", String.append_empty.symm⟩
  | cons e es ih =>
    obtain ⟨more, hfirst⟩ := exists_afterCall_append e w
    obtain ⟨more', hothers⟩ := ih (afterCall e w)
    refine ⟨more ++ more', ?_⟩
    rw [callAll_cons_snd, hothers, hfirst, String.append_assoc]

end Memory

/-! ## Steps of a session over memory -/

/-- An open writer takes all calls of a document, also in the middle of another one. -/
theorem exists_replay_documentScript (config : DumpConfig) (t : Node L V) (text : String)
    (openElements : List String) (isPending : Bool) :
    ∃ w, replay (t.documentScript config).calls
      (⟨⟨text⟩, openElements, isPending, false⟩ : XmlWriter TextBuffer) = .ok () w := by
  rw [Node.documentScript_eq, Script.calls_cons, Script.calls_cons,
    replay_cons_ok (call_startDocument _ _ _), replay_cons_ok (call_instruction _ _ _ _ _),
    Script.calls_append]
  -- the instruction has completed a tag that was pending, so the tree begins outside of any tag
  obtain ⟨w, htaken, hcomplete⟩ := t.replay_script_memory config.maxDepth _ openElements
  rw [replay_append_ok htaken]
  by_cases hstop : (t.script config.maxDepth).stop? = none
  · obtain ⟨more, hended⟩ := exists_call_endDocument openElements _ false
    rw [if_pos hstop, hcomplete hstop, replay_cons_ok hended]
    exact ⟨_, rfl⟩
  · rw [if_neg hstop]
    exact ⟨w, rfl⟩

/-- Over memory, a step of a session leaves what its calls leave. -/
theorem after_run (step : SessionStep L V) (w : XmlWriter TextBuffer) :
    (step.run w).after = (callAll step.calls w).2 := by
  cases hclosed : w.closed with
  | true =>
    -- the step makes one of its calls at most, but the others would be refused as well
    obtain ⟨-, -, hafter⟩ := run_of_closed hclosed step
    rw [hafter, callAll_snd_of_closed hclosed]
  | false =>
    cases step with
    | call e =>
      rw [SessionStep.run, SessionStep.calls, callAll_cons_snd, afterCall]
      cases Sink.call e w <;> rfl
    | write t =>
      obtain ⟨⟨text⟩, openElements, isPending, _⟩ := w
      obtain rfl := hclosed
      have htaken := replay_events t.item text openElements isPending
      have hwritten := congrArg Prod.snd (t.ending_write (⟨⟨text⟩, openElements, isPending, false⟩ :
        XmlWriter TextBuffer))
      rw [t.script_unlimited, Script.play, htaken] at hwritten
      rw [SessionStep.calls, callAll_of_replay htaken]
      exact hwritten
    | dump config t =>
      obtain ⟨⟨text⟩, openElements, isPending, _⟩ := w
      obtain rfl := hclosed
      obtain ⟨w', htaken⟩ := exists_replay_documentScript config t text openElements isPending
      have hdumped := congrArg Prod.snd (t.ending_dumpWith config
        (⟨⟨text⟩, openElements, isPending, false⟩ : XmlWriter TextBuffer))
      rw [Script.playAndClose, Script.play, htaken] at hdumped
      rw [SessionStep.calls, callAll_append_snd, callAll_of_replay htaken, callAll_cons_snd,
        afterCall]
      refine hdumped.trans ?_
      simp only
      cases Sink.call .close w' <;> rfl

/-- Over memory, a session leaves what the calls for its steps leave. -/
theorem runSession_snd (steps : List (SessionStep L V)) (w : XmlWriter TextBuffer) :
    (runSession steps w).2 = (callAll (steps.flatMap SessionStep.calls) w).2 := by
  induction steps generalizing w with
  | nil => rfl
  | cons step rest ih =>
    rw [runSession, List.flatMap_cons, callAll_append_snd, ← after_run]
    exact ih _

end XmlWriter

end ParseMarkup
