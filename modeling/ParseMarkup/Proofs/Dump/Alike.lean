import Mathlib.Data.List.Forall2
import ParseMarkup.Dump.Session
import ParseMarkup.Proofs.Dump.Steps
import ParseMarkup.Proofs.Stream.Alike

/-!
# Sessions on sinks that answer alike

Streaming a tree asks the same of any sink and looks at nothing but the answers. So two sinks that
answer every call alike, and stay so, cannot be told apart by writing trees into them, by dumping
or by a whole session: errors and logs are the same, and the sinks are related after every step.

The module introduces `StepReport.Alike`, that two reports of a step are the same but for the sinks.
The main statement is `runSession_alike`; it goes from the steps of streaming
(`AnswerAlike.runSteps`) over a single tree (`AnswerAlike.write`, `AnswerAlike.dumpWith`) to
sessions.
-/

namespace ParseMarkup

variable {σ σ' : Type} {R : σ → σ' → Prop}

/-! ## Streaming -/

/-- Two states of streaming that differ in the sinks alone, which are related. -/
structure Progress.Alike (R : σ → σ' → Prop) (p : Progress σ) (p' : Progress σ') : Prop where
  sink : R p.sink p'.sink
  depth : p.depth = p'.depth
  log : p.log = p'.log

section Stream

variable [Sink σ] [Sink σ']

/-- A single step of streaming ends alike. -/
theorem AnswerAlike.run (hanswer : AnswerAlike R) (limit : UInt64) (step : StreamStep)
    {p : Progress σ} {p' : Progress σ'} (h : p.Alike R p') :
    EndAlike (Progress.Alike R) (step.run limit p) (step.run limit p') := by
  obtain ⟨sink, depth, log⟩ := p
  obtain ⟨sink', depth', log'⟩ := p'
  obtain ⟨hrelated, rfl, rfl⟩ := h
  cases step with
  | enter element id =>
    -- whether a node is too deep does not depend on the sink
    rw [StreamStep.run_enter, StreamStep.run_enter]
    by_cases hdeep : depth.succ.current > limit
    · rw [if_pos hdeep, if_pos hdeep]
      exact .error ⟨hrelated, rfl, rfl⟩
    · rw [if_neg hdeep, if_neg hdeep]
      exact .ok ⟨hrelated, rfl, rfl⟩
  | log entries => exact .ok ⟨hrelated, rfl, rfl⟩
  | call e =>
    have hanswered := hanswer e hrelated
    rw [StreamStep.run_call, StreamStep.run_call]
    generalize Sink.call e sink = result at hanswered ⊢
    generalize Sink.call e sink' = result' at hanswered ⊢
    cases hanswered with
    | ok hrelated => exact .ok ⟨hrelated, rfl, rfl⟩
    | error hrelated => exact .error ⟨hrelated, rfl, rfl⟩
  | leave => exact .ok ⟨hrelated, rfl, rfl⟩

/-- Any steps of a dump do the same on related sinks: by induction on the steps, each of which
makes at most one call. -/
theorem AnswerAlike.runSteps (hanswer : AnswerAlike R) (limit : UInt64) (steps : List StreamStep)
    {p : Progress σ} {p' : Progress σ'} (h : p.Alike R p') :
    EndAlike (Progress.Alike R) (runSteps limit steps p) (runSteps limit steps p') := by
  induction steps generalizing p p' with
  | nil => exact .ok h
  | cons step rest ih => exact (hanswer.run limit step h).bind fun _ _ _ h => ih h

end Stream

/-! ## Trees -/

/-- Two outcomes that differ in the sinks alone, which are related. -/
structure Outcome.Alike (R : σ → σ' → Prop) (o : Outcome σ) (o' : Outcome σ') : Prop where
  error : o.error? = o'.error?
  sink : R o.sink o'.sink
  log : o.log = o'.log

section Tree

variable {L V : Type} [Display L] [Display V] [Sink σ] [Sink σ']

/-- Writing a tree fails in the same way on related sinks, or succeeds on both. -/
theorem AnswerAlike.write (hanswer : AnswerAlike R) (t : Node L V) {s : σ} {s' : σ'}
    (hrelated : R s s') : (t.write s).Alike R (t.write s') := by
  have hstreamed := hanswer.runSteps Depth.unlimited t.steps
    (⟨hrelated, rfl, rfl⟩ : Progress.Alike R ⟨s, .zero, #[]⟩ ⟨s', .zero, #[]⟩)
  rw [← t.stream_eq_runSteps, ← t.stream_eq_runSteps] at hstreamed
  simp only [Node.write]
  generalize t.stream Depth.unlimited ⟨s, .zero, #[]⟩ = result at hstreamed ⊢
  generalize t.stream Depth.unlimited ⟨s', .zero, #[]⟩ = result' at hstreamed ⊢
  cases hstreamed with
  | ok h | error h => exact ⟨rfl, h.sink, h.log⟩

/-- The sink is closed on every path, so closing has to end alike after a failure as well. -/
theorem AnswerAlike.dumpWith (hanswer : AnswerAlike R) (config : DumpConfig) (t : Node L V) {s : σ}
    {s' : σ'} (hrelated : R s s') : (t.dumpWith config s).Alike R (t.dumpWith config s') := by
  have hstreamed := hanswer.runSteps config.maxDepth (t.documentSteps config)
    (⟨hrelated, rfl, rfl⟩ : Progress.Alike R ⟨s, .zero, #[.dumpStarted t.elementName]⟩
      ⟨s', .zero, #[.dumpStarted t.elementName]⟩)
  rw [← t.streamDocument_eq_runSteps, ← t.streamDocument_eq_runSteps] at hstreamed
  simp only [Node.dumpWith]
  generalize t.streamDocument config ⟨s, .zero, #[.dumpStarted t.elementName]⟩ = result
    at hstreamed ⊢
  generalize t.streamDocument config ⟨s', .zero, #[.dumpStarted t.elementName]⟩ = result'
    at hstreamed ⊢
  -- the sink is closed whether or not the document was written
  cases hstreamed with
  | @ok _ p p' h | @error _ p p' h =>
    obtain ⟨sink, depth, log⟩ := p
    obtain ⟨sink', depth', log'⟩ := p'
    obtain ⟨hrelated, rfl, rfl⟩ := h
    have hclosed := hanswer .close hrelated
    simp only
    generalize Sink.call .close sink = closing at hclosed ⊢
    generalize Sink.call .close sink' = closing' at hclosed ⊢
    cases hclosed with
    | ok hrelated | error hrelated => exact ⟨rfl, hrelated, rfl⟩

/-! ## Sessions -/

/-- Two reports of a step that differ in the sinks alone, which are related before the step and
after it. -/
structure StepReport.Alike (R : σ → σ' → Prop) (r : StepReport σ) (r' : StepReport σ') : Prop where
  error : r.error? = r'.error?
  before : R r.before r'.before
  after : R r.after r'.after
  log : r.log = r'.log

/-- A step of a session ends in the same way on related sinks and leaves them related. -/
theorem AnswerAlike.run_step (hanswer : AnswerAlike R) (step : SessionStep L V) {s : σ} {s' : σ'}
    (hrelated : R s s') : (step.run s).Alike R (step.run s') := by
  cases step with
  | call e =>
    have hanswered := hanswer e hrelated
    simp only [SessionStep.run]
    generalize Sink.call e s = result at hanswered ⊢
    generalize Sink.call e s' = result' at hanswered ⊢
    cases hanswered with
    | ok hrelated' | error hrelated' => exact ⟨rfl, hrelated, hrelated', rfl⟩
  | write t =>
    have hwritten := hanswer.write t hrelated
    exact ⟨congrArg (Option.map SessionError.dump) hwritten.error, hrelated, hwritten.sink,
      hwritten.log⟩
  | dump config t =>
    have hdumped := hanswer.dumpWith config t hrelated
    exact ⟨congrArg (Option.map SessionError.dump) hdumped.error, hrelated, hdumped.sink,
      hdumped.log⟩

/-- A session ends the same on related sinks, step by step, and leaves them related. -/
theorem runSession_alike (hanswer : AnswerAlike R) (steps : List (SessionStep L V)) {s : σ}
    {s' : σ'} (hrelated : R s s') :
    List.Forall₂ (StepReport.Alike R) (runSession steps s).1 (runSession steps s').1 ∧
      R (runSession steps s).2 (runSession steps s').2 := by
  induction steps generalizing s s' with
  | nil => exact ⟨.nil, hrelated⟩
  | cons step rest ih =>
    have hfirst := hanswer.run_step step hrelated
    obtain ⟨hothers, hlast⟩ := ih hfirst.after
    exact ⟨.cons hfirst hothers, hlast⟩

end Tree

end ParseMarkup
