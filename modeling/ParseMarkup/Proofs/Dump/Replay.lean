import ParseMarkup.Proofs.Dump.Steps
import ParseMarkup.Stream.Recorder

/-!
# Dumping is replaying a script

What streaming a tree asks of its sink does not depend on the sink: the calls, and whether they
end in a node that is too deep, are fixed by the tree and the settings. That is the script of the
tree. On any sink, however it fails, streaming makes the calls of the script one by one up to the
first that is refused.

The module introduces:

* `replay`: making the calls for a list of events, up to the first that fails;
* `Script`: calls, and why they stop; playing one on a sink, with or without closing the sink;
* `Node.script` and `Node.documentScript`: the scripts of a tree and of its document.

The main statements: streaming plays the script (`Node.ending_write`, `Node.ending_dumpWith`), and
a recorder holds the script afterwards, so that the recorded events tell what happens on any other
sink (`Node.dumpWith_write_eq_replay`).
-/

namespace ParseMarkup

/-- Work in two parts succeeds only if both do. -/
theorem bind_eq_ok {σ α β : Type} {first : StreamM σ α} {next : α → StreamM σ β} {s s'' : σ} {b : β}
    (h : (first >>= next) s = .ok b s'') : ∃ a s', first s = .ok a s' ∧ next a s' = .ok b s'' := by
  simp only [bind, EStateM.bind] at h
  cases hdone : first s with
  | ok a s' =>
    rw [hdone] at h
    exact ⟨a, s', rfl, h⟩
  | error err s' =>
    rw [hdone] at h
    cases h

/-! ## Replaying events -/

section Replay

variable {σ : Type} [Sink σ]

/-- Make the calls for the events in order, up to the first that fails. -/
def replay : List Event → StreamM σ Unit
  | [] => pure ()
  | e :: es => do
    Sink.call e
    replay es

/-- To replay two runs of calls is to replay the first and, if it is taken, the second. -/
theorem replay_append (first second : List Event) :
    replay (σ := σ) (first ++ second) = (do
      replay first
      replay second) := by
  induction first with
  | nil => simp [replay]
  | cons e es ih => simp [replay, ih]

theorem replay_cons_ok {e : Event} {es : List Event} {sink sink' : σ}
    (h : Sink.call e sink = .ok () sink') : replay (e :: es) sink = replay es sink' := by
  simp only [replay, bind, EStateM.bind, h]

theorem replay_cons_error {e : Event} {es : List Event} {sink sink' : σ} {err : StreamError}
    (h : Sink.call e sink = .error err sink') : replay (e :: es) sink = .error err sink' := by
  simp only [replay, bind, EStateM.bind, h]

/-- When the first run of calls is taken, the second decides how the replay ends. -/
theorem replay_append_ok {first second : List Event} {sink sink' : σ}
    (h : replay first sink = .ok () sink') :
    replay (first ++ second) sink = replay second sink' := by
  rw [replay_append]
  simp only [bind, EStateM.bind, h]

/-- If all calls are taken, so are the first of them. -/
theorem exists_replay_of_append {first second : List Event} {sink sink'' : σ}
    (h : replay (first ++ second) sink = .ok () sink'') :
    ∃ sink', replay first sink = .ok () sink' := by
  rw [replay_append] at h
  obtain ⟨_, sink', htaken, -⟩ := bind_eq_ok h
  exact ⟨sink', htaken⟩

/-- A recorder takes every call. -/
theorem replay_recorder (events : List Event) (r : Recorder) :
    replay events r = .ok () ⟨r.events ++ events⟩ := by
  induction events generalizing r with
  | nil => simp [replay]; rfl
  | cons e es ih =>
    change replay es (r.record e) = _
    rw [ih, Recorder.record]
    simp

end Replay

/-! ## Scripts -/

/-- What is asked of a sink, whatever the sink answers. -/
structure Script where
  /-- The calls in order. -/
  calls : List Event
  /-- Why no more calls follow, if not because all is done. -/
  stop? : Option DumpError
  deriving DecidableEq, Repr

namespace Script

variable {σ : Type} [Sink σ]

/-- The script with one more call in front. -/
def cons (e : Event) (s : Script) : Script := ⟨e :: s.calls, s.stop?⟩

/-- The script with more calls at its end, which are not reached if it stops before. -/
def append (s : Script) (events : List Event) : Script :=
  match s.stop? with
  | none => ⟨s.calls ++ events, none⟩
  | some err => ⟨s.calls, some err⟩

/-- Make the calls of a script. The error of the call that fails, if one does, comes before the
reason why the script stops. -/
def play (s : Script) (sink : σ) : Option DumpError × σ :=
  match replay s.calls sink with
  | .ok _ sink => (s.stop?, sink)
  | .error err sink => (some (.sink err), sink)

/-- Make the calls of a script and close the sink once, whether they failed or not. The error of
closing is the result only if there is no earlier one. -/
def playAndClose (s : Script) (sink : σ) : Option DumpError × σ :=
  let (error?, sink) := s.play sink
  match Sink.call .close sink with
  | .ok _ sink => (error?, sink)
  | .error closeErr sink => (error? <|> some (.sink closeErr), sink)

@[simp] theorem calls_cons (e : Event) (s : Script) : (s.cons e).calls = e :: s.calls := rfl

@[simp] theorem stop?_cons (e : Event) (s : Script) : (s.cons e).stop? = s.stop? := rfl

/-- Events appended to a script are called only if nothing stops it before them. -/
theorem calls_append (s : Script) (events : List Event) :
    (s.append events).calls = s.calls ++ if s.stop? = none then events else [] := by
  unfold append
  cases s.stop? <;> simp

@[simp] theorem stop?_append (s : Script) (events : List Event) :
    (s.append events).stop? = s.stop? := by
  unfold append
  cases hstop : s.stop? <;> rfl

/-- The first call of a script decides: the rest is played only if it is taken. -/
theorem play_cons (e : Event) (s : Script) (sink : σ) :
    (s.cons e).play sink =
      match Sink.call e sink with
      | .ok _ sink => s.play sink
      | .error err sink => (some (.sink err), sink) := by
  simp only [play, cons, replay, bind, EStateM.bind]
  cases Sink.call e sink <;> rfl

/-- A recorder refuses nothing, so all the calls of a script are made on it. -/
theorem play_recorder (s : Script) (r : Recorder) :
    s.play r = (s.stop?, ⟨r.events ++ s.calls⟩) := by
  rw [play, replay_recorder]

/-- The same with the closing call, which is made even when the script stops. -/
theorem playAndClose_recorder (s : Script) (r : Recorder) :
    s.playAndClose r = (s.stop?, ⟨(r.events ++ s.calls).push .close⟩) := by
  rw [playAndClose, play_recorder]
  rfl

end Script

/-! ## The script of steps -/

/-- The script of some steps that are begun at a depth: their calls, up to the first node that is
too deep. -/
def scriptOf (limit : UInt64) : Depth → List StreamStep → Script
  | _, [] => ⟨[], none⟩
  | d, .enter _ _ :: rest =>
    -- whether a node is too deep does not depend on the sink
    match Depth.enter limit d with
    | .ok _ d => scriptOf limit d rest
    | .error err _ => ⟨[], some err⟩
  | d, .log _ :: rest => scriptOf limit d rest
  | d, .call e :: rest => (scriptOf limit d rest).cons e
  | d, .leave :: rest => scriptOf limit d.pred rest

/-- A script stops for no other reason than the limit of depth. -/
theorem stop?_scriptOf (limit : UInt64) (steps : List StreamStep) (d : Depth) :
    (scriptOf limit d steps).stop? = none ∨
      ∃ depth limit', (scriptOf limit d steps).stop? = some (.depthLimitExceeded depth limit') := by
  induction steps generalizing d with
  | nil => exact Or.inl rfl
  | cons step rest ih =>
    cases step with
    | enter element id =>
      -- this is the only step that adds a reason to stop
      by_cases hdeep : d.succ.current > limit
      · exact Or.inr ⟨d.succ.current, limit, by simp [scriptOf, Depth.enter, hdeep]⟩
      · simpa [scriptOf, Depth.enter, hdeep] using ih d.succ
    | log entries => exact ih d
    | call e => exact ih d
    | leave => exact ih d.pred

/-- No depth is too deep if there is no limit. -/
theorem Depth.enter_unlimited (d : Depth) : Depth.enter Depth.unlimited d = .ok () d.succ := by
  -- the limit is the greatest number there is
  have hbound : ¬ d.succ.current > Depth.unlimited := by
    rw [gt_iff_lt, UInt64.lt_iff_toNat_lt, Nat.not_lt]
    exact Nat.le_of_lt_succ d.succ.current.toNat_lt
  rw [Depth.enter, if_neg hbound]

/-- Every call of a script is one of its steps. -/
theorem call_mem_of_mem_scriptOf {limit : UInt64} {steps : List StreamStep} {d : Depth} {e : Event}
    (h : e ∈ (scriptOf limit d steps).calls) : .call e ∈ steps := by
  induction steps generalizing d with
  | nil => simp [scriptOf] at h
  | cons step rest ih =>
    refine List.mem_cons.2 ?_
    cases step with
    | enter element id =>
      rw [scriptOf] at h
      -- a node that is too deep ends the script, so there are no calls after it
      split at h
      · exact Or.inr (ih h)
      · simp at h
    | log entries => exact Or.inr (ih h)
    | call e' =>
      rcases List.mem_cons.1 h with rfl | h
      · exact Or.inl rfl
      · exact Or.inr (ih h)
    | leave => exact Or.inr (ih h)

/-- Calls after all other steps are made unless the script stops before. -/
theorem scriptOf_append_calls (limit : UInt64) (steps : List StreamStep) (events : List Event)
    (d : Depth) :
    scriptOf limit d (steps ++ events.map .call) = (scriptOf limit d steps).append events := by
  induction steps generalizing d with
  | nil =>
    -- no step is left before the calls, so nothing can stop them
    induction events with
    | nil => rfl
    | cons e es ih =>
      change (scriptOf limit d (es.map .call)).cons e = _
      rw [List.nil_append] at ih
      rw [ih]
      rfl
  | cons step rest ih =>
    cases step with
    | enter element id =>
      rw [List.cons_append, scriptOf, scriptOf]
      split
      · exact ih _
      · rfl
    | log entries => exact ih d
    | call e =>
      rw [List.cons_append, scriptOf, scriptOf, ih]
      cases h : (scriptOf limit d rest).stop? <;> simp [Script.append, Script.cons, h]
    | leave => exact ih d.pred

/-- Without a limit of depth, all calls are made. -/
theorem scriptOf_unlimited (steps : List StreamStep) (d : Depth) :
    scriptOf Depth.unlimited d steps = ⟨callsIn steps, none⟩ := by
  induction steps generalizing d with
  | nil => rfl
  | cons step rest ih =>
    cases step with
    | enter element id =>
      rw [scriptOf, Depth.enter_unlimited]
      exact ih d.succ
    | log entries => exact ih d
    | call e =>
      rw [scriptOf, ih d]
      rfl
    | leave => exact ih d.pred

/-- The calls of a script are those of the steps, up to where it stops. -/
theorem exists_callsIn_eq (limit : UInt64) (steps : List StreamStep) (d : Depth) :
    ∃ rest, callsIn steps = (scriptOf limit d steps).calls ++ rest ∧
      ((scriptOf limit d steps).stop? = none → rest = []) := by
  induction steps generalizing d with
  | nil => exact ⟨[], rfl, fun _ => rfl⟩
  | cons step rest ih =>
    cases step with
    | enter element id =>
      -- only here can the script stop, and then the calls that are left out are all later ones
      rw [scriptOf, callsIn_enter]
      split
      · exact ih _
      · exact ⟨callsIn rest, rfl, fun hcomplete => by cases hcomplete⟩
    | log entries => exact ih d
    | call e =>
      obtain ⟨more, heq, hcomplete⟩ := ih d
      refine ⟨more, ?_, hcomplete⟩
      rw [callsIn_call, heq]
      rfl
    | leave => exact ih d.pred

/-! ## Streaming plays the script -/

/-- How some work on a sink ended: the error, if it failed, and the sink afterwards. -/
def ending {σ : Type} : EStateM.Result DumpError (Progress σ) Unit → Option DumpError × σ
  | .ok _ p => (none, p.sink)
  | .error err p => (some err, p.sink)

/-- Doing steps on a sink plays their script. -/
theorem ending_runSteps {σ : Type} [Sink σ] (limit : UInt64) (steps : List StreamStep)
    (p : Progress σ) :
    ending (runSteps limit steps p) = (scriptOf limit p.depth steps).play p.sink := by
  -- the progress changes with every step, so the induction is for any progress
  induction steps generalizing p with
  | nil => rfl
  | cons step rest ih =>
    rw [runSteps_cons_apply]
    cases step with
    | enter element id =>
      rw [StreamStep.run_enter, scriptOf, Depth.enter]
      by_cases hdeep : p.depth.succ.current > limit
      · rw [if_pos hdeep, if_pos hdeep]
        rfl
      · rw [if_neg hdeep, if_neg hdeep]
        exact ih _
    | log entries => exact ih _
    | call e =>
      -- streaming and playing go on, or stop, by the answer of the sink
      rw [StreamStep.run_call, scriptOf, Script.play_cons]
      cases Sink.call e p.sink with
      | ok _ sink => exact ih _
      | error err sink => rfl
    | leave => exact ih _

section Scripts

variable {σ L V : Type} [Sink σ] [Display L] [Display V]

/-- The error and the sink of an outcome. -/
def Outcome.ending (o : Outcome σ) : Option DumpError × σ := (o.error?, o.sink)

/-- The script of a tree: its calls, none of whose nodes may be deeper than `limit`. -/
def Node.script (limit : UInt64) (t : Node L V) : Script := scriptOf limit .zero t.steps

/-- The script of a tree as a whole document, before the sink is closed. -/
def Node.documentScript (config : DumpConfig) (t : Node L V) : Script :=
  scriptOf config.maxDepth .zero (t.documentSteps config)

/-- The calls of a document: the prologue and the stylesheet, then the tree, then, unless a node
is too deep, the epilogue and a flush. -/
theorem Node.documentScript_eq (config : DumpConfig) (t : Node L V) :
    t.documentScript config =
      (((t.script config.maxDepth).append [.endDocument, .flush]).cons
        (.instruction config.stylesheet.target config.stylesheet.data)).cons .startDocument := by
  rw [documentScript, documentSteps, script, ← scriptOf_append_calls]
  rfl

/-- Writing a tree plays its script. -/
theorem Node.ending_write (t : Node L V) (sink : σ) :
    (t.write sink).ending = (t.script Depth.unlimited).play sink := by
  rw [script, ← ending_runSteps _ _ (⟨sink, .zero, #[]⟩ : Progress σ), ← stream_eq_runSteps, write]
  cases t.stream Depth.unlimited (⟨sink, .zero, #[]⟩ : Progress σ) <;> rfl

/-- Dumping a tree plays the script of its document and closes the sink. -/
theorem Node.ending_dumpWith (config : DumpConfig) (t : Node L V) (sink : σ) :
    (t.dumpWith config sink).ending = (t.documentScript config).playAndClose sink := by
  rw [Script.playAndClose, documentScript,
    ← ending_runSteps _ _ (⟨sink, .zero, #[.dumpStarted t.elementName]⟩ : Progress σ),
    ← streamDocument_eq_runSteps, dumpWith]
  cases t.streamDocument config (⟨sink, .zero, #[.dumpStarted t.elementName]⟩ : Progress σ) with
  | ok _ p =>
    obtain ⟨sink, depth, log⟩ := p
    simp only [ParseMarkup.ending]
    cases Sink.call .close sink <;> rfl
  | error err p =>
    obtain ⟨sink, depth, log⟩ := p
    simp only [ParseMarkup.ending]
    cases Sink.call .close sink <;> rfl

/-- A recorder holds the script of the document and the closing after a dump, and the error is the
reason why the script stops. -/
theorem Node.recorded_dumpWith (config : DumpConfig) (t : Node L V) :
    (t.dumpWith config Recorder.empty).sink.events.toList =
        (t.documentScript config).calls ++ [.close] ∧
      (t.dumpWith config Recorder.empty).error? = (t.documentScript config).stop? := by
  have hdumped := t.ending_dumpWith config Recorder.empty
  rw [Script.playAndClose_recorder, Outcome.ending, Prod.mk.injEq] at hdumped
  refine ⟨?_, hdumped.1⟩
  rw [hdumped.2]
  simp [Recorder.empty]

/-- The calls for a tree say what is in the document, and leave the document around it alone. -/
theorem Node.isContent_of_mem_script {limit : UInt64} {t : Node L V} {e : Event}
    (h : e ∈ (t.script limit).calls) : e.isContent = true := by
  have hmem : e ∈ callsIn t.steps := mem_callsIn.2 (call_mem_of_mem_scriptOf h)
  rw [t.callsIn_steps] at hmem
  exact Item.isContent_of_mem_events t.item hmem

/-- The sink is not closed before the end of a document. -/
theorem Node.close_not_mem_documentScript (config : DumpConfig) (t : Node L V) :
    .close ∉ (t.documentScript config).calls := by
  intro h
  rw [documentScript_eq] at h
  -- closing is none of the calls around the tree, and none of those for the tree
  have hmem : .close ∈ ((t.script config.maxDepth).append [.endDocument, .flush]).calls := by
    simpa [Script.cons] using h
  have hcontent : .close ∈ (t.script config.maxDepth).calls := by
    unfold Script.append at hmem
    cases hstop : (t.script config.maxDepth).stop? <;> simpa [hstop] using hmem
  exact absurd (isContent_of_mem_script hcontent) (by decide)

/-- Without a limit of depth, the script of a tree is the events of its element. -/
theorem Node.script_unlimited (t : Node L V) :
    t.script Depth.unlimited = ⟨t.item.events, none⟩ := by
  rw [script, scriptOf_unlimited, t.callsIn_steps]

/-- A recorder holds the events of the element of a tree after it was written. -/
theorem Node.events_write_recorder (t : Node L V) :
    (t.write Recorder.empty).sink.events.toList = t.item.events := by
  have hwritten := t.ending_write Recorder.empty
  rw [script_unlimited, Script.play_recorder, Outcome.ending, Prod.mk.injEq] at hwritten
  rw [hwritten.2]
  simp [Recorder.empty]

/-- What a recorder holds after a dump tells what a dump into any other sink does: the calls that
were recorded are made one by one up to the first that fails, and the sink is closed once in any
case. The error is that of the call that failed, else that of the depth, else that of closing.
Writing a tree does the same without closing. -/
theorem Node.dumpWith_write_eq_replay (config : DumpConfig) (t : Node L V) (sink : σ) :
    (∃ body, (t.dumpWith config Recorder.empty).sink.events.toList = body ++ [.close] ∧
      .close ∉ body ∧
      ((t.dumpWith config Recorder.empty).error? = none ∨ ∃ depth limit,
        (t.dumpWith config Recorder.empty).error? = some (.depthLimitExceeded depth limit)) ∧
      (t.dumpWith config sink).ending =
        Script.playAndClose ⟨body, (t.dumpWith config Recorder.empty).error?⟩ sink) ∧
    (t.write Recorder.empty).error? = none ∧
    (t.write sink).ending =
      Script.play ⟨(t.write Recorder.empty).sink.events.toList, none⟩ sink := by
  -- a recorder takes every call, so it holds the calls of the script and shows why it stops
  have hdumped := t.ending_dumpWith config Recorder.empty
  rw [Script.playAndClose_recorder, Outcome.ending, Prod.mk.injEq] at hdumped
  have hwritten := t.ending_write Recorder.empty
  rw [script_unlimited, Script.play_recorder, Outcome.ending, Prod.mk.injEq] at hwritten
  refine ⟨⟨(t.documentScript config).calls, ?_, ?_, ?_, ?_⟩, hwritten.1, ?_⟩
  · rw [hdumped.2]
    simp [Recorder.empty]
  · exact t.close_not_mem_documentScript config
  · rw [hdumped.1]
    exact stop?_scriptOf _ _ _
  · rw [hdumped.1]
    exact t.ending_dumpWith config sink
  · rw [t.ending_write, script_unlimited, t.events_write_recorder]

end Scripts

end ParseMarkup
