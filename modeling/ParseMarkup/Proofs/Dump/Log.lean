import ParseMarkup.Proofs.Dump.DepthLimit
import ParseMarkup.Proofs.Markup.Log

/-!
# The log of a dump

What is logged while a tree is written depends on the tree alone, up to the point where writing
stops: each node is noted with its depth when it is entered, followed by what formatting its values
adds. A dump notes its begin before all that, and after it its end, or that the sink could not be
closed either.

The module introduces:

* `recordsOf`: the records of some steps, and `Node.records`, those of one node;
* `Halt` and `StopsWith`: where some steps stop on a sink, and what is logged before that;
* `LoggedAs`: that records are those of some nodes, one after the other;
* `closingRecords`: what a dump logs at its end.

The main statements: the records of a tree are those of its nodes in pre-order
(`Node.loggedAs_steps`), doing steps logs the records of those that are done
(`exists_stopsWith_runSteps`), and what this makes of the log of a tree that is written, dumped or
rendered (`Node.log_write_dumpWith_rendered`).
-/

namespace ParseMarkup

/-! ## Records of steps -/

/-- The depth after a step. -/
def StreamStep.depthAfter (d : Depth) : StreamStep → Depth
  | .enter .. => d.succ
  | .leave => d.pred
  | .log _ => d
  | .call _ => d

/-- What a step logs. -/
def StreamStep.records (d : Depth) : StreamStep → List LogEntry
  | .enter element id => [.entering element id d.succ.current]
  | .log entries => entries
  | .call _ => []
  | .leave => []

/-- The depth after some steps. -/
def depthAfter (d : Depth) (steps : List StreamStep) : Depth := steps.foldl StreamStep.depthAfter d

/-- What some steps log that are begun at a depth. -/
def recordsOf : Depth → List StreamStep → List LogEntry
  | _, [] => []
  | d, step :: rest => step.records d ++ recordsOf (step.depthAfter d) rest

/-- The depth after two runs of steps is the second run's, begun where the first one ends. -/
theorem depthAfter_append (d : Depth) (first second : List StreamStep) :
    depthAfter d (first ++ second) = depthAfter (depthAfter d first) second :=
  List.foldl_append

/-- The records of two runs of steps are those of the first and then those of the second, which
begins at the depth that the first one leaves. -/
theorem recordsOf_append (d : Depth) (first second : List StreamStep) :
    recordsOf d (first ++ second) = recordsOf d first ++ recordsOf (depthAfter d first) second := by
  induction first generalizing d with
  | nil => rfl
  | cons step rest ih =>
    rw [List.cons_append, recordsOf, ih, recordsOf, List.append_assoc]
    rfl

/-- Steps that neither enter nor leave a node keep the depth. -/
theorem depthAfter_of_keepsDepth {steps : List StreamStep}
    (h : steps.all StreamStep.keepsDepth = true) (d : Depth) : depthAfter d steps = d := by
  induction steps with
  | nil => rfl
  | cons step rest ih =>
    rw [List.all_cons, Bool.and_eq_true] at h
    obtain ⟨hkeeps, h⟩ := h
    cases step with
    | log entries => exact ih h
    | call e => exact ih h
    | enter element id => cases hkeeps
    | leave => cases hkeeps

/-! ## Where steps stop -/

section Run

variable {σ : Type} [Sink σ]

/-- How steps end at a depth on a sink, given those that are left: there are none, the next one is a
call that the sink refuses, or the next one enters a node that is too deep. -/
inductive Halt (limit : UInt64) (d : Depth) (sink : σ) :
    List StreamStep → Option DumpError × σ → Prop
  | finished : Halt limit d sink [] (none, sink)
  | refused {e : Event} {err : StreamError} {sink' : σ} {rest : List StreamStep}
      (herror : Sink.call e sink = .error err sink') :
      Halt limit d sink (.call e :: rest) (some (.sink err), sink')
  | tooDeep {element : String} {id : Option String} {rest : List StreamStep}
      (hdeep : d.succ.current > limit) :
      Halt limit d sink (.enter element id :: rest)
        (some (.depthLimitExceeded d.succ.current limit), sink)

/-- That some steps, begun at a depth, are done on a sink without an error up to some point, that
they end there in a given way, and that `records` are those of the steps that are done. -/
def StopsWith (limit : UInt64) (d : Depth) (steps : List StreamStep) (sink : σ)
    (ending : Option DumpError × σ) (records : List LogEntry) : Prop :=
  ∃ done rest sink', steps = done ++ rest ∧ (scriptOf limit d done).play sink = (none, sink') ∧
    Halt limit (depthAfter d done) sink' rest ending ∧ records = recordsOf d done

namespace StopsWith

variable {limit : UInt64} {d : Depth} {steps : List StreamStep} {sink : σ}
  {ending : Option DumpError × σ} {records : List LogEntry}

/-- Steps that stop at the first one log nothing. -/
theorem of_halt (h : Halt limit d sink steps ending) : StopsWith limit d steps sink ending [] :=
  ⟨[], steps, sink, rfl, rfl, h, rfl⟩

/-- A step that is done comes first in the log. -/
theorem cons {step : StreamStep} {sink' : σ}
    (hpasses : ∀ done, (scriptOf limit d (step :: done)).play sink =
      (scriptOf limit (step.depthAfter d) done).play sink')
    (h : StopsWith limit (step.depthAfter d) steps sink' ending records) :
    StopsWith limit d (step :: steps) sink ending (step.records d ++ records) := by
  obtain ⟨done, rest, last, rfl, hplayed, hhalt, rfl⟩ := h
  exact ⟨step :: done, rest, last, rfl, (hpasses done).trans hplayed, hhalt, rfl⟩

/-- What is logged before steps stop is the beginning of what all of them log. -/
theorem isPrefix (h : StopsWith limit d steps sink ending records) :
    records <+: recordsOf d steps := by
  obtain ⟨done, rest, -, rfl, -, -, rfl⟩ := h
  rw [recordsOf_append]
  exact List.prefix_append _ _

/-- Steps that end without an error are all done. -/
theorem eq_of_ending (h : StopsWith limit d steps sink ending records) (hok : ending.1 = none) :
    records = recordsOf d steps := by
  obtain ⟨done, rest, sink', rfl, -, hhalt, rfl⟩ := h
  cases hhalt with
  | finished => rw [List.append_nil]
  | refused herror => cases hok
  | tooDeep hdeep => cases hok

/-- Steps that no sink refuses and no limit stops end without an error. -/
theorem ending_of_never_fails (hnever : ∀ e (sink : σ), ∃ sink', Sink.call e sink = .ok () sink')
    (h : StopsWith Depth.unlimited d steps sink ending records) : ending.1 = none := by
  obtain ⟨done, rest, sink', rfl, -, hhalt, rfl⟩ := h
  cases hhalt with
  | finished => rfl
  | refused herror =>
    obtain ⟨taken, hcall⟩ := hnever _ sink'
    rw [hcall] at herror
    cases herror
  | tooDeep hdeep =>
    have hentered := Depth.enter_unlimited (depthAfter d done)
    rw [Depth.enter, if_pos hdeep] at hentered
    cases hentered

end StopsWith

/-- What is logged when some work on a sink has ended, whether it failed or not. -/
def logged : EStateM.Result DumpError (Progress σ) Unit → List LogEntry
  | .ok _ p => p.log.toList
  | .error _ p => p.log.toList

/-- Doing steps logs the records of those that are done. -/
theorem exists_stopsWith_runSteps (limit : UInt64) (steps : List StreamStep) (p : Progress σ) :
    ∃ records, logged (runSteps limit steps p) = p.log.toList ++ records ∧
      StopsWith limit p.depth steps p.sink (ending (runSteps limit steps p)) records := by
  -- the log grows with every step, so the induction is for any progress
  induction steps generalizing p with
  | nil => exact ⟨[], (List.append_nil _).symm, .of_halt .finished⟩
  | cons step rest ih =>
    rw [runSteps_cons_apply]
    cases step with
    | enter element id =>
      rw [StreamStep.run_enter]
      by_cases hdeep : p.depth.succ.current > limit
      · rw [if_pos hdeep]
        exact ⟨[], (List.append_nil _).symm, .of_halt (.tooDeep hdeep)⟩
      · rw [if_neg hdeep]
        obtain ⟨records, hlog, hstops⟩ := ih
          ⟨p.sink, p.depth.succ, p.log.push (.entering element id p.depth.succ.current)⟩
        refine ⟨.entering element id p.depth.succ.current :: records, ?_,
          .cons (fun done => ?_) hstops⟩
        · rw [hlog, Array.toList_push, List.append_assoc, List.singleton_append]
        · rw [scriptOf, Depth.enter, if_neg hdeep]
          rfl
    | log entries =>
      obtain ⟨records, hlog, hstops⟩ := ih { p with log := p.log ++ entries }
      refine ⟨entries ++ records, hlog.trans ?_, .cons (fun done => rfl) hstops⟩
      show (p.log ++ entries).toList ++ records = _
      rw [Array.toList_appendList, List.append_assoc]
    | call e =>
      rw [StreamStep.run_call]
      cases hanswer : Sink.call e p.sink with
      | ok _ sink =>
        obtain ⟨records, hlog, hstops⟩ := ih { p with sink }
        refine ⟨records, hlog, .cons (fun done => ?_) hstops⟩
        rw [scriptOf, Script.play_cons, hanswer]
        rfl
      | error err sink => exact ⟨[], (List.append_nil _).symm, .of_halt (.refused hanswer)⟩
    | leave =>
      obtain ⟨records, hlog, hstops⟩ := ih { p with depth := p.depth.pred }
      exact ⟨records, hlog, .cons (fun done => rfl) hstops⟩

end Run

/-! ## Records of a tree -/

section Trees

variable {L V : Type} [Display L] [Display V]

namespace Node

/-- What a node logs: the node itself with its depth, then what formatting its values adds. -/
def records (depth : UInt64) (t : Node L V) : List LogEntry :=
  .entering t.elementName t.tag? depth :: t.formatted.flatMap Displayed.entries

/-- A node's own steps log what displaying its values logs, in the order in which they are
displayed. -/
theorem recordsOf_ownSteps (t : Node L V) (d : Depth) :
    recordsOf d t.ownSteps = t.formatted.flatMap Displayed.entries := by
  cases t with
  | terminal t =>
    obtain ⟨left, tag, value, right⟩ := t
    cases value <;>
      simp [ownSteps, attrSteps, charactersSteps?, recordsOf, StreamStep.records, formatted]
  | error e => simp [ownSteps, attrSteps, recordsOf, StreamStep.records, formatted]
  | nonterminal n =>
    -- the variant is a number, which adds nothing to a log
    have hvaried : (display n.variant).entries = [] := rfl
    cases hleft : leftmost n.children <;> cases hright : rightmost n.children <;>
      simp [ownSteps, attrSteps, attrSteps?, recordsOf, StreamStep.records, formatted, hvaried,
        hleft, hright, Production.left?, Production.right?]

/-- The records of a tree are those of its root, and then those of its children one deeper. -/
theorem recordsOf_steps (t : Node L V) (d : Depth) :
    recordsOf d t.steps = t.records d.succ.current ++ recordsOf d.succ (stepsAll t.children) := by
  have hown : depthAfter d.succ t.ownSteps = d.succ :=
    depthAfter_of_keepsDepth t.all_keepsDepth_ownSteps d.succ
  rw [steps_eq, recordsOf, records]
  show _ :: recordsOf d.succ _ = _
  rw [recordsOf_append, recordsOf_append, hown, t.recordsOf_ownSteps]
  simp [recordsOf, StreamStep.records]

/-- A node is entered before the steps of its children and left after them. -/
theorem depthAfter_steps (t : Node L V) (d : Depth) :
    depthAfter d t.steps = (depthAfter d.succ (stepsAll t.children)).pred := by
  have hown : depthAfter d.succ t.ownSteps = d.succ :=
    depthAfter_of_keepsDepth t.all_keepsDepth_ownSteps d.succ
  rw [steps_eq]
  show depthAfter d.succ _ = _
  rw [depthAfter_append, depthAfter_append, hown]
  rfl

/-- A node is left at the depth at which it was met if its children are. -/
theorem depthAfter_steps_of_children {d : Depth} (t : Node L V)
    (hroom : d.current.toNat < Depth.unlimited.toNat)
    (hchildren : depthAfter d.succ (stepsAll t.children) = d.succ) : depthAfter d t.steps = d := by
  rw [depthAfter_steps, hchildren, Depth.pred_succ_of_lt hroom]

mutual

/-- As long as the counter can count, a tree leaves it as it was. -/
theorem depthAfter_steps_of_height_le : ∀ (t : Node L V) (d : Depth),
    d.current.toNat + t.height ≤ Depth.unlimited.toNat → depthAfter d t.steps = d
  | terminal t, d, hfits => depthAfter_steps_of_children (terminal t) hfits rfl
  | error e, d, hfits => depthAfter_steps_of_children (error e) hfits rfl
  | nonterminal ⟨tag, variant, cs⟩, d, hfits => by
    rw [height] at hfits
    have hroom : d.current.toNat < Depth.unlimited.toNat := by omega
    refine depthAfter_steps_of_children _ hroom (depthAfter_stepsAll_of_height_le cs d.succ ?_)
    rw [Depth.toNat_current_succ_of_lt hroom]
    omega

/-- The same for several trees. -/
theorem depthAfter_stepsAll_of_height_le : ∀ (cs : List (Node L V)) (d : Depth),
    d.current.toNat + heightAll cs ≤ Depth.unlimited.toNat → depthAfter d (stepsAll cs) = d
  | [], d, hfits => rfl
  | c :: cs, d, hfits => by
    rw [heightAll] at hfits
    rw [stepsAll, depthAfter_append, depthAfter_steps_of_height_le c d (by omega),
      depthAfter_stepsAll_of_height_le cs d (by omega)]

end

/-- That `records` are those of `nodes`, one node after the other. Each is recorded with some depth,
which is the one that stands beside it if `counts` holds. -/
def LoggedAs (counts : Prop) (nodes : List (Nat × Node L V)) (records : List LogEntry) : Prop :=
  ∃ depths : List UInt64, depths.length = nodes.length ∧
    records = (depths.zip nodes).flatMap (fun p => p.2.2.records p.1) ∧
    (counts → depths.map UInt64.toNat = nodes.map Prod.fst)

namespace LoggedAs

variable {counts counts' : Prop} {nodes nodes' : List (Nat × Node L V)}
  {records records' : List LogEntry}

theorem nil : LoggedAs counts ([] : List (Nat × Node L V)) [] := ⟨[], rfl, rfl, fun _ => rfl⟩

/-- A weaker condition on the count of levels gives a weaker statement. -/
theorem imp (h : LoggedAs counts nodes records) (hweaker : counts' → counts) :
    LoggedAs counts' nodes records := by
  obtain ⟨depths, hlength, heq, hexact⟩ := h
  exact ⟨depths, hlength, heq, fun hcounted => hexact (hweaker hcounted)⟩

theorem append (h : LoggedAs counts nodes records) (h' : LoggedAs counts nodes' records') :
    LoggedAs counts (nodes ++ nodes') (records ++ records') := by
  obtain ⟨depths, hlength, rfl, hcounted⟩ := h
  obtain ⟨depths', hlength', rfl, hcounted'⟩ := h'
  refine ⟨depths ++ depths', ?_, ?_, fun hcounting => ?_⟩
  · rw [List.length_append, List.length_append, hlength, hlength']
  · rw [List.zip_append hlength, List.flatMap_append]
  · rw [List.map_append, List.map_append, hcounted hcounting, hcounted' hcounting]

/-- A node may come first. -/
theorem cons {depth : UInt64} {node : Nat × Node L V} (hcounted : counts → depth.toNat = node.1)
    (h : LoggedAs counts nodes records) :
    LoggedAs counts (node :: nodes) (node.2.records depth ++ records) := by
  have hfirst : LoggedAs counts [node] (node.2.records depth) :=
    ⟨[depth], rfl, (List.flatMap_singleton ..).symm, fun hcounting => by
      rw [List.map_singleton, List.map_singleton, hcounted hcounting]⟩
  exact hfirst.append h

end LoggedAs

/-- That nodes met at `d` are at depth `depth`, and that the counter has room for `height` more. -/
def Counts (d : Depth) (depth height : Nat) : Prop :=
  d.current.toNat + 1 = depth ∧ d.current.toNat + height ≤ Depth.unlimited.toNat

namespace Counts

variable {d : Depth} {depth height : Nat}

/-- As long as there is a level to go down, entering counts the depth of the node. -/
theorem toNat_current_succ (h : Counts d depth height) (hpositive : 0 < height) :
    d.succ.current.toNat = depth := by
  obtain ⟨hhere, hroom⟩ := h
  have hbelow : d.current.toNat < Depth.unlimited.toNat := by omega
  rw [Depth.toNat_current_succ_of_lt hbelow]
  exact hhere

/-- One level down, the counter is right for one level less. -/
theorem succ (h : Counts d depth (height + 1)) : Counts d.succ (depth + 1) height := by
  have hnext := h.toNat_current_succ (Nat.succ_pos height)
  obtain ⟨hhere, hroom⟩ := h
  constructor <;> omega

end Counts

/-- A node is logged before its children, which stand one deeper. -/
theorem loggedAs_steps_of_children (t : Node L V) (d : Depth) (depth : Nat)
    (hchildren : LoggedAs (Counts d depth t.height) (preorderAll (depth + 1) t.children)
      (recordsOf d.succ (stepsAll t.children))) :
    LoggedAs (Counts d depth t.height) (t.preorder depth) (recordsOf d t.steps) := by
  have hpositive : 0 < t.height := by
    cases t <;> exact Nat.succ_pos _
  rw [recordsOf_steps, preorder_eq]
  exact hchildren.cons fun hcounting => hcounting.toNat_current_succ hpositive

mutual

/-- The records of a tree are those of its nodes in pre-order. -/
theorem loggedAs_steps : ∀ (t : Node L V) (d : Depth) (depth : Nat),
    LoggedAs (Counts d depth t.height) (t.preorder depth) (recordsOf d t.steps)
  | terminal t, d, depth => loggedAs_steps_of_children (terminal t) d depth .nil
  | error e, d, depth => loggedAs_steps_of_children (error e) d depth .nil
  | nonterminal ⟨tag, variant, cs⟩, d, depth =>
    loggedAs_steps_of_children (nonterminal ⟨tag, variant, cs⟩) d depth
      ((loggedAs_stepsAll cs d.succ (depth + 1)).imp Counts.succ)

/-- The same for several trees, whose nodes all begin at one depth. -/
theorem loggedAs_stepsAll : ∀ (cs : List (Node L V)) (d : Depth) (depth : Nat),
    LoggedAs (Counts d depth (heightAll cs)) (preorderAll depth cs) (recordsOf d (stepsAll cs))
  | [], d, depth => .nil
  | c :: cs, d, depth => by
    have hfirst := loggedAs_steps c d depth
    have hothers := loggedAs_stepsAll cs (depthAfter d c.steps) depth
    rw [stepsAll, recordsOf_append, preorderAll]
    -- a counter at its end may leave the first tree at another depth, so only one that counts is
    -- known to be back where it was
    refine (hfirst.imp ?_).append (hothers.imp ?_)
    · rintro ⟨hhere, hroom⟩
      rw [heightAll] at hroom
      exact ⟨hhere, by omega⟩
    · rintro ⟨hhere, hroom⟩
      rw [heightAll] at hroom
      rw [depthAfter_steps_of_height_le c d (by omega)]
      exact ⟨hhere, by omega⟩

end

/-! ## Writing and dumping -/

/-- What is logged for a tree that is written as a whole. -/
def trace (t : Node L V) : List LogEntry := recordsOf .zero t.steps

/-- The trace of a dump has a record for each node in pre-order, with its depth if the tree has
fewer levels than the counter can tell apart. -/
theorem loggedAs_trace (t : Node L V) :
    LoggedAs (t.height < UInt64.size) (t.preorder 1) t.trace := by
  -- the greatest depth that is counted is one less than the number of depths
  refine (t.loggedAs_steps .zero 1).imp fun hcounted => ⟨rfl, ?_⟩
  have hgreatest : Depth.unlimited.toNat + 1 = UInt64.size := rfl
  have houtside : Depth.zero.current.toNat = 0 := rfl
  omega

/-- The calls around a tree log nothing. -/
theorem recordsOf_documentSteps (config : DumpConfig) (t : Node L V) :
    recordsOf .zero (t.documentSteps config) = t.trace := by
  rw [documentSteps, recordsOf_append, recordsOf_append]
  simp [recordsOf, StreamStep.records, depthAfter, StreamStep.depthAfter, trace]

variable {σ : Type} [Sink σ]

/-- Writing a tree logs what its steps log up to where they stop. -/
theorem stopsWith_write (t : Node L V) (sink : σ) :
    StopsWith Depth.unlimited .zero t.steps sink (t.write sink).ending
      (t.write sink).log.toList := by
  obtain ⟨records, hlog, hstops⟩ := exists_stopsWith_runSteps Depth.unlimited t.steps
    (⟨sink, .zero, #[]⟩ : Progress σ)
  rw [← stream_eq_runSteps] at hlog hstops
  rw [write]
  cases h : t.stream Depth.unlimited (⟨sink, .zero, #[]⟩ : Progress σ) with
  | ok _ p =>
    rw [h] at hlog hstops
    exact (show p.log.toList = records from hlog) ▸ hstops
  | error err p =>
    rw [h] at hlog hstops
    exact (show p.log.toList = records from hlog) ▸ hstops

end Node

/-! ## Dumping -/

section Closing

variable {σ : Type}

/-- What a dump logs last, given how the document ended and what closing the sink answers. -/
def closingRecords (error? : Option DumpError) : EStateM.Result StreamError σ Unit → List LogEntry
  | .ok _ _ => if error? = none then [.dumpFinished] else []
  | .error closeErr _ => if error? = none then [] else [.closeFailed closeErr.message]

/-- The failure to close is logged only after another. -/
theorem exists_closingRecords_eq_iff {error? : Option DumpError}
    {closed : EStateM.Result StreamError σ Unit} :
    (∃ reason, closingRecords error? closed = [.closeFailed reason]) ↔
      error? ≠ none ∧ ∃ closeErr sink, closed = .error closeErr sink := by
  cases closed <;> cases error? <;> simp [closingRecords]

end Closing

namespace Node

variable {σ : Type} [Sink σ]

/-- A dump logs its begin, what the steps of the document log up to where they stop, and its end. -/
theorem exists_stopsWith_dumpWith (config : DumpConfig) (t : Node L V) (sink : σ) :
    ∃ error? sink' records,
      StopsWith config.maxDepth .zero (t.documentSteps config) sink (error?, sink') records ∧
      (t.dumpWith config sink).log.toList =
        .dumpStarted t.elementName :: records ++ closingRecords error? (Sink.call .close sink') ∧
      (closingRecords error? (Sink.call .close sink') = [.dumpFinished] ↔
        (t.dumpWith config sink).error? = none) := by
  obtain ⟨records, hlog, hstops⟩ := exists_stopsWith_runSteps config.maxDepth
    (t.documentSteps config) (⟨sink, .zero, #[.dumpStarted t.elementName]⟩ : Progress σ)
  rw [← streamDocument_eq_runSteps] at hlog hstops
  refine ⟨_, _, records, hstops, ?_⟩
  -- the sink is closed however the document ended, so each ending has the two outcomes of closing
  rw [dumpWith]
  cases h : t.streamDocument config (⟨sink, .zero, #[.dumpStarted t.elementName]⟩ : Progress σ) with
  | ok _ p =>
    obtain ⟨sink', depth, entries⟩ := p
    rw [h] at hlog
    have hnoted : entries.toList = .dumpStarted t.elementName :: records := hlog
    dsimp only [ParseMarkup.ending]
    cases Sink.call .close sink' <;> simp [closingRecords, hnoted]
  | error err p =>
    obtain ⟨sink', depth, entries⟩ := p
    rw [h] at hlog
    have hnoted : entries.toList = .dumpStarted t.elementName :: records := hlog
    dsimp only [ParseMarkup.ending]
    cases Sink.call .close sink' <;> simp [closingRecords, hnoted]

/-- What is logged depends on the tree alone, up to the point where work on it stops. Writing a tree
into a sink that never fails logs its nodes in pre-order, each with its depth, and after each what
formatting its values adds. On any sink, with and without a limit of depth, the log is what comes
before the call that is refused or the node that is too deep. A dump logs its begin before that, its
end after it exactly if it succeeds, and that closing failed exactly if the document failed too.
Rendering logs what the values that it shows add, a failure for each that breaks off, and nothing
else. A tree that stands as a value adds what its rendering logs. -/
theorem log_write_dumpWith_rendered :
    (∀ t : Node L V,
      LoggedAs (t.height < UInt64.size) (t.preorder 1) t.trace ∧
      callsIn t.steps = (t.write Recorder.empty).sink.events.toList ∧
      (∀ {σ : Type} [Sink σ], (∀ e (sink : σ), ∃ sink', Sink.call e sink = .ok () sink') →
        ∀ sink : σ, (t.write sink).error? = none ∧ (t.write sink).log.toList = t.trace) ∧
      (∀ {σ : Type} [Sink σ] (sink : σ),
        StopsWith Depth.unlimited .zero t.steps sink (t.write sink).ending
          (t.write sink).log.toList ∧
        (t.write sink).log.toList <+: t.trace ∧
        ((t.write sink).error? = none → (t.write sink).log.toList = t.trace)) ∧
      (∀ {σ : Type} [Sink σ] (config : DumpConfig) (sink : σ), ∃ error? sink' records,
        StopsWith config.maxDepth .zero (t.documentSteps config) sink (error?, sink') records ∧
        records <+: t.trace ∧ (error? = none → records = t.trace) ∧
        (t.dumpWith config sink).log.toList =
          .dumpStarted t.elementName :: records ++
            closingRecords error? (Sink.call .close sink') ∧
        (closingRecords error? (Sink.call .close sink') = [.dumpFinished] ↔
          (t.dumpWith config sink).error? = none) ∧
        ((∃ reason, closingRecords error? (Sink.call .close sink') = [.closeFailed reason]) ↔
          error? ≠ none ∧ ∃ closeErr last, Sink.call .close sink' = .error closeErr last)) ∧
      t.rendered.log = ((t.preorder 1).flatMap fun p => p.2.printed).flatMap Displayed.entries ∧
      ((∀ p ∈ t.preorder 1, ∀ d ∈ p.2.printed, d.LogsFailures) →
        t.rendered.log = List.replicate
          (((t.preorder 1).flatMap fun p => p.2.printed).map Displayed.failures).sum
          .displayFailed) ∧
      (display t).entries = t.rendered.log) ∧
    ∀ t : Node Value Value, (display (Value.node t)).entries = t.rendered.log ∧
      ∀ d ∈ t.formatted, d.LogsFailures := by
  refine ⟨fun t => ⟨t.loggedAs_trace, ?_, ?_, ?_, ?_, t.log_rendered, log_rendered_eq_replicate,
      t.entries_display⟩,
    fun t => ⟨?_, fun d hmem => logsFailures_of_mem_formatted hmem⟩⟩
  · rw [t.callsIn_steps, t.events_write_recorder]
  · -- a sink that never fails lets all steps be done, so all records are made
    intro σ _ hnever sink
    have hstops := t.stopsWith_write sink
    have hok : (t.write sink).error? = none := hstops.ending_of_never_fails hnever
    exact ⟨hok, hstops.eq_of_ending hok⟩
  · intro σ _ sink
    have hstops := t.stopsWith_write sink
    exact ⟨hstops, hstops.isPrefix, hstops.eq_of_ending⟩
  · intro σ _ config sink
    obtain ⟨error?, sink', records, hstops, hlog, hfinished⟩ :=
      t.exists_stopsWith_dumpWith config sink
    have hbefore := hstops.isPrefix
    have hwhole := hstops.eq_of_ending
    -- what is logged for the document is what is logged for the tree: the prologue logs nothing
    rw [recordsOf_documentSteps] at hbefore hwhole
    exact ⟨error?, sink', records, hstops, hbefore, hwhole, hlog, hfinished,
      exists_closingRecords_eq_iff⟩
  · show (Value.node t).displayed.entries = _
    rw [Value.displayed_node]
    rfl

/-- Four values break off in this tree: the one at the left of the leaf, which is displayed as both
endpoints of the root as well, and one in the tree at the right of the leaf. -/
theorem log_write_dumpWith_rendered_broken :
    let leaf : Node Value Value :=
      .error ⟨.broken ["x"], .node (.error ⟨.broken [], .text "1"⟩)⟩
    let t : Node Value Value := .nonterminal ⟨"r", 0, [leaf]⟩
    let records : List LogEntry :=
      [.entering "nonterminal" (some "r") 1, .displayFailed, .displayFailed,
        .entering "error" none 2, .displayFailed, .displayFailed]
    (∀ e (sink : Recorder), ∃ sink', Sink.call e sink = .ok () sink') ∧
      t.height < UInt64.size ∧
      (∃ depths : List UInt64, depths.map UInt64.toNat = [1, 2]) ∧
      (t.write Recorder.empty).error? = none ∧
      (t.write Recorder.empty).log.toList = records ∧
      (t.dumpWith .default Recorder.empty).error? = none ∧
      (t.dumpWith .default Recorder.empty).log.toList =
        .dumpStarted "nonterminal" :: records ++ [.dumpFinished] ∧
      (∀ p ∈ t.preorder 1, ∀ d ∈ p.2.printed, d.LogsFailures) ∧
      t.rendered.log = List.replicate 4 .displayFailed := by
  intro leaf t records
  have hnever : ∀ e (sink : Recorder), ∃ sink', Sink.call e sink = .ok () sink' :=
    fun e sink => ⟨sink.record e, rfl⟩
  have hshallow : t.height < UInt64.size := by decide
  have htrace : t.trace = records := by decide
  have hfailures : ∀ p ∈ t.preorder 1, ∀ d ∈ p.2.printed, d.LogsFailures := fun p _ d hshown =>
    logsFailures_of_mem_formatted (mem_formatted_of_mem_printed hshown)
  have hdumped : (t.dumpWith .default Recorder.empty).error? = none := by decide
  obtain ⟨htrees, -⟩ := log_write_dumpWith_rendered (L := Value) (V := Value)
  obtain ⟨⟨depths, -, -, hcounted⟩, -, hneverFails, hanySink, hdump, -, hrendered, -⟩ := htrees t
  have hwritten : (t.write Recorder.empty).error? = none := (hneverFails hnever _).1
  obtain ⟨error?, sink', before, -, -, hwhole, hlog, hfinished, -⟩ := hdump .default Recorder.empty
  -- the dump succeeds, so the document in it has
  have hclosing := hfinished.2 hdumped
  have hok : error? = none := by
    cases error? with
    | none => rfl
    | some err => cases hclosing
  rw [hwhole hok, htrace, hclosing] at hlog
  exact ⟨hnever, hshallow, ⟨depths, hcounted hshallow⟩, hwritten,
    ((hanySink _).2.2 hwritten).trans htrace, hdumped, hlog, hfailures, hrendered hfailures⟩

end Node

end Trees

end ParseMarkup
