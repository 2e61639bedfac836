import ParseMarkup.Proofs.Dump.Discipline
import ParseMarkup.Proofs.Dump.Memory

/-!
# The limit of depth

A dump knows how deep it is from one counter, which goes up when a node is entered and down when it
is left. At every node the counter is the depth of the node, whatever came before, so a dump with a
limit makes the calls of one without, up to the first node that is deeper than the limit.

The module introduces:

* `Node.ownSteps`: the steps for a node before those for its children, which keep the depth;
* `CutBefore`: that some events are those before the first node that is too deep.

The main statements are `Node.script_of_height_le` and `Node.cutScript_script`, the script of a tree
that a limit leaves whole or cuts, and `Node.dumpWith_maxDepth`, what the limit makes of a dump.
-/

namespace ParseMarkup

/-! ## The counter -/

namespace Depth

variable {limit : UInt64} {d : Depth}

/-- Below the limit, the counter counts. -/
theorem toNat_current_succ_of_lt (h : d.current.toNat < limit.toNat) :
    d.succ.current.toNat = d.current.toNat + 1 := by
  have hsize : limit.toNat < UInt64.size := limit.toNat_lt
  rw [toNat_current_succ]
  omega

/-- Below the limit a node may be entered. -/
theorem enter_of_lt (h : d.current.toNat < limit.toNat) : Depth.enter limit d = .ok () d.succ := by
  have hshallow : ¬ d.succ.current > limit := by
    rw [gt_iff_lt, UInt64.lt_iff_toNat_lt, toNat_current_succ_of_lt h]
    omega
  rw [enter, if_neg hshallow]

/-- Below the limit the counter is not at its greatest value, so leaving undoes entering. -/
theorem pred_succ_of_lt (h : d.current.toNat < limit.toNat) : d.succ.pred = d := by
  have hcounted : d.succ.pred.current.toNat = d.current.toNat := by
    rw [toNat_current_pred, toNat_current_succ_of_lt h]
    omega
  exact congrArg Depth.mk (UInt64.toNat_inj.1 hcounted)

/-- The next number is greater than a limit that is not the greatest number. -/
theorem toNat_add_one_of_limited (h : limit ≠ unlimited) : (limit + 1).toNat = limit.toNat + 1 := by
  have hless : limit.toNat < unlimited.toNat := by
    have hsize : limit.toNat < UInt64.size := limit.toNat_lt
    have hne : limit.toNat ≠ unlimited.toNat := fun heq => h (UInt64.toNat_inj.1 heq)
    have hgreatest : unlimited.toNat + 1 = UInt64.size := rfl
    omega
  have hcounted := toNat_current_succ_of_lt (d := ⟨limit⟩) hless
  rwa [succ, if_neg h] at hcounted

/-- At the limit, the next node is too deep. -/
theorem enter_of_eq (hlimited : limit ≠ unlimited) (h : d.current = limit) :
    Depth.enter limit d = .error (.depthLimitExceeded (limit + 1) limit) ⟨limit + 1⟩ := by
  have hnext : d.succ = ⟨limit + 1⟩ := by
    rw [succ, h, if_neg hlimited]
  have hdeep : limit + 1 > limit := by
    rw [gt_iff_lt, UInt64.lt_iff_toNat_lt, toNat_add_one_of_limited hlimited]
    omega
  rw [enter, hnext, if_pos hdeep]

end Depth

/-! ## Scripts with more calls in front -/

namespace Script

/-- The script with more calls in front. -/
def prepend (events : List Event) (s : Script) : Script := ⟨events ++ s.calls, s.stop?⟩

/-- Calls put before a script one run after the other are the two runs joined. -/
theorem prepend_prepend (first second : List Event) (s : Script) :
    (s.prepend second).prepend first = s.prepend (first ++ second) := by
  simp [prepend]

end Script

/-- Whether a step leaves the depth as it is. -/
def StreamStep.keepsDepth : StreamStep → Bool
  | .log _ => true
  | .call _ => true
  | _ => false

/-- Steps that leave the depth as it is are never stopped. -/
theorem scriptOf_append_of_keepsDepth (limit : UInt64) (d : Depth) {steps : List StreamStep}
    (h : steps.all StreamStep.keepsDepth = true) (rest : List StreamStep) :
    scriptOf limit d (steps ++ rest) = (scriptOf limit d rest).prepend (callsIn steps) := by
  induction steps with
  | nil => rfl
  | cons step steps ih =>
    rw [List.all_cons, Bool.and_eq_true] at h
    obtain ⟨hkeeps, h⟩ := h
    rw [List.cons_append]
    cases step with
    | log entries => exact ih h
    | call e =>
      rw [scriptOf, ih h]
      rfl
    | enter element id => cases hkeeps
    | leave => cases hkeeps

/-- A greater limit only adds calls. -/
theorem scriptOf_calls_prefix {limit limit' : UInt64} (h : limit ≤ limit') (d : Depth)
    (steps : List StreamStep) :
    (scriptOf limit d steps).calls <+: (scriptOf limit' d steps).calls := by
  induction steps generalizing d with
  | nil => exact List.prefix_refl _
  | cons step rest ih =>
    cases step with
    | enter element id =>
      by_cases hdeep : d.succ.current > limit
      · -- nothing comes after a node that is too deep
        simp [scriptOf, Depth.enter, hdeep]
      · have hdeep' : ¬ d.succ.current > limit' := by
          rw [gt_iff_lt, UInt64.not_lt] at hdeep ⊢
          exact UInt64.le_trans hdeep h
        simpa [scriptOf, Depth.enter, hdeep, hdeep'] using ih d.succ
    | log entries => exact ih d
    | call e => exact List.cons_prefix_cons.2 ⟨rfl, ih d⟩
    | leave => exact ih d.pred

/-! ## Where a limit cuts -/

section Trees

variable {L V : Type}

/-- That `before` are the events up to the start of the first node, in pre-order, at depth
`bound + 1`. All nodes that come before it are at most at depth `bound`. -/
def CutBefore (bound : Nat) (nodes : List (Nat × Node L V)) (events before : List Event) : Prop :=
  ∃ earlier node later after,
    nodes = earlier ++ (bound + 1, node) :: later ∧ (∀ p ∈ earlier, p.1 ≤ bound) ∧
    events = before ++ .startElement node.elementName :: after ∧
    before.countP Event.isStart = earlier.length

/-- What comes later does not matter. -/
theorem CutBefore.append {bound : Nat} {nodes : List (Nat × Node L V)} {events before : List Event}
    (h : CutBefore bound nodes events before) (nodes' : List (Nat × Node L V))
    (events' : List Event) : CutBefore bound (nodes ++ nodes') (events ++ events') before := by
  obtain ⟨earlier, node, later, after, rfl, hshallow, rfl, hstarts⟩ := h
  refine ⟨earlier, node, later ++ nodes', after ++ events', ?_, hshallow, ?_, hstarts⟩
  · simp
  · simp

/-- Nodes that are not too deep may come before. -/
theorem CutBefore.prepend {bound : Nat} {nodes nodes' : List (Nat × Node L V)}
    {events before events' : List Event} (h : CutBefore bound nodes events before)
    (hshallow' : ∀ p ∈ nodes', p.1 ≤ bound)
    (hstarts' : events'.countP Event.isStart = nodes'.length) :
    CutBefore bound (nodes' ++ nodes) (events' ++ events) (events' ++ before) := by
  obtain ⟨earlier, node, later, after, rfl, hshallow, rfl, hstarts⟩ := h
  refine ⟨nodes' ++ earlier, node, later, after, ?_, ?_, ?_, ?_⟩
  · simp
  · intro p hmem
    rcases List.mem_append.1 hmem with hmem | hmem
    · exact hshallow' p hmem
    · exact hshallow p hmem
  · simp
  · rw [List.countP_append, List.length_append, hstarts', hstarts]

namespace Node

variable [Display L] [Display V]

/-- The steps for a node before those for its children. -/
def ownSteps : Node L V → List StreamStep
  | terminal t =>
    [.call (.startElement "terminal"), .call (.attr "id" t.tag)] ++ attrSteps "left" t.left ++
      attrSteps "right" t.right ++ charactersSteps? t.value
  | error e =>
    [.call (.startElement "error")] ++ attrSteps "left" e.left ++ attrSteps "right" e.right
  | nonterminal ⟨tag, variant, cs⟩ =>
    [.call (.startElement "nonterminal"), .call (.attr "id" tag)] ++ attrSteps "variant" variant ++
      attrSteps? "left" (leftmost cs) ++ attrSteps? "right" (rightmost cs)

/-- A node of any kind is entered, shown with its children in it, ended and left. -/
theorem steps_eq (t : Node L V) :
    t.steps = .enter t.elementName t.tag? ::
      (t.ownSteps ++ (stepsAll t.children ++ [.call .endElement, .leave])) := by
  cases t with
  | terminal t => simp [steps, Terminal.steps, ownSteps, elementName, tag?, children, stepsAll]
  | error e => simp [steps, ErrorNode.steps, ownSteps, elementName, tag?, children, stepsAll]
  | nonterminal n => simp [steps, ownSteps, elementName, tag?, children]

/-- What a node does before its children neither enters nor leaves a node. -/
theorem all_keepsDepth_ownSteps (t : Node L V) : t.ownSteps.all StreamStep.keepsDepth = true := by
  cases t with
  | terminal t =>
    cases h : t.value <;> simp [ownSteps, attrSteps, charactersSteps?, h, StreamStep.keepsDepth]
  | error e => rfl
  | nonterminal n =>
    cases h : leftmost n.children <;> cases h' : rightmost n.children <;>
      simp [ownSteps, attrSteps, attrSteps?, h, h', StreamStep.keepsDepth]

/-- A node starts its own element and no other before its children. -/
theorem callsIn_ownSteps (t : Node L V) :
    ∃ own, callsIn t.ownSteps = .startElement t.elementName :: own ∧
      own.countP Event.isStart = 0 := by
  cases t with
  | terminal t =>
    obtain ⟨left, tag, value, right⟩ := t
    cases value <;> exact ⟨_, rfl, rfl⟩
  | error e => exact ⟨_, rfl, rfl⟩
  | nonterminal n =>
    refine ⟨attrEvents n.attrs, ?_, countP_isStart_attrEvents _⟩
    simp [ownSteps, attrSteps, callsIn_attrSteps?, Production.attrs, Production.left?,
      Production.right?, attrEvents_cons, attrEvents_append, elementName]

/-- The calls for a node are its own, those for its children and the end of its element. -/
theorem callsIn_steps_eq (t : Node L V) :
    callsIn t.steps = callsIn t.ownSteps ++ (callsIn (stepsAll t.children) ++ [.endElement]) := by
  simp [steps_eq]

/-! ## One node -/

section OneNode

variable {limit : UInt64} {d : Depth} (t : Node L V) (rest : List StreamStep)

/-- Below the limit, a node is entered, and its children are met one deeper. -/
theorem scriptOf_steps_of_lt (h : d.current.toNat < limit.toNat) :
    scriptOf limit d (t.steps ++ rest) =
      (scriptOf limit d.succ (stepsAll t.children ++ .call .endElement :: .leave :: rest)).prepend
        (callsIn t.ownSteps) := by
  rw [steps_eq, List.cons_append, scriptOf, Depth.enter_of_lt h, List.append_assoc,
    List.append_assoc]
  exact scriptOf_append_of_keepsDepth limit d.succ t.all_keepsDepth_ownSteps _

/-- At the limit, nothing is made of a node. -/
theorem scriptOf_steps_of_eq (hlimited : limit ≠ Depth.unlimited) (h : d.current = limit) :
    scriptOf limit d (t.steps ++ rest) = ⟨[], some (.depthLimitExceeded (limit + 1) limit)⟩ := by
  rw [steps_eq, List.cons_append, scriptOf, Depth.enter_of_eq hlimited h]

end OneNode

/-! ## Whole trees -/

/-- If the children of a node are made whole one deeper, so is the node. -/
theorem scriptOf_steps_of_children {limit : UInt64} {d : Depth} (t : Node L V)
    (h : d.current.toNat < limit.toNat)
    (hchildren : ∀ rest, scriptOf limit d.succ (stepsAll t.children ++ rest) =
      (scriptOf limit d.succ rest).prepend (callsIn (stepsAll t.children)))
    (rest : List StreamStep) :
    scriptOf limit d (t.steps ++ rest) = (scriptOf limit d rest).prepend (callsIn t.steps) := by
  rw [scriptOf_steps_of_lt t rest h, hchildren, scriptOf, scriptOf, Depth.pred_succ_of_lt h,
    callsIn_steps_eq, Script.prepend_prepend]
  simp [Script.prepend]

mutual

/-- A tree that ends above the limit is made whole, and leaves the depth as it was. -/
theorem scriptOf_steps_of_height_le {limit : UInt64} :
    ∀ (t : Node L V) (d : Depth) (rest : List StreamStep),
      d.current.toNat + t.height ≤ limit.toNat →
      scriptOf limit d (t.steps ++ rest) = (scriptOf limit d rest).prepend (callsIn t.steps)
  | terminal t, d, rest, hfits =>
    scriptOf_steps_of_children (terminal t) hfits (fun _ => rfl) rest
  | error e, d, rest, hfits => scriptOf_steps_of_children (error e) hfits (fun _ => rfl) rest
  | nonterminal ⟨tag, variant, cs⟩, d, rest, hfits => by
    rw [height] at hfits
    have hroom : d.current.toNat < limit.toNat := by omega
    refine scriptOf_steps_of_children _ hroom (fun rest' => ?_) rest
    refine scriptOf_stepsAll_of_height_le cs d.succ rest' ?_
    rw [Depth.toNat_current_succ_of_lt hroom]
    omega

/-- The same for the children of a node, one after the other. -/
theorem scriptOf_stepsAll_of_height_le {limit : UInt64} :
    ∀ (cs : List (Node L V)) (d : Depth) (rest : List StreamStep),
      d.current.toNat + heightAll cs ≤ limit.toNat →
      scriptOf limit d (stepsAll cs ++ rest) =
        (scriptOf limit d rest).prepend (callsIn (stepsAll cs))
  | [], d, rest, hfits => rfl
  | c :: cs, d, rest, hfits => by
    rw [heightAll] at hfits
    rw [stepsAll, List.append_assoc, scriptOf_steps_of_height_le c d _ (by omega),
      scriptOf_stepsAll_of_height_le cs d rest (by omega), Script.prepend_prepend, callsIn_append]

end

/-! ## Trees that are cut -/

/-- That a limit cuts the script of some steps whose nodes are met at a depth. -/
def CutScript (limit : UInt64) (nodes : List (Nat × Node L V)) (steps : List StreamStep)
    (s : Script) : Prop :=
  s.stop? = some (.depthLimitExceeded (limit + 1) limit) ∧
    CutBefore limit.toNat nodes (callsIn steps) s.calls

/-- A node that is too high is cut itself if it is at the limit, else among its children. -/
theorem cutScript_steps {limit : UInt64} (hlimited : limit ≠ Depth.unlimited) {d : Depth}
    (t : Node L V) (rest : List StreamStep) (hroom : d.current.toNat ≤ limit.toNat)
    (hchildren : d.current.toNat < limit.toNat → ∀ rest',
      CutScript limit (preorderAll (d.succ.current.toNat + 1) t.children) (stepsAll t.children)
        (scriptOf limit d.succ (stepsAll t.children ++ rest'))) :
    CutScript limit (t.preorder (d.current.toNat + 1)) t.steps
      (scriptOf limit d (t.steps ++ rest)) := by
  obtain ⟨own, hstarts, hnoStart⟩ := t.callsIn_ownSteps
  rcases Nat.lt_or_eq_of_le hroom with hroom | hfull
  -- there is room for the node: the cut is the one among its children, after the node's own start
  · obtain ⟨hstop, hcut⟩ := hchildren hroom (.call .endElement :: .leave :: rest)
    rw [scriptOf_steps_of_lt t rest hroom]
    refine ⟨hstop, ?_⟩
    rw [Depth.toNat_current_succ_of_lt hroom] at hcut
    have hshallow : ∀ p ∈ [(d.current.toNat + 1, t)], p.1 ≤ limit.toNat := by
      intro p hmem
      rw [List.mem_singleton.1 hmem]
      exact hroom
    have hone : (callsIn t.ownSteps).countP Event.isStart = [(d.current.toNat + 1, t)].length := by
      rw [hstarts, List.countP_cons, hnoStart]
      rfl
    have hwhole := (hcut.append [] [.endElement]).prepend hshallow hone
    rwa [List.append_nil, ← callsIn_steps_eq, List.singleton_append, ← preorder_eq] at hwhole
  -- there is none: the node is the first that is too deep, and nothing of it is written
  · have hatLimit : d.current = limit := UInt64.toNat_inj.1 hfull
    rw [scriptOf_steps_of_eq t rest hlimited hatLimit]
    refine ⟨rfl, [], t, preorderAll (limit.toNat + 2) t.children,
      own ++ (callsIn (stepsAll t.children) ++ [.endElement]), ?_, ?_, ?_, rfl⟩
    · rw [preorder_eq, hfull]
      rfl
    · exact fun p hmem => absurd hmem List.not_mem_nil
    · rw [callsIn_steps_eq, hstarts]
      rfl

mutual

/-- A tree that is higher than the limit allows is cut before its first node that is too deep. -/
theorem cutScript_steps_of_lt_height {limit : UInt64} (hlimited : limit ≠ Depth.unlimited) :
    ∀ (t : Node L V) (d : Depth) (rest : List StreamStep), d.current.toNat ≤ limit.toNat →
      limit.toNat < d.current.toNat + t.height →
      CutScript limit (t.preorder (d.current.toNat + 1)) t.steps
        (scriptOf limit d (t.steps ++ rest))
  | terminal t, d, rest, hroom, hhigh => by
    refine cutScript_steps hlimited (terminal t) rest hroom fun hless => ?_
    rw [height] at hhigh
    omega
  | error e, d, rest, hroom, hhigh => by
    refine cutScript_steps hlimited (error e) rest hroom fun hless => ?_
    rw [height] at hhigh
    omega
  | nonterminal ⟨tag, variant, cs⟩, d, rest, hroom, hhigh => by
    refine cutScript_steps hlimited _ rest hroom fun hless rest' => ?_
    have hcounted := Depth.toNat_current_succ_of_lt hless
    rw [height] at hhigh
    exact cutScript_stepsAll_of_lt_height hlimited cs d.succ rest' (by omega) (by omega)

/-- The same for the children of a node: the script is cut in the first child that is too high, and
the children before it are made in full. -/
theorem cutScript_stepsAll_of_lt_height {limit : UInt64} (hlimited : limit ≠ Depth.unlimited) :
    ∀ (cs : List (Node L V)) (d : Depth) (rest : List StreamStep), d.current.toNat ≤ limit.toNat →
      limit.toNat < d.current.toNat + heightAll cs →
      CutScript limit (preorderAll (d.current.toNat + 1) cs) (stepsAll cs)
        (scriptOf limit d (stepsAll cs ++ rest))
  | [], d, rest, hroom, hhigh => by
    rw [heightAll] at hhigh
    omega
  | c :: cs, d, rest, hroom, hhigh => by
    rw [heightAll] at hhigh
    rw [stepsAll, preorderAll, List.append_assoc]
    by_cases hfits : d.current.toNat + c.height ≤ limit.toNat
    · -- the first tree is made whole, so it is one of the others that is cut
      obtain ⟨hstop, hcut⟩ := cutScript_stepsAll_of_lt_height hlimited cs d rest hroom (by omega)
      rw [scriptOf_steps_of_height_le c d _ hfits]
      refine ⟨hstop, ?_⟩
      rw [callsIn_append]
      refine hcut.prepend ?_ ?_
      · intro p hmem
        have hbound := lt_of_mem_preorder c hmem
        omega
      · rw [callsIn_steps, countP_isStart_events, length_preorder]
    · -- the cut is in the first tree, and none of the others is reached
      obtain ⟨hstop, hcut⟩ := cutScript_steps_of_lt_height hlimited c d (stepsAll cs ++ rest) hroom
        (by omega)
      refine ⟨hstop, ?_⟩
      rw [callsIn_append]
      exact hcut.append _ _

end

/-- The script of a tree that is not higher than the limit is that of a tree without a limit. -/
theorem script_of_height_le {limit : UInt64} {t : Node L V} (h : t.height ≤ limit.toNat) :
    t.script limit = t.script Depth.unlimited := by
  have hfits : Depth.zero.current.toNat + t.height ≤ limit.toNat := by
    show 0 + t.height ≤ limit.toNat
    omega
  have hmade := scriptOf_steps_of_height_le t .zero [] hfits
  rw [List.append_nil] at hmade
  rw [script, hmade, script, scriptOf_unlimited]
  simp [Script.prepend, scriptOf]

/-- The script of a tree that is higher than the limit is cut. -/
theorem cutScript_script {limit : UInt64} {t : Node L V} (hlimited : limit ≠ Depth.unlimited)
    (h : limit.toNat < t.height) : CutScript limit (t.preorder 1) t.steps (t.script limit) := by
  have hhigh : limit.toNat < Depth.zero.current.toNat + t.height := by
    show limit.toNat < 0 + t.height
    omega
  have hcut := cutScript_steps_of_lt_height hlimited t .zero [] (Nat.zero_le _) hhigh
  rwa [List.append_nil] at hcut

/-- Where the limit cuts, the ancestors of the node that is too deep are open. -/
theorem length_unended_of_cutBefore {t : Node L V} {bound : Nat} {before : List Event}
    (h : CutBefore bound (t.preorder 1) t.item.events before) :
    (Nesting.zero.after before).unended.length = bound := by
  obtain ⟨earlier, node, later, after, hnodes, -, hevents, hstarts⟩ := h
  have hshown := t.shownBy_events.order
  -- the elements that have begun before are those of the earlier nodes
  have hbegins := congrArg (·[earlier.length]?) hshown
  simp only [List.getElem?_map] at hbegins
  rw [hevents, ← hstarts, getElem?_openings_append, hnodes, hstarts,
    List.getElem?_append_right (Nat.le_refl _), Nat.sub_self] at hbegins
  have hdepth := congrArg Prod.fst (Option.some.inj hbegins)
  exact Nat.succ.inj hdepth

/-! ## Dumps with a limit -/

/-- An XML writer over memory has as many elements open as the calls of a cut script leave open. -/
theorem depth_dumpWith_memory {config : DumpConfig} {t : Node L V}
    (hcut : (t.script config.maxDepth).stop? ≠ none) :
    (t.dumpWith config (XmlWriter.new ({} : TextBuffer))).sink.depth =
      (Nesting.zero.after (t.script config.maxDepth).calls).unended.length := by
  obtain ⟨w, htaken, -⟩ := t.replay_bodyEvents_memory config
  obtain ⟨-, hdumped⟩ := Node.ending_dumpWith_memory htaken
  rw [Outcome.ending, Prod.mk.injEq] at hdumped
  rw [replay_bodyEvents_front, Script.calls_append, if_neg hcut, List.append_nil] at htaken
  -- the front opens no element
  have hfront : XmlWriter.Tracks [] ⟨⟨documentFront config⟩, [], false, false⟩ := ⟨rfl, rfl, rfl⟩
  have htracks := hfront.of_replay (fun e hmem => isContent_of_mem_script hmem) htaken
  rw [hdumped.2]
  exact htracks.depth

/-- A sink that never fails takes all calls of a dump, and the error is that of the depth. -/
theorem dumpWith_of_never_fails {σ : Type} [Sink σ]
    (hnever : ∀ e (sink : σ), ∃ sink', Sink.call e sink = .ok () sink') (config : DumpConfig)
    (t : Node L V) (sink : σ) :
    (t.dumpWith config sink).error? = (t.script config.maxDepth).stop? ∧
      replay ((t.documentScript config).calls ++ [.close]) sink =
        .ok () (t.dumpWith config sink).sink := by
  have htaken : ∀ (es : List Event) (sink : σ), ∃ sink', replay es sink = .ok () sink' := by
    intro es
    induction es with
    | nil => exact fun sink => ⟨sink, rfl⟩
    | cons e es ih =>
      intro sink
      obtain ⟨sink', hcalled⟩ := hnever e sink
      rw [replay_cons_ok hcalled]
      exact ih sink'
  -- both the script and the closing call are taken, so only the script can end in an error
  obtain ⟨sink', hplayed⟩ := htaken (t.documentScript config).calls sink
  obtain ⟨sink'', hclosed⟩ := hnever .close sink'
  have hending : (t.documentScript config).playAndClose sink =
      ((t.documentScript config).stop?, sink'') := by
    simp only [Script.playAndClose, Script.play, hplayed, hclosed]
  have hdumped := t.ending_dumpWith config sink
  rw [hending, Outcome.ending, Prod.mk.injEq, stop?_documentScript] at hdumped
  refine ⟨hdumped.1, ?_⟩
  rw [hdumped.2, replay_append_ok hplayed, replay_cons_ok hclosed]
  rfl

/-- What the limit of depth makes of a dump. Without a limit, and with one that is not less than the
height of the tree, all calls are made. Otherwise the dump fails, and the calls for the tree are
those before the start of the first node, in pre-order, that is one deeper than the limit; the sink
is closed, but the document is not ended and nothing is flushed. An XML writer over memory then has
an open element for each level that is allowed. A greater limit only adds calls. All this is
recorded, and it is what any sink is asked that never fails. -/
theorem dumpWith_maxDepth (t : Node L V) (config : DumpConfig) :
    let recorded := fun config : DumpConfig =>
      (t.dumpWith config Recorder.empty).sink.events.toList
    let error? := fun config : DumpConfig => (t.dumpWith config Recorder.empty).error?
    let front : List Event :=
      [.startDocument, .instruction config.stylesheet.target config.stylesheet.data]
    ∃ body,
      error? (config.withMaxDepth Depth.unlimited) = none ∧
      recorded (config.withMaxDepth Depth.unlimited) =
        front ++ body ++ [.endDocument, .flush, .close] ∧
      (config.maxDepth = Depth.unlimited ∨ t.height ≤ config.maxDepth.toNat →
        error? config = none ∧
        recorded config = recorded (config.withMaxDepth Depth.unlimited)) ∧
      (config.maxDepth ≠ Depth.unlimited → config.maxDepth.toNat < t.height →
        error? config = some (.depthLimitExceeded (config.maxDepth + 1) config.maxDepth) ∧
        (config.maxDepth + 1).toNat = config.maxDepth.toNat + 1 ∧
        (∃ before, CutBefore config.maxDepth.toNat (t.preorder 1) body before ∧
          recorded config = front ++ before ++ [.close]) ∧
        (t.dumpWith config (XmlWriter.new ({} : TextBuffer))).error? = error? config ∧
        (t.dumpWith config (XmlWriter.new ({} : TextBuffer))).sink.depth =
          config.maxDepth.toNat) ∧
      (∀ larger, config.maxDepth ≤ larger →
        (recorded config).dropLast <+: (recorded (config.withMaxDepth larger)).dropLast) ∧
      (∀ {σ : Type} [Sink σ], (∀ e (sink : σ), ∃ sink', Sink.call e sink = .ok () sink') →
        ∀ sink : σ, (t.dumpWith config sink).error? = error? config ∧
          replay (recorded config) sink = .ok () (t.dumpWith config sink).sink) := by
  intro recorded error? front
  have hevents : ∀ config, recorded config = (t.documentScript config).calls ++ [.close] :=
    fun config => (t.recorded_dumpWith config).1
  have herror : ∀ config, error? config = (t.script config.maxDepth).stop? := fun config =>
    (t.recorded_dumpWith config).2.trans (t.stop?_documentScript config)
  refine ⟨t.item.events, ?_, ?_, ?_, ?_, ?_, ?_⟩
  · rw [herror]
    exact congrArg Script.stop? t.script_unlimited
  · have hwhole : t.script (config.withMaxDepth Depth.unlimited).maxDepth = ⟨t.item.events, none⟩ :=
      t.script_unlimited
    rw [hevents, documentScript_eq, hwhole]
    simp [Script.append, front, DumpConfig.withMaxDepth]
  · -- a tree that fits is made as without a limit
    intro hfits
    have hsame : t.script config.maxDepth = t.script Depth.unlimited := by
      rcases hfits with heq | hfits
      · rw [heq]
      · exact script_of_height_le hfits
    rw [herror, hevents, hevents, documentScript_eq, documentScript_eq, hsame]
    exact ⟨congrArg Script.stop? t.script_unlimited, rfl⟩
  · intro hlimited hhigh
    -- the script of a tree that is too high stops with the error and is cut before the first node
    -- that is too deep
    obtain ⟨hstop, hcut⟩ := cutScript_script hlimited hhigh
    rw [callsIn_steps] at hcut
    have hstopped : (t.script config.maxDepth).stop? ≠ none := by
      rw [hstop]
      exact Option.some_ne_none _
    refine ⟨?_, Depth.toNat_add_one_of_limited hlimited, ⟨_, hcut, ?_⟩, ?_, ?_⟩
    · rw [herror, hstop]
    · rw [hevents, documentScript_eq, Script.calls_cons, Script.calls_cons, Script.calls_append,
        if_neg hstopped, List.append_nil]
      rfl
    · -- over memory no call is refused, so the writer fails with the limit alone
      obtain ⟨w, htaken, -⟩ := t.replay_bodyEvents_memory config
      obtain ⟨-, hended⟩ := Node.ending_dumpWith_memory htaken
      rw [herror, ← stop?_documentScript]
      exact congrArg Prod.fst hended
    · rw [depth_dumpWith_memory hstopped]
      exact length_unended_of_cutBefore hcut
  · intro larger hless
    rw [hevents, hevents, List.dropLast_concat, List.dropLast_concat]
    exact scriptOf_calls_prefix hless _ _
  · intro σ _ hnever sink
    rw [herror, hevents]
    exact t.dumpWith_of_never_fails hnever config sink

/-- With a limit of 1, only the root of a tree is made, and it stays open. A recorder that already
holds an event is a sink that never fails, and the dump into it fails in the same way. -/
theorem dumpWith_maxDepth_chain :
    let t : Node String String := wrap "e" 0 2 (.error ⟨"a", "b"⟩)
    let config := DumpConfig.default.withMaxDepth 1
    config.maxDepth ≠ Depth.unlimited ∧ config.maxDepth.toNat < t.height ∧
      (t.dumpWith config Recorder.empty).error? = some (.depthLimitExceeded 2 1) ∧
      (t.dumpWith config (XmlWriter.new ({} : TextBuffer))).sink.depth = 1 ∧
      (∀ e (sink : Recorder), ∃ sink', Sink.call e sink = .ok () sink') ∧
      (t.dumpWith config (⟨#[.flush]⟩ : Recorder)).error? = some (.depthLimitExceeded 2 1) := by
  intro t config
  have hlimited : config.maxDepth ≠ Depth.unlimited := by decide
  have hhigh : config.maxDepth.toNat < t.height := by decide
  have hnever : ∀ e (sink : Recorder), ∃ sink', Sink.call e sink = .ok () sink' :=
    fun e sink => ⟨sink.record e, rfl⟩
  obtain ⟨body, -, -, -, hcut, -, hsame⟩ := dumpWith_maxDepth t config
  obtain ⟨herror, -, -, -, hdepth⟩ := hcut hlimited hhigh
  exact ⟨hlimited, hhigh, herror, hdepth, hnever, (hsame hnever _).1.trans herror⟩

end Node

end Trees

end ParseMarkup
