import Mathlib.Data.List.Infix
import ParseMarkup.Dump.Depth

/-!
# The depth counter under any steps

A depth counter serves whoever calls it: an element may be left that was never entered, every step
may have a limit of its own, and steps may go on after one that failed. Since the counter stops at
0, a leave cannot always be undone, and the depth is not the number of enters less the number of
leaves. It is the greatest such number over all ends of the steps, the empty one among them: what
came before the counter last stood at 0 does not count any more.

The module introduces:

* `Depth.after`: the depth that some steps lead to;
* `Depth.net`: the enters less the leaves among some steps;
* `Depth.Balanced`: blocks of steps that leave what they enter and nothing else.

The main statements are `Depth.max?_net_tails`, the depth after any steps, and
`Depth.runAll_zero_net_tails`, which adds how each step ends and that a balanced block keeps the
depth. Both are for fewer than 2^64 steps, which is as far as the counter counts.
-/

namespace ParseMarkup.Depth

/-! ## Steps in a row -/

/-- The depth that some steps lead to, whether they fail or not. -/
def after (d : Depth) (steps : List Step) : Depth :=
  steps.foldl (fun d step => (step.result d).depth) d

/-- The last step acts on the depth that the steps before it leave. -/
theorem after_concat (d : Depth) (before : List Step) (step : Step) :
    d.after (before ++ [step]) = (step.result (d.after before)).depth := by
  rw [after, List.foldl_concat]
  rfl

/-- Each step is done at the depth that the steps before it lead to. -/
theorem getElem?_runAll (d : Depth) (before : List Step) (step : Step) (rest : List Step) :
    (runAll (before ++ step :: rest) d)[before.length]? = some (step.result (d.after before)) := by
  induction before generalizing d with
  | nil => rfl
  | cons first before ih => exact ih (first.result d).depth

/-- Entering counts even when it is refused: the depth is one more in both cases. -/
theorem result_enter (limit : UInt64) (d : Depth) :
    (Step.enter limit).result d =
      ⟨if d.succ.current > limit then some (.depthLimitExceeded d.succ.current limit) else none,
        d.succ⟩ := by
  by_cases hdeep : d.succ.current > limit
  · have hrefused : Depth.enter limit d =
        .error (.depthLimitExceeded d.succ.current limit) d.succ := by
      rw [Depth.enter, if_pos hdeep]
    rw [Step.result, Step.run, hrefused, if_pos hdeep]
  · have hentered : Depth.enter limit d = .ok () d.succ := by
      rw [Depth.enter, if_neg hdeep]
    rw [Step.result, Step.run, hentered, if_neg hdeep]

theorem result_leave (d : Depth) : Step.leave.result d = ⟨none, d.pred⟩ := rfl

/-! ## Enters less leaves -/

/-- Whether a step enters an element. An enter that fails counts like any other. -/
def Step.isEnter : Step → Bool
  | .enter _ => true
  | .leave => false

/-- The number of enters less the number of leaves. -/
def net (steps : List Step) : Int := steps.countP Step.isEnter - steps.count .leave

/-- What a step adds to the number of enters less the number of leaves. -/
def Step.change : Step → Int
  | .enter _ => 1
  | .leave => -1

theorem net_singleton (step : Step) : net [step] = step.change := by
  cases step <;> rfl

theorem net_append (first second : List Step) : net (first ++ second) = net first + net second := by
  rw [net, net, net, List.countP_append, List.count_append]
  omega

/-- The ends of two lists in a row are those of the first with all of the second, and those of the
second. -/
theorem map_net_tails_append (first second : List Step) :
    (first ++ second).tails.map net =
      (first.tails.map net).map (· + net second) ++ second.tails.tail.map net := by
  simp only [List.tails_append, List.map_append, List.map_map, Function.comp_def, net_append]

/-- What one step does to the greatest net of an end: the step is added to every end, and the empty
end is there again. -/
theorem max?_net_tails_concat {before : List Step} {m : Int}
    (h : (before.tails.map net).max? = some m) (step : Step) :
    ((before ++ [step]).tails.map net).max? = some (max (m + step.change) 0) := by
  have hends : (before ++ [step]).tails.map net =
      (before.tails.map net).map (· + step.change) ++ [0] := by
    rw [map_net_tails_append, net_singleton]
    rfl
  rw [List.max?_eq_some_iff] at h
  obtain ⟨hattained, hbound⟩ := h
  rw [hends, List.max?_eq_some_iff]
  constructor
  · -- the greatest net is that of the empty end, or that of the greatest end before with the step
    rcases Int.le_total (m + step.change) 0 with hbelow | habove
    · rw [Int.max_eq_right hbelow]
      exact List.mem_append_right _ (List.mem_singleton_self 0)
    · rw [Int.max_eq_left habove]
      exact List.mem_append_left _ (List.mem_map_of_mem hattained)
  · -- every other end has the step as its last one, or is empty
    intro n hmem
    rcases List.mem_append.1 hmem with hlonger | hempty
    · obtain ⟨k, hend, rfl⟩ := List.mem_map.1 hlonger
      have := hbound k hend
      omega
    · rw [List.mem_singleton.1 hempty]
      exact Int.le_max_right ..

/-! ## The depth after any steps -/

/-- While the counter can count, a step changes the depth by what it adds, but not below 0. -/
theorem toNat_depth_result {d : Depth} (hroom : d.current.toNat + 1 < UInt64.size) (step : Step) :
    ((step.result d).depth.current.toNat : Int) = max (d.current.toNat + step.change) 0 := by
  cases step with
  | enter limit =>
    rw [result_enter, toNat_current_succ, Step.change]
    omega
  | leave =>
    rw [result_leave, toNat_current_pred, Step.change]
    omega

/-- Every step leads one deeper at most. -/
theorem toNat_after_le (d : Depth) (steps : List Step) :
    (d.after steps).current.toNat ≤ d.current.toNat + steps.length := by
  -- the last step is done last, so the induction takes it off
  induction steps using List.reverseRecOn with
  | nil => exact Nat.le_refl _
  | append_singleton before step ih =>
    rw [after_concat, List.length_append, List.length_singleton]
    cases step with
    | enter limit =>
      rw [result_enter, toNat_current_succ]
      omega
    | leave =>
      rw [result_leave, toNat_current_pred]
      omega

/-- The depth after any steps is the greatest number of enters less leaves over their ends. -/
theorem max?_net_tails {steps : List Step} (hshort : steps.length < UInt64.size) :
    (steps.tails.map net).max? = some ((zero.after steps).current.toNat : Int) := by
  induction steps using List.reverseRecOn with
  | nil => rfl
  | append_singleton before step ih =>
    rw [List.length_append, List.length_singleton] at hshort
    -- the depth so far is at most the number of steps, so the counter can count this one
    have hlow := toNat_after_le zero before
    have hroom : (zero.after before).current.toNat + 1 < UInt64.size := by
      have hstart : zero.current.toNat = 0 := rfl
      omega
    rw [max?_net_tails_concat (ih (by omega)) step, after_concat, toNat_depth_result hroom]

/-! ## Balanced blocks -/

/-- A block of steps that leaves what it enters, and never leaves what was entered before it. -/
structure Balanced (block : List Step) : Prop where
  /-- There are as many enters as leaves. -/
  net_eq_zero : net block = 0
  /-- There are never more leaves than enters so far. -/
  net_nonneg : ∀ begun ∈ block.inits, 0 ≤ net begun

/-- From the middle of a balanced block on, there are no more enters than leaves. -/
theorem Balanced.net_nonpos {block rest : List Step} (h : Balanced block)
    (hmem : rest ∈ block.tails) : net rest ≤ 0 := by
  obtain ⟨begun, rfl⟩ := (List.mem_tails ..).1 hmem
  have hbegins := h.net_nonneg begun ((List.mem_inits ..).2 (List.prefix_append ..))
  have hwhole := h.net_eq_zero
  rw [net_append] at hwhole
  omega

/-- A balanced block does not change the greatest net of an end: the ends within the block are not
greater than the empty end. -/
theorem Balanced.max?_net_tails_append {before block : List Step} (h : Balanced block) {m : Int}
    (hgreatest : (before.tails.map net).max? = some m) :
    ((before ++ block).tails.map net).max? = some m := by
  rw [List.max?_eq_some_iff] at hgreatest
  obtain ⟨hattained, hbound⟩ := hgreatest
  have hnonneg : 0 ≤ m := hbound 0 (List.mem_map.2 ⟨[], (List.mem_tails ..).2 List.nil_suffix, rfl⟩)
  rw [map_net_tails_append, h.net_eq_zero, List.max?_eq_some_iff]
  simp only [Int.add_zero, List.map_id']
  -- an end that reaches into the steps before has all of the block in it, which adds nothing
  refine ⟨List.mem_append_left _ hattained, fun n hmem => ?_⟩
  rcases List.mem_append.1 hmem with houtside | hwithin
  · exact hbound n houtside
  · obtain ⟨rest, hinner, rfl⟩ := List.mem_map.1 hwithin
    exact Int.le_trans (h.net_nonpos (List.mem_of_mem_tail hinner)) hnonneg

/-- A balanced block of steps leaves the depth as it was before the block. -/
theorem after_append_of_balanced {before block : List Step}
    (hshort : (before ++ block).length < UInt64.size) (h : Balanced block) :
    zero.after (before ++ block) = zero.after before := by
  have hless : before.length < UInt64.size := by
    rw [List.length_append] at hshort
    omega
  -- both depths are the greatest net, which the block does not change
  have hsame := h.max?_net_tails_append (max?_net_tails hless)
  rw [max?_net_tails hshort] at hsame
  have hcurrent := Int.ofNat.inj (Option.some.inj hsame)
  exact congrArg Depth.mk (UInt64.toNat_inj.1 hcurrent)

/-! ## Every run of a new counter -/

/-- What is known of any steps on a new counter, with any limits and also after steps that failed.
The depth that they lead to is the greatest number of enters less leaves over their ends. An enter
leads one deeper, and fails exactly if that is deeper than its own limit, with both in the error; so
it never fails if it is unlimited. A leave does not fail, and leads one less deep, or stays at 0. A
balanced block of steps leaves the depth as it found it. -/
theorem runAll_zero_net_tails {steps : List Step} (hshort : steps.length < UInt64.size) :
    (steps.tails.map net).max? = some ((zero.after steps).current.toNat : Int) ∧
    (∀ before limit rest, steps = before ++ .enter limit :: rest →
      let reached := zero.after (before ++ [.enter limit])
      (runAll steps zero)[before.length]? = some
        ⟨if reached.current > limit then some (.depthLimitExceeded reached.current limit) else none,
          reached⟩ ∧
      reached.current.toNat = (zero.after before).current.toNat + 1 ∧
      (limit = unlimited → ¬ reached.current > limit)) ∧
    (∀ before rest, steps = before ++ .leave :: rest →
      let reached := zero.after (before ++ [.leave])
      (runAll steps zero)[before.length]? = some ⟨none, reached⟩ ∧
      reached.current.toNat = (zero.after before).current.toNat - 1) ∧
    ∀ before block rest, steps = before ++ block ++ rest → Balanced block →
      zero.after (before ++ block) = zero.after before := by
  refine ⟨max?_net_tails hshort, ?_, ?_, ?_⟩
  · rintro before limit rest rfl reached
    -- an enter counts whether or not it is refused
    have hentered : reached = (zero.after before).succ := by
      show zero.after (before ++ [.enter limit]) = _
      rw [after_concat, result_enter]
    refine ⟨?_, ?_, ?_⟩
    · rw [getElem?_runAll, result_enter, hentered]
    · -- the counter has not come to its end, as there are too few steps before this one
      have hlow := toNat_after_le zero before
      have hstart : zero.current.toNat = 0 := rfl
      rw [List.length_append, List.length_cons] at hshort
      rw [hentered, toNat_current_succ]
      omega
    · -- no depth is greater than the greatest number
      rintro rfl hdeep
      have hgreatest : unlimited.toNat + 1 = UInt64.size := rfl
      have hbound : reached.current.toNat < UInt64.size := reached.current.toNat_lt
      rw [gt_iff_lt, UInt64.lt_iff_toNat_lt] at hdeep
      omega
  · rintro before rest rfl reached
    have hleft : reached = (zero.after before).pred := by
      show zero.after (before ++ [.leave]) = _
      rw [after_concat, result_leave]
    refine ⟨?_, ?_⟩
    · rw [getElem?_runAll, result_leave, hleft]
    · rw [hleft, toNat_current_pred]
  · rintro before block rest rfl hbalanced
    rw [List.length_append] at hshort
    exact after_append_of_balanced (by omega) hbalanced

/-- A leave at 0 is lost, an enter that fails is not, and what is entered and left behind it goes
back to the depth that it led to. -/
theorem runAll_zero_net_tails_refused :
    let block : List Step := [.enter unlimited, .enter 9, .leave, .leave]
    let steps : List Step := [.leave, .enter 0] ++ block ++ [.leave, .enter 5]
    steps.length < UInt64.size ∧ (zero.after steps).current.toNat = 1 ∧
      (runAll steps zero)[1]? = some ⟨some (.depthLimitExceeded 1 0), ⟨1⟩⟩ ∧
      Balanced block ∧
      zero.after ([.leave, .enter 0] ++ block) = zero.after [.leave, .enter 0] := by
  intro block steps
  have hshort : steps.length < UInt64.size := by decide
  have hbalanced : Balanced block := ⟨by decide, by decide⟩
  obtain ⟨hgreatest, henters, -, hblocks⟩ := runAll_zero_net_tails hshort
  have hone : (steps.tails.map net).max? = some 1 := by decide
  rw [hone] at hgreatest
  refine ⟨hshort, Int.ofNat.inj (Option.some.inj hgreatest).symm, ?_, hbalanced,
    hblocks _ block _ rfl hbalanced⟩
  exact (henters [.leave] 0 (block ++ [.leave, .enter 5]) rfl).1

end ParseMarkup.Depth
