import ParseMarkup.Dump.Error

/-!
# Nesting depth

A counter of the elements a writer is in. It stays between 0 and the greatest 64-bit number, at
both of which it stops. Entering counts also when the new depth exceeds the limit it is given,
and then fails; the limit may differ from call to call.
-/

namespace ParseMarkup

/-- How deep a writer is in a tree. -/
structure Depth where
  /-- The number of elements entered and not left. -/
  current : UInt64
  deriving DecidableEq, Repr

namespace Depth

/-- The greatest depth, which as a limit allows every depth. -/
def unlimited : UInt64 := 18446744073709551615

/-- Outside all elements. -/
def zero : Depth := ⟨0⟩

/-- One deeper, unless the counter is at its end. -/
def succ (d : Depth) : Depth := if d.current = unlimited then d else ⟨d.current + 1⟩

/-- One less deep, unless the depth is 0. -/
def pred (d : Depth) : Depth := if d.current = 0 then d else ⟨d.current - 1⟩

/-- The counter stops at its greatest value instead of wrapping around. -/
theorem toNat_current_succ (d : Depth) :
    d.succ.current.toNat = min (d.current.toNat + 1) (UInt64.size - 1) := by
  have hbound : d.current.toNat < UInt64.size := d.current.toNat_lt
  unfold succ
  split
  · rename_i h
    rw [h]; rfl
  · rename_i h
    have : d.current.toNat ≠ UInt64.size - 1 := fun heq => h (UInt64.toNat_inj.1 heq)
    have hsize : UInt64.size = 18446744073709551616 := rfl
    simp only [UInt64.toNat_add, UInt64.toNat_one]
    omega

/-- The counter stops at zero. -/
theorem toNat_current_pred (d : Depth) : d.pred.current.toNat = d.current.toNat - 1 := by
  unfold pred
  split
  · rename_i h
    rw [h]; rfl
  · rename_i h
    have : d.current.toNat ≠ 0 := fun heq => h (UInt64.toNat_inj.1 heq)
    simp only [UInt64.toNat_sub, UInt64.toNat_one]
    have hbound := d.current.toNat_lt
    omega

/-- Enter an element; this fails if the depth is then greater than `limit`. -/
def enter (limit : UInt64) : EStateM DumpError Depth Unit := fun d =>
  let d := d.succ
  if d.current > limit then .error (.depthLimitExceeded d.current limit) d else .ok () d

/-- Leave an element. -/
def leave : EStateM DumpError Depth Unit := fun d => .ok () d.pred

/-- One use of a depth counter. -/
inductive Step where
  | enter (limit : UInt64)
  | leave
  deriving DecidableEq, Repr

/-- Do one step. -/
def Step.run : Step → EStateM DumpError Depth Unit
  | .enter limit => Depth.enter limit
  | .leave => Depth.leave

/-- How a step ended, and the depth after it. -/
structure StepResult where
  /-- The error, if the step failed. -/
  error? : Option DumpError
  /-- The depth after the step, whether it failed or not. -/
  depth : Depth
  deriving DecidableEq, Repr

/-- The end of one step. -/
def Step.result (step : Step) (d : Depth) : StepResult :=
  match step.run d with
  | .ok _ d => ⟨none, d⟩
  | .error err d => ⟨some err, d⟩

/-- Do the steps in order, going on after those that fail. -/
def runAll : List Step → Depth → List StepResult
  | [], _ => []
  | step :: rest, d =>
    let result := step.result d
    result :: runAll rest result.depth

end Depth

end ParseMarkup
