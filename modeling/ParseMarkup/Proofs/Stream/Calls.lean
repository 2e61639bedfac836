import ParseMarkup.Dump.Session

/-!
# Calls that go on after a refusal

Whoever makes calls on a sink may go on after one that was refused, with the sink as that call left
it. What is to be known afterwards is which calls were taken, and the sink.

The module introduces `afterCall`, the sink that a call leaves, and `callAll`, many calls in a row.
The main statement is `runSession_map_call`: these are the sessions in which every step is a call.
-/

namespace ParseMarkup

variable {σ : Type} [Sink σ]

/-- The sink that a call leaves, whether the call was taken or refused. -/
def afterCall (e : Event) (sink : σ) : σ :=
  match Sink.call e sink with
  | .ok _ sink' => sink'
  | .error _ sink' => sink'

/-- Make calls in order, also after some that are refused: the calls that were taken, and the sink
after all of them. -/
def callAll : List Event → σ → List Event × σ
  | [], sink => ([], sink)
  | e :: es, sink =>
    match Sink.call e sink with
    | .ok _ sink' => (e :: (callAll es sink').1, (callAll es sink').2)
    | .error _ sink' => callAll es sink'

/-- A call that is taken is among the calls taken. -/
theorem callAll_cons_ok {e : Event} {sink sink' : σ} (h : Sink.call e sink = .ok () sink')
    (es : List Event) :
    callAll (e :: es) sink = (e :: (callAll es sink').1, (callAll es sink').2) := by
  rw [callAll, h]

/-- A call that is refused is passed over, with the sink as it was left. -/
theorem callAll_cons_error {e : Event} {sink sink' : σ} {err : StreamError}
    (h : Sink.call e sink = .error err sink') (es : List Event) :
    callAll (e :: es) sink = callAll es sink' := by
  rw [callAll, h]

/-- The sink after some calls does not depend on which were taken, only on what each one left. -/
theorem callAll_cons_snd (e : Event) (es : List Event) (sink : σ) :
    (callAll (e :: es) sink).2 = (callAll es (afterCall e sink)).2 := by
  rw [callAll, afterCall]
  cases Sink.call e sink <;> rfl

/-- The same calls as the steps of a session leave the same sink, and the steps without an error
are the calls that were taken. -/
theorem runSession_map_call {L V : Type} [Display L] [Display V] (calls : List Event) (sink : σ) :
    let session := runSession (calls.map (SessionStep.call : Event → SessionStep L V)) sink
    (callAll calls sink).2 = session.2 ∧
      (callAll calls sink).1 =
        ((calls.zip session.1).filter fun made => made.2.error?.isNone).map Prod.fst := by
  induction calls generalizing sink with
  | nil => exact ⟨rfl, rfl⟩
  | cons e es ih =>
    simp only [List.map_cons, runSession, SessionStep.run, callAll]
    cases Sink.call e sink with
    | ok _ sink' =>
      obtain ⟨hlast, htaken⟩ := ih sink'
      simp [hlast, htaken]
    | error err sink' =>
      obtain ⟨hlast, htaken⟩ := ih sink'
      simp [hlast, htaken]

end ParseMarkup
