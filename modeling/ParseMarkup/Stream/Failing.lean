import ParseMarkup.Stream.Recorder

/-!
# A recorder that fails by plan

A sink whose failures are laid down beforehand, to see what its caller makes of them. Calls
other than closing are counted, and the plan names the numbers of those that fail. Closing is
recorded even when it fails.
-/

namespace ParseMarkup

/-- A recorder with a plan of failures. -/
structure FailingRecorder where
  /-- What has been recorded. -/
  recorder : Recorder := {}
  /-- How many calls other than closing were made. -/
  calls : Nat := 0
  /-- Numbers of calls, counted from 1, and the errors they fail with. -/
  failures : List (Nat × StreamError) := []
  /-- How the next attempts to close end; after these, closing succeeds. -/
  closeResults : List (Option StreamError) := []

namespace FailingRecorder

/-- The error that the call with number `n` fails with. -/
def failureAt? (s : FailingRecorder) (n : Nat) : Option StreamError :=
  (s.failures.find? fun failure => failure.1 = n).map Prod.snd

/-- Make a call other than closing: it is recorded unless its number is to fail. -/
def callBody (e : Event) : StreamM FailingRecorder Unit := fun s =>
  -- the call is counted before it is judged, so the first call has the number 1
  match s.failureAt? (s.calls + 1), s with
  | some err, ⟨recorder, calls, failures, closeResults⟩ =>
    .error err ⟨recorder, calls + 1, failures, closeResults⟩
  | none, ⟨recorder, calls, failures, closeResults⟩ =>
    .ok () ⟨recorder.record e, calls + 1, failures, closeResults⟩

/-- Close: recorded in any case, then ended as planned. -/
def callClose : StreamM FailingRecorder Unit := fun s =>
  match s with
  | ⟨recorder, calls, failures, []⟩ => .ok () ⟨recorder.record .close, calls, failures, []⟩
  | ⟨recorder, calls, failures, none :: rest⟩ =>
    .ok () ⟨recorder.record .close, calls, failures, rest⟩
  | ⟨recorder, calls, failures, some err :: rest⟩ =>
    .error err ⟨recorder.record .close, calls, failures, rest⟩

instance : Sink FailingRecorder where
  call
    | .close => callClose
    | e => callBody e

end FailingRecorder

end ParseMarkup
