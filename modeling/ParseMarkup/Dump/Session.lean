import ParseMarkup.Dump.Document

/-!
# Sessions

A list of things to do with one sink: single calls, and trees written or dumped into it. The
session goes on after a step that fails, with the sink as that step left it.
-/

namespace ParseMarkup

/-- One step of a session. -/
inductive SessionStep (L V : Type) where
  /-- Make one call. -/
  | call (e : Event)
  /-- Write a tree into the document under way. -/
  | write (t : Node L V)
  /-- Dump a tree as a document of its own, which closes the sink. -/
  | dump (config : DumpConfig) (t : Node L V)

/-- Why a step failed. -/
inductive SessionError where
  /-- A single call was refused. -/
  | call (err : StreamError)
  /-- A tree could not be written. -/
  | dump (err : DumpError)
  deriving DecidableEq, Repr

/-- How a step ended. -/
structure StepReport (σ : Type) where
  /-- The error, if the step failed. -/
  error? : Option SessionError
  /-- The sink before the step. -/
  before : σ
  /-- The sink after the step. -/
  after : σ
  /-- What the step logged. -/
  log : Array LogEntry

variable {σ L V : Type} [Sink σ] [Display L] [Display V]

/-- Do one step. -/
def SessionStep.run (step : SessionStep L V) (sink : σ) : StepReport σ :=
  match step with
  | .call e =>
    match Sink.call e sink with
    | .ok _ after => ⟨none, sink, after, #[]⟩
    | .error err after => ⟨some (.call err), sink, after, #[]⟩
  | .write t =>
    let outcome := t.write sink
    ⟨outcome.error?.map .dump, sink, outcome.sink, outcome.log⟩
  | .dump config t =>
    let outcome := t.dumpWith config sink
    ⟨outcome.error?.map .dump, sink, outcome.sink, outcome.log⟩

/-- Do the steps in order: one report for each, and the sink after all of them. -/
def runSession : List (SessionStep L V) → σ → List (StepReport σ) × σ
  | [], sink => ([], sink)
  | step :: rest, sink =>
    let report := step.run sink
    let (reports, last) := runSession rest report.after
    (report :: reports, last)

end ParseMarkup
