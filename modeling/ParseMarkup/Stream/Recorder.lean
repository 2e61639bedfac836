import ParseMarkup.Stream.Sink

/-!
# Recording events

A recorder keeps every call that is made on it. It never refuses one, not even after it was
closed.
-/

namespace ParseMarkup

/-- A sink that keeps the events. -/
structure Recorder where
  /-- The events in the order in which they came. -/
  events : Array Event := #[]
  deriving DecidableEq, Repr

namespace Recorder

/-- A recorder that no call was made on. -/
def empty : Recorder := {}

/-- Keep one more event. -/
def record (r : Recorder) (e : Event) : Recorder := ⟨r.events.push e⟩

/-- Whether the last call was to close. -/
def isClosed (r : Recorder) : Bool := r.events.back? == some .close

/-- The events that came after the first `count`. -/
def eventsSince (r : Recorder) (count : Nat) : List Event := r.events.toList.drop count

instance : Sink Recorder := ⟨fun e r => .ok () (r.record e)⟩

@[simp] theorem call_eq (e : Event) (r : Recorder) :
    Sink.call e r = .ok () (r.record e) := rfl

end Recorder

end ParseMarkup
