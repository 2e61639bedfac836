import ParseMarkup.Stream.Event
import ParseMarkup.Stream.Error

/-!
# Sinks

A sink takes the events of a document. It may fail any call, in any pattern; the state after a
failed call is the sink's own affair. Callers keep to a discipline (an attribute follows the
start of its element or another attribute, elements nest, closing comes last), and a sink may
refuse calls that break it.
-/

namespace ParseMarkup

/-- A type of sinks. -/
class Sink (σ : Type) where
  /-- Make one call. -/
  call : Event → StreamM σ Unit

end ParseMarkup
