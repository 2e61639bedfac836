import ParseMarkup.Stream.Error

/-!
# Transports

Where a text format goes: pieces of text are put one after the other, and what is buffered can
be flushed. `TextBuffer` keeps the text in memory and never fails.
-/

namespace ParseMarkup

/-- A type of transports. -/
class Transport (ω : Type) where
  /-- Pass on a whole piece of text. A failure may leave part of it passed on. -/
  put : String → StreamM ω Unit
  /-- Pass on what is buffered. -/
  flush : StreamM ω Unit

/-- A transport that keeps the text. -/
structure TextBuffer where
  /-- All that was put. -/
  text : String := ""
  deriving DecidableEq, Repr

instance : Transport TextBuffer where
  put s := fun b => .ok () ⟨b.text ++ s⟩
  flush := fun b => .ok () b

namespace TextBuffer

@[simp] theorem put_eq (s : String) (b : TextBuffer) :
    Transport.put s b = .ok () (TextBuffer.mk (b.text ++ s)) := rfl

@[simp] theorem flush_eq (b : TextBuffer) : Transport.flush b = .ok () b := rfl

end TextBuffer

end ParseMarkup
