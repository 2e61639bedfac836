import ParseMarkup.Log

/-!
# Displaying values

Locations and payloads of a tree may be of any type that can be displayed. Displaying a value
gives a `Displayed`: the text it wrote, whether it wrote it to its end, and what it logged on
the way. Output only ever uses the text; a value that breaks off leaves the text it wrote up to
there, and one more log entry.
-/

namespace ParseMarkup

/-- What displaying a value produced. -/
structure Displayed where
  /-- The text that was written. -/
  text : String
  /-- Whether the value was displayed to its end. -/
  complete : Bool := true
  /-- The entries logged while it was displayed. -/
  log : List LogEntry := []
  deriving DecidableEq, Repr

namespace Displayed

/-- A value that was displayed to its end and logged nothing. -/
def whole (text : String) : Displayed := { text }

/-- A value that broke off after writing `text`. -/
def brokenOff (text : String) : Displayed := { text, complete := false }

/-- All entries that formatting the value adds to a log: its own, then a warning if it broke
off. -/
def entries (d : Displayed) : List LogEntry :=
  if d.complete then d.log else d.log ++ [.displayFailed]

@[simp] theorem text_whole (s : String) : (whole s).text = s := rfl

@[simp] theorem entries_whole (s : String) : (whole s).entries = [] := rfl

@[simp] theorem text_brokenOff (s : String) : (brokenOff s).text = s := rfl

@[simp] theorem entries_brokenOff (s : String) :
    (brokenOff s).entries = [.displayFailed] := rfl

end Displayed

/-- A type whose values can be displayed. -/
class Display (α : Type) where
  /-- Display one value. -/
  display : α → Displayed

export Display (display)

/-- The text that displaying `a` writes. -/
def displayText {α : Type} [Display α] (a : α) : String := (display a).text

/-- Already displayed values stand for themselves. -/
instance : Display Displayed := ⟨id⟩

/-- A text is displayed verbatim. -/
instance : Display String := ⟨.whole⟩

/-- A truth value is displayed as its word. -/
instance : Display Bool := ⟨fun b => .whole (if b then "true" else "false")⟩

/-- An integer is displayed in decimal, with a minus sign if it is negative. -/
instance : Display Int := ⟨fun i => .whole i.repr⟩

instance : Display Int32 := ⟨fun i => display i.toInt⟩

instance : Display Int64 := ⟨fun i => display i.toInt⟩

instance : Display UInt32 := ⟨fun n => .whole n.toNat.repr⟩

instance : Display UInt64 := ⟨fun n => .whole n.toNat.repr⟩

end ParseMarkup
