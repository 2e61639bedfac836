import ParseMarkup.Display

/-!
# Source locations

A position in a source text, kept as line, column and byte offset, together with the name of
the unit it lies in when that is known. It is the location type for parsers that track all
three; trees take any other displayable type as well.
-/

namespace ParseMarkup

/-- A position in a source unit. -/
structure SourceLocation where
  /-- Name of the unit, usually a file. The empty name is a name. -/
  unit : Option String
  /-- Line number, as the parser counts. -/
  line : UInt64
  /-- Column number, as the parser counts. -/
  column : UInt64
  /-- Bytes from the start of the unit. -/
  offset : UInt64
  deriving DecidableEq, Repr

namespace SourceLocation

/-- A position of which no unit is known. -/
def ofPosition (line column offset : UInt64) : SourceLocation :=
  { unit := none, line, column, offset }

/-- The same position in the unit `name`, whatever its unit was before. -/
def inUnit (loc : SourceLocation) (name : String) : SourceLocation :=
  { loc with unit := some name }

/-- The text of the position alone: `line/column(offset)`. -/
def positionText (loc : SourceLocation) : String :=
  loc.line.toNat.repr ++ "/" ++ loc.column.toNat.repr ++ "(" ++ loc.offset.toNat.repr ++ ")"

/-- The text of a location: `unit:line/column(offset)`, or `line/column(offset)` when there is
no unit. -/
def text (loc : SourceLocation) : String :=
  match loc.unit with
  | none => loc.positionText
  | some name => name ++ ":" ++ loc.positionText

instance : Display SourceLocation := ⟨fun loc => .whole loc.text⟩

end SourceLocation

end ParseMarkup
