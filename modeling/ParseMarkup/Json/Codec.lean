import ParseMarkup.Json.Basic
import ParseMarkup.Location

/-!
# Stored forms

A type with a `Codec` has a JSON form that it is written in, and a reader that takes that form
and some others back. A structure is written as an object with its fields in order. It is read
from an object with the fields in any order, where other members do not matter, an optional field
may be missing or `null` and no field may stand twice, and from an array of exactly all its fields
in order.

The module introduces `Codec`, its instances for texts and bounded integers, `Json.fields?` for
structures, and the form of a source location.
-/

namespace ParseMarkup

/-- A type that can be stored as JSON. -/
class Codec (α : Type) where
  /-- The form that a value is written in. -/
  encode : α → Json
  /-- The value that a JSON value stands for, if it stands for one. -/
  decode : Json → Option α

namespace Json

/-- The integer that a JSON value is, if it lies from `lo` to `hi`. -/
def intBetween? (lo hi : Int) : Json → Option Int
  | int i => if lo ≤ i ∧ i ≤ hi then some i else none
  | _ => none

/-- The fields of a structure with the field names `names`, in that order; a field that an object
does not have is `none`. There are none if a field stands twice. -/
def fields? (names : List String) : Json → Option (List (Option Json))
  | obj members =>
    if distinct names members then some (names.map fun name => member? name members) else none
  | arr items => if items.length = names.length then some (items.map some) else none
  | _ => none

end Json

namespace Codec

instance : Codec String where
  encode := .str
  decode
    | .str s => some s
    | _ => none

instance : Codec UInt32 where
  encode n := .int n.toNat
  decode j := (j.intBetween? 0 (UInt32.size - 1 : Nat)).map fun i => UInt32.ofNat i.toNat

instance : Codec UInt64 where
  encode n := .int n.toNat
  decode j := (j.intBetween? 0 (UInt64.size - 1 : Nat)).map fun i => UInt64.ofNat i.toNat

instance : Codec Int32 where
  encode i := .int i.toInt
  decode j := (j.intBetween? Int32.minValue.toInt Int32.maxValue.toInt).map Int32.ofInt

instance : Codec Int64 where
  encode i := .int i.toInt
  decode j := (j.intBetween? Int64.minValue.toInt Int64.maxValue.toInt).map Int64.ofInt

variable {α : Type} [Codec α]

/-- The form of a value that may be absent: absence is `null`. -/
def encodeOption : Option α → Json
  | none => .null
  | some a => encode a

/-- A field that may be absent: it may be missing or `null`. -/
def decodeOption : Option Json → Option (Option α)
  | none => some none
  | some .null => some none
  | some j => (decode j).map some

end Codec

namespace SourceLocation

/-- The names of the fields of a location, in order. -/
def fieldNames : List String := ["unit", "line", "column", "offset"]

/-- The stored form of a location. -/
def encode (loc : SourceLocation) : Json :=
  .obj [("unit", Codec.encodeOption loc.unit), ("line", Codec.encode loc.line),
    ("column", Codec.encode loc.column), ("offset", Codec.encode loc.offset)]

/-- The location that a stored form stands for; only the unit may be missing. -/
def decode (j : Json) : Option SourceLocation :=
  match j.fields? fieldNames with
  | some [unit, some line, some column, some offset] => do
    let unit ← Codec.decodeOption unit
    let line ← Codec.decode line
    let column ← Codec.decode column
    let offset ← Codec.decode offset
    return { unit, line, column, offset }
  | _ => none

instance : Codec SourceLocation := ⟨encode, decode⟩

end SourceLocation

end ParseMarkup
