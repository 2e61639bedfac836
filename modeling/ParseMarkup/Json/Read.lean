import ParseMarkup.Json.Token

/-!
# Reading a JSON text

The tokens of a text are taken one by one by a reader with a stack: each array or object that is
still open is a `Frame`. Reading is a fold of `Reader.step` over the tokens, so it needs no
bound on how deep a text nests.
-/

namespace ParseMarkup.Json

/-- An array or object that has been opened and not closed. -/
inductive Frame where
  /-- An array with these items, last first. -/
  | array (items : List Json)
  /-- An object with these members, last first, that is at the value of `key`. -/
  | object (members : List (String × Json)) (key : String)

/-- A reader in a text. The stack holds what is open, innermost first. -/
inductive Reader where
  /-- A value must follow. -/
  | expecting (stack : List Frame)
  /-- An array was just opened: a value or its end follows. -/
  | arrayStart (stack : List Frame)
  /-- An object was just opened: a name or its end follows. -/
  | objectStart (stack : List Frame)
  /-- After a comma in an object: a name follows. -/
  | name (members : List (String × Json)) (stack : List Frame)
  /-- After a name in an object: a colon follows. -/
  | colon (members : List (String × Json)) (key : String) (stack : List Frame)
  /-- A value is complete. -/
  | complete (value : Json) (stack : List Frame)

namespace Reader

/-- Take the first token of a value. -/
def begin? (stack : List Frame) : Token → Option Reader
  | .openArray => some (.arrayStart stack)
  | .openObject => some (.objectStart stack)
  | .atom v => some (.complete v stack)
  | _ => none

/-- Take one token. -/
def step : Reader → Token → Option Reader
  | .expecting stack, t => begin? stack t
  | .arrayStart stack, .closeArray => some (.complete (.arr []) stack)
  | .arrayStart stack, t => begin? (.array [] :: stack) t
  | .objectStart stack, .closeObject => some (.complete (.obj []) stack)
  | .objectStart stack, .atom (.str key) => some (.colon [] key stack)
  | .name members stack, .atom (.str key) => some (.colon members key stack)
  | .colon members key stack, .colon => some (.expecting (.object members key :: stack))
  | .complete v (.array items :: stack), .comma => some (.expecting (.array (v :: items) :: stack))
  | .complete v (.array items :: stack), .closeArray =>
    some (.complete (.arr (v :: items).reverse) stack)
  | .complete v (.object members key :: stack), .comma => some (.name ((key, v) :: members) stack)
  | .complete v (.object members key :: stack), .closeObject =>
    some (.complete (.obj ((key, v) :: members).reverse) stack)
  | _, _ => none

/-- The value that has been read, if nothing is open. -/
def value? : Reader → Option Json
  | .complete v [] => some v
  | _ => none

end Reader

/-- The reader after the tokens `ts`. -/
def readFrom (r : Reader) (ts : List Token) : Option Reader := ts.foldlM Reader.step r

/-- The value that a text spells, if it is a JSON text. -/
def parse? (text : String) : Option Json :=
  (scan text).bind fun ts => (readFrom (.expecting []) ts).bind Reader.value?

theorem readFrom_append (r : Reader) (first second : List Token) :
    readFrom r (first ++ second) = (readFrom r first).bind (readFrom · second) :=
  List.foldlM_append

end ParseMarkup.Json
