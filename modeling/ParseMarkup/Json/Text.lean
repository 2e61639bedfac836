import ParseMarkup.Json.Basic

/-!
# The text of a JSON value

The compact form: no blanks, members in order, integers in decimal. In a string only the double
quote, the backslash and the characters below U+0020 are escaped, five of them by a short
escape and the others as `\u00xx`.

The module introduces `Json.write`, which appends to a text, and `Json.compress`, the text of a
value.
-/

namespace ParseMarkup.Json

/-- What stands in a JSON string for one character. -/
def escapeChar (c : Char) : String :=
  match c with
  | '"' => "\\\""
  | '\\' => "\\\\"
  | '\x08' => "\\b"
  | '\t' => "\\t"
  | '\n' => "\\n"
  | '\x0c' => "\\f"
  | '\r' => "\\r"
  | c =>
    if c.toNat < 0x20 then
      "\\u00" ++ String.ofList [Nat.digitChar (c.toNat / 16), Nat.digitChar (c.toNat % 16)]
    else c.toString

/-- Append `s` as a JSON string, with its quotes. -/
def writeString (s : String) (out : String) : String :=
  (s.toList.foldl (fun out c => out ++ escapeChar c) (out.push '"')).push '"'

mutual

/-- Append a value. -/
def write : Json → String → String
  | null, out => out ++ "null"
  | bool b, out => out ++ (if b then "true" else "false")
  | int i, out => out ++ i.repr
  | decimal lexeme, out => out ++ lexeme
  | str s, out => writeString s out
  | arr [], out => out ++ "[]"
  | arr (j :: js), out => writeItems js (write j (out.push '['))
  | obj [], out => out ++ "\x7b\x7d"
  | obj ((key, j) :: rest), out =>
    writeMembers rest (write j ((writeString key (out.push '\x7b')).push ':'))

/-- Append the items after the first, each after a comma, and the closing bracket. -/
def writeItems : List Json → String → String
  | [], out => out.push ']'
  | j :: js, out => writeItems js (write j (out.push ','))

/-- Append the members after the first, each after a comma, and the closing brace. -/
def writeMembers : List (String × Json) → String → String
  | [], out => out.push '\x7d'
  | (key, j) :: rest, out =>
    writeMembers rest (write j ((writeString key (out.push ',')).push ':'))

end

/-- The compact text of a value. -/
def compress (j : Json) : String := write j ""

end ParseMarkup.Json
