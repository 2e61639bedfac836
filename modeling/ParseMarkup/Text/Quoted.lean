import ParseMarkup.Text.Invisible

/-!
# Quoted text

The form in which a log line shows a text it was given: between double quotes, with every
character that would break the line or could not be seen written as an escape.

The module introduces:

* `quoteChar c`: what is written for one character;
* `quoted s`: the whole text between quotes;
* `quotedOption o`: `None`, or `Some(..)` around the quoted text.
-/

namespace ParseMarkup.Text

/-- `c` by its code point, in lower-case hexadecimal without padding: ESC is `\u{1b}`. -/
def codePointEscape (c : Char) : String :=
  "\\u\x7b" ++ String.ofList (Nat.toDigits 16 c.toNat) ++ "\x7d"

/-- What stands between the quotes for one character. A double quote and a backslash follow a
backslash, four control characters have a short escape, and all else that does not show is
written by its code point. A single quote stands as it is. -/
def quoteChar (c : Char) : String :=
  match c with
  | '"' => "\\\""
  | '\\' => "\\\\"
  | '\n' => "\\n"
  | '\r' => "\\r"
  | '\t' => "\\t"
  | '\x00' => "\\0"
  | c => if isInvisible c then codePointEscape c else c.toString

/-- `s` between double quotes, character by character. -/
def quoted (s : String) : String :=
  s.toList.foldl (fun out c => out ++ quoteChar c) "\"" ++ "\""

/-- A text that may be absent: `None`, or `Some("..")`. -/
def quotedOption : Option String → String
  | none => "None"
  | some s => "Some(" ++ quoted s ++ ")"

end ParseMarkup.Text
