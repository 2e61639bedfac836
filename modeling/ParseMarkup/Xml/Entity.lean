/-!
# Entities

Five characters mean something in XML text and are written as entities instead. They are
replaced one after the other in the whole text, the ampersand first, so that no replacement
touches the ampersand of an entity that is already written.
-/

namespace ParseMarkup.Xml

/-- `cs` with each `c` replaced by `text`. -/
def replaceChar (c : Char) (text : String) (cs : List Char) : List Char :=
  cs.flatMap fun d => if d = c then text.toList else [d]

/-- `s` with the five special characters written as entities. -/
def escape (s : String) : String :=
  String.ofList <|
    replaceChar '\'' "&apos;" <|
    replaceChar '"' "&quot;" <|
    replaceChar '>' "&gt;" <|
    replaceChar '<' "&lt;" <|
    replaceChar '&' "&amp;" s.toList

/-- Replacing goes character by character, so it can be cut anywhere. -/
theorem replaceChar_append (c : Char) (text : String) (first second : List Char) :
    replaceChar c text (first ++ second) =
      replaceChar c text first ++ replaceChar c text second := by
  simp [replaceChar]

/-- Escaping goes character by character, so it can be cut anywhere. -/
theorem escape_append (first second : String) :
    escape (first ++ second) = escape first ++ escape second := by
  simp [escape, replaceChar_append]

end ParseMarkup.Xml
