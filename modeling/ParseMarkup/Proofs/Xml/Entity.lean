import ParseMarkup.Xml.Entity

/-!
# Escaping in one pass

`Xml.escape` replaces one special character after the other in the whole text. The same text
results from a single pass in which every character is escaped on its own, and from the escaped
text the five entities are read back in one pass.

The main statements are `toList_escape` (one pass), `unescape_toList_escape` (nothing is lost)
and `not_mem_escape_of_special` (no special character but the ampersand is left).
-/

namespace ParseMarkup.Xml

/-- What one character is escaped as. -/
def escapeChar (c : Char) : List Char :=
  match c with
  | '&' => ['&', 'a', 'm', 'p', ';']
  | '<' => ['&', 'l', 't', ';']
  | '>' => ['&', 'g', 't', ';']
  | '"' => ['&', 'q', 'u', 'o', 't', ';']
  | '\'' => ['&', 'a', 'p', 'o', 's', ';']
  | c => [c]

/-- Read the five entities in one pass. An ampersand that begins none of them stands for itself. -/
def unescape : List Char → List Char
  -- what is read as an ampersand is not read again
  | '&' :: 'a' :: 'm' :: 'p' :: ';' :: rest => '&' :: unescape rest
  | '&' :: 'l' :: 't' :: ';' :: rest => '<' :: unescape rest
  | '&' :: 'g' :: 't' :: ';' :: rest => '>' :: unescape rest
  | '&' :: 'q' :: 'u' :: 'o' :: 't' :: ';' :: rest => '"' :: unescape rest
  | '&' :: 'a' :: 'p' :: 'o' :: 's' :: ';' :: rest => '\'' :: unescape rest
  | c :: rest => c :: unescape rest
  | [] => []

/-- The characters that are escaped. -/
def specialChars : List Char := ['&', '<', '>', '"', '\'']

/-- A character is one of the five that are escaped, or an ordinary one. -/
theorem special_cases {motive : Char → Prop} (amp : motive '&') (lt : motive '<')
    (gt : motive '>') (quot : motive '"') (apos : motive '\'')
    (ordinary : ∀ c, c ∉ specialChars → motive c) (c : Char) : motive c := by
  by_cases hspecial : c ∈ specialChars
  · simp only [specialChars, List.mem_cons, List.not_mem_nil, or_false] at hspecial
    rcases hspecial with rfl | rfl | rfl | rfl | rfl
    · exact amp
    · exact lt
    · exact gt
    · exact quot
    · exact apos
  · exact ordinary c hspecial

theorem escapeChar_of_not_special {c : Char} (h : c ∉ specialChars) : escapeChar c = [c] := by
  simp only [specialChars, List.mem_cons, List.not_mem_nil, or_false, not_or] at h
  obtain ⟨hamp, hlt, hgt, hquot, hapos⟩ := h
  unfold escapeChar
  split <;> first | contradiction | rfl

/-- Replacing after a pass over the characters is replacing in what each of them became. -/
theorem replaceChar_flatMap (c : Char) (text : String) (cs : List Char) (f : Char → List Char) :
    replaceChar c text (cs.flatMap f) = cs.flatMap fun d => replaceChar c text (f d) :=
  List.flatMap_assoc

theorem replaceChar_singleton (c : Char) (text : String) (d : Char) :
    replaceChar c text [d] = if d = c then text.toList else [d] := by
  simp [replaceChar]

/-- The five replacements one after the other do to a single character what `escapeChar` does. -/
theorem replaceChar_singleton_eq_escapeChar (c : Char) :
    (replaceChar '\'' "&apos;" <| replaceChar '"' "&quot;" <| replaceChar '>' "&gt;" <|
      replaceChar '<' "&lt;" <| replaceChar '&' "&amp;" [c]) = escapeChar c := by
  cases c using special_cases with
  | ordinary c hspecial =>
    rw [escapeChar_of_not_special hspecial]
    simp only [specialChars, List.mem_cons, List.not_mem_nil, or_false, not_or] at hspecial
    obtain ⟨hamp, hlt, hgt, hquot, hapos⟩ := hspecial
    simp only [replaceChar_singleton, if_neg hamp, if_neg hlt, if_neg hgt, if_neg hquot,
      if_neg hapos]
  -- each of the five is replaced once: no text that is put in contains what is replaced later
  | _ => rfl

/-- Escaping is a single pass over the characters. -/
theorem toList_escape (s : String) : (escape s).toList = s.toList.flatMap escapeChar := by
  -- as a pass over single characters, the text goes through the five replacements together
  have hsingle : s.toList = s.toList.flatMap fun c => [c] := by simp
  rw [escape, String.toList_ofList]
  conv =>
    lhs
    rw [hsingle]
  simp only [replaceChar_flatMap, replaceChar_singleton_eq_escapeChar]

/-- Only an ampersand begins an entity. -/
theorem unescape_cons_of_ne {c : Char} (h : c ≠ '&') (rest : List Char) :
    unescape (c :: rest) = c :: unescape rest := by
  conv =>
    lhs
    unfold unescape
  split <;> simp_all

/-- An escaped character is read back whatever follows it. -/
theorem unescape_escapeChar_append (c : Char) (rest : List Char) :
    unescape (escapeChar c ++ rest) = c :: unescape rest := by
  cases c using special_cases with
  | ordinary c hspecial =>
    rw [escapeChar_of_not_special hspecial]
    refine unescape_cons_of_ne (fun heq => hspecial ?_) rest
    rw [heq]
    decide
  | _ => rfl

/-- An escaped text is read back, whatever it contains. -/
theorem unescape_toList_escape (s : String) : unescape (escape s).toList = s.toList := by
  rw [toList_escape]
  induction s.toList with
  | nil => rfl
  | cons c cs ih => rw [List.flatMap_cons, unescape_escapeChar_append, ih]

/-- An escaped text contains no special character but the ampersand. -/
theorem not_mem_escape_of_special {c : Char} (hspecial : c ∈ specialChars) (h : c ≠ '&')
    (s : String) : c ∉ (escape s).toList := by
  rw [toList_escape, List.mem_flatMap]
  rintro ⟨d, -, hmem⟩
  cases d using special_cases with
  | ordinary d hordinary =>
    rw [escapeChar_of_not_special hordinary, List.mem_singleton] at hmem
    exact hordinary (hmem ▸ hspecial)
  -- an entity holds an ampersand, letters and a semicolon
  | _ => grind [escapeChar, specialChars]

end ParseMarkup.Xml
