import ParseMarkup.Json.Read
import ParseMarkup.Json.Text
import ParseMarkup.Proofs.Json.Format
import ParseMarkup.Proofs.Json.Number

/-!
# Reading a JSON value back from its text

A text is written by appending, and read by two machines one behind the other: a scanner takes the
characters and a reader takes the tokens. What is written is followed through both at once, by the
state that the reader is in after the text so far.

The module introduces:

* `KeptAsSpelled`: which spellings of numbers come back as they are;
* `Reaches` and `Completes`: that a text takes the reader to a state, with the scanner between two
  tokens, or at the end of a token that any separator ends;
* `Reader.Awaits`: that a value may follow.

* `TextFormat.compact`: the format of this text, with a limit on how deep a text may nest.

The main statements: writing a value where one may follow completes that value
(`completes_write`, by induction on the value), so every value is read back from its text
(`parse?_compress`), and the format is a lawful one (`TextFormat.compact_lawful`).
-/

namespace ParseMarkup.Json

/-- That a number is kept by the spelling `lexeme`, and so comes back as it was spelled. -/
def KeptAsSpelled (lexeme : String) : Prop :=
  atomOfNumber lexeme.toList = some (.decimal lexeme)

/-! ## Scanning what was appended -/

theorem scanFrom_cons (s : Scanner) (c : Char) (cs : List Char) :
    scanFrom s (c :: cs) = (s.step c).bind (scanFrom · cs) := rfl

theorem scanFrom_singleton (s : Scanner) (c : Char) : scanFrom s [c] = s.step c := by
  rw [scanFrom_cons]
  exact Option.bind_fun_some _

/-- The last character of a text is scanned from what the others leave. -/
theorem scanFrom_push (s : Scanner) (text : String) (c : Char) :
    scanFrom s (text.push c).toList = (scanFrom s text.toList).bind fun s => s.step c := by
  simp only [String.toList_push, scanFrom_append, scanFrom_singleton]

/-- What a text is scanned to is all that matters for what follows it. -/
theorem scanFrom_append_of_eq {s s' : Scanner} {text : String}
    (h : scanFrom s text.toList = some s') (more : String) :
    scanFrom s (text ++ more).toList = scanFrom s' more.toList := by
  rw [String.toList_append, scanFrom_append, h, Option.bind_some]

/-- A character that cannot go on with a word or a number is read after what it ends is complete. -/
theorem Scanner.step_of_settle {s s' : Scanner} (h : s.settle = some s') {c : Char}
    (hletter : c.isAlpha = false) (hnumber : isNumberChar c = false) :
    s.step c = s'.stepBetween c := by
  obtain ⟨tokens, mode⟩ := s
  cases mode with
  | between =>
    obtain rfl := Option.some.inj h
    rfl
  | word letters => simp [step, hletter, h]
  | number lexeme => simp [step, hnumber, h]
  | _ => cases h

/-! ### Strings -/

/-- A hexadecimal digit is read as its value. -/
theorem hexDigit?_digitChar : ∀ n < 16, hexDigit? (Nat.digitChar n) = some n := by decide

/-- The escape of a character below the blank is read as that character. -/
theorem scanFrom_controlEscape (tokens : List Token) (chars : List Char) {c : Char}
    (hcontrol : c.toNat < 0x20) :
    scanFrom ⟨tokens, .text chars⟩
        (['\\', 'u', '0', '0'] ++
          [Nat.digitChar (c.toNat / 16), Nat.digitChar (c.toNat % 16)]) =
      some ⟨tokens, .text (c :: chars)⟩ := by
  have hhigh := hexDigit?_digitChar (c.toNat / 16) (by omega)
  have hlow := hexDigit?_digitChar (c.toNat % 16) (by omega)
  have hunit : c.toNat / 16 * 16 + c.toNat % 16 = c.toNat := by omega
  -- a character below the blank is no half of a pair
  have hwhole : afterUnit chars none c.toNat = some (.text (c :: chars)) := by
    have hhighUnit : isHighUnit c.toNat = false := by simp [isHighUnit]; omega
    have hlowUnit : isLowUnit c.toNat = false := by simp [isLowUnit]; omega
    simp [afterUnit, hhighUnit, hlowUnit]
  have hzeros : scanFrom ⟨tokens, .text chars⟩ ['\\', 'u', '0', '0'] =
      some ⟨tokens, .hex chars none 2 0⟩ := rfl
  have hthird : (Scanner.mk tokens (.hex chars none 2 0)).step (Nat.digitChar (c.toNat / 16)) =
      some ⟨tokens, .hex chars none 3 (c.toNat / 16)⟩ := by
    simp [Scanner.step, Scanner.enter, hhigh]
  have hfourth : (Scanner.mk tokens (.hex chars none 3 (c.toNat / 16))).step
      (Nat.digitChar (c.toNat % 16)) = some ⟨tokens, .text (c :: chars)⟩ := by
    simp [Scanner.step, Scanner.enter, hlow, hunit, hwhole]
  rw [scanFrom_append, hzeros, Option.bind_some, scanFrom_cons, hthird, Option.bind_some,
    scanFrom_singleton, hfourth]

/-- In a string, what is written for a character is read as that character. -/
theorem scanFrom_escapeChar (tokens : List Token) (chars : List Char) (c : Char) :
    scanFrom ⟨tokens, .text chars⟩ (escapeChar c).toList = some ⟨tokens, .text (c :: chars)⟩ := by
  unfold escapeChar
  split
  -- the escapes of two characters
  iterate 7 rfl
  · rename_i hquote hbackslash _ _ _ _ _
    split
    · rename_i hcontrol
      simp only [String.toList_append, String.toList_ofList]
      exact scanFrom_controlEscape tokens chars hcontrol
    · rename_i hprintable
      have hquote : ¬ c = '"' := hquote
      have hbackslash : ¬ c = '\\' := hbackslash
      rw [Char.toString_eq_singleton, String.toList_singleton, scanFrom_singleton]
      simp [Scanner.step, Scanner.enter, hquote, hbackslash, hprintable]

/-- A string is written as one token. -/
theorem scanFrom_writeString {out : String} {tokens : List Token}
    (h : scanFrom .start out.toList = some ⟨tokens, .between⟩) (s : String) :
    scanFrom .start (writeString s out).toList = some ⟨.atom (.str s) :: tokens, .between⟩ := by
  -- the characters go to what was read of the string, last first
  have hchars : ∀ (cs read : List Char) (out : String),
      scanFrom .start out.toList = some ⟨tokens, .text read⟩ →
      scanFrom .start (cs.foldl (fun out c => out ++ escapeChar c) out).toList =
        some ⟨tokens, .text (cs.reverse ++ read)⟩ := by
    intro cs
    induction cs with
    | nil => exact fun read out h => h
    | cons c cs ih =>
      intro read out h
      rw [List.foldl_cons, List.reverse_cons, List.append_assoc]
      apply ih (c :: read)
      rw [scanFrom_append_of_eq h, scanFrom_escapeChar]
  have hopened : scanFrom .start (out.push '"').toList = some ⟨tokens, .text []⟩ := by
    rw [scanFrom_push, h]
    rfl
  rw [writeString, scanFrom_push, hchars s.toList [] _ hopened, Option.bind_some, List.append_nil]
  simp [Scanner.step, Scanner.push]

/-! ### Numbers -/

/-- A digit or a sign between tokens begins a number. -/
theorem Scanner.stepBetween_of_startsNumber (tokens : List Token) {c : Char}
    (h : startsNumber c = true) :
    (Scanner.mk tokens .between).stepBetween c = some ⟨tokens, .number [c]⟩ := by
  have hblank : ¬ isBlank c = true := by
    intro hblank
    have : ((c = ' ' ∨ c = '\t') ∨ c = '\n') ∨ c = '\r' := by simpa [isBlank] using hblank
    rcases this with ((rfl | rfl) | rfl) | rfl
    all_goals exact absurd h (by decide)
  unfold stepBetween
  rw [if_neg hblank]
  split
  -- a number begins with no punctuation and no quote
  iterate 7 exact absurd h (by decide)
  exact if_pos h

/-- The characters of a number are read as one. -/
theorem scanFrom_number (tokens : List Token) {lexeme : List Char} {v : Json}
    (h : atomOfNumber lexeme = some v) :
    scanFrom ⟨tokens, .between⟩ lexeme = some ⟨tokens, .number lexeme.reverse⟩ := by
  have hchars : ∀ (cs read : List Char), (∀ c ∈ cs, isNumberChar c = true) →
      scanFrom ⟨tokens, .number read⟩ cs = some ⟨tokens, .number (cs.reverse ++ read)⟩ := by
    intro cs
    induction cs with
    | nil => exact fun read h => rfl
    | cons c cs ih =>
      intro read hall
      obtain ⟨hfirst, hothers⟩ := List.forall_mem_cons.1 hall
      rw [scanFrom_cons, List.reverse_cons, List.append_assoc]
      simpa [Scanner.step, Scanner.enter, hfirst] using ih (c :: read) hothers
  obtain ⟨c, cs, rfl, hstarts⟩ := startsNumber_of_atomOfNumber h
  have hall := isNumberChar_of_atomOfNumber h
  rw [scanFrom_cons, List.reverse_cons]
  change ((Scanner.mk tokens .between).stepBetween c).bind _ = _
  rw [Scanner.stepBetween_of_startsNumber tokens hstarts, Option.bind_some]
  exact hchars cs [c] (List.forall_mem_cons.1 hall).2

/-! ## Following the reader -/

/-- A text that takes the reader to the state `r`, with the scanner between two tokens. -/
def Reaches (out : String) (r : Reader) : Prop :=
  ∃ tokens, scanFrom .start out.toList = some ⟨tokens, .between⟩ ∧
    readFrom (.expecting []) tokens.reverse = some r

/-- The same for a text that may end in a token which any separator ends. -/
def Completes (out : String) (r : Reader) : Prop :=
  ∃ s tokens, scanFrom .start out.toList = some s ∧ s.settle = some ⟨tokens, .between⟩ ∧
    readFrom (.expecting []) tokens.reverse = some r

/-- Between two tokens nothing is left to settle. -/
theorem Reaches.completes {out : String} {r : Reader} (h : Reaches out r) : Completes out r := by
  obtain ⟨tokens, hscanned, hread⟩ := h
  exact ⟨_, tokens, hscanned, rfl, hread⟩

/-- The reader takes one more token. -/
theorem readFrom_reverse_cons {tokens : List Token} {t : Token} {r r' : Reader}
    (h : readFrom (.expecting []) tokens.reverse = some r) (hnext : r.step t = some r') :
    readFrom (.expecting []) (t :: tokens).reverse = some r' := by
  rw [List.reverse_cons, readFrom_append, h, Option.bind_some, readFrom, List.foldlM_cons, hnext]
  rfl

/-- The token that is one character which no word or number goes on with. -/
def punctuation : Token → Option Char
  | .openArray => some '['
  | .closeArray => some ']'
  | .openObject => some '\x7b'
  | .closeObject => some '\x7d'
  | .comma => some ','
  | .colon => some ':'
  | .atom _ => none

/-- Such a character ends the token before it and is a token itself. -/
theorem Completes.push {out : String} {r r' : Reader} (h : Completes out r) {t : Token} {c : Char}
    (hmark : punctuation t = some c) (hnext : r.step t = some r') : Reaches (out.push c) r' := by
  obtain ⟨s, tokens, hscanned, hsettled, hread⟩ := h
  refine ⟨t :: tokens, ?_, readFrom_reverse_cons hread hnext⟩
  have hends : c.isAlpha = false ∧ isNumberChar c = false ∧
      (Scanner.mk tokens .between).stepBetween c = some ⟨t :: tokens, .between⟩ := by
    cases t with
    | atom v => cases hmark
    | _ =>
      obtain rfl := Option.some.inj hmark
      exact ⟨by decide, by decide, rfl⟩
  rw [scanFrom_push, hscanned, Option.bind_some, Scanner.step_of_settle hsettled hends.1 hends.2.1,
    hends.2.2]

/-- That a value may follow, with `stack` open around it. -/
def Reader.Awaits (r : Reader) (stack : List Frame) : Prop :=
  ∀ t r', begin? stack t = some r' → r.step t = some r'

theorem Reader.awaits_expecting (stack : List Frame) : (Reader.expecting stack).Awaits stack :=
  fun _ _ h => h

/-- The first item of an array may follow its bracket. -/
theorem Reader.awaits_arrayStart (stack : List Frame) :
    (Reader.arrayStart stack).Awaits (.array [] :: stack) := by
  intro t r' h
  cases t with
  | closeArray => cases h
  | _ => exact h

/-! ### Values of one token -/

/-- A word is written as one token. -/
theorem completes_word {out : String} {r : Reader} {stack : List Frame} (h : Reaches out r)
    (hawaits : r.Awaits stack) (word : List Char) {v : Json}
    (hscanned : ∀ tokens, scanFrom ⟨tokens, .between⟩ word = some ⟨tokens, .word word.reverse⟩)
    (hatom : atomOfWord word = some v) :
    Completes (out ++ String.ofList word) (.complete v stack) := by
  obtain ⟨tokens, hbefore, hread⟩ := h
  refine ⟨⟨tokens, .word word.reverse⟩, .atom v :: tokens, ?_, ?_, ?_⟩
  · rw [scanFrom_append_of_eq hbefore, String.toList_ofList, hscanned]
  · simp [Scanner.settle, Scanner.push, hatom]
  · exact readFrom_reverse_cons hread (hawaits _ _ rfl)

/-- So is a number. -/
theorem completes_number {out : String} {r : Reader} {stack : List Frame} (h : Reaches out r)
    (hawaits : r.Awaits stack) {lexeme : String} {v : Json}
    (hatom : atomOfNumber lexeme.toList = some v) :
    Completes (out ++ lexeme) (.complete v stack) := by
  obtain ⟨tokens, hbefore, hread⟩ := h
  refine ⟨⟨tokens, .number lexeme.toList.reverse⟩, .atom v :: tokens, ?_, ?_, ?_⟩
  · rw [scanFrom_append_of_eq hbefore, scanFrom_number tokens hatom]
  · simp [Scanner.settle, Scanner.push, hatom]
  · exact readFrom_reverse_cons hread (hawaits _ _ rfl)

/-- So is a string, which ends by itself. -/
theorem reaches_writeString {out : String} {r r' : Reader} (h : Reaches out r) {s : String}
    (hnext : r.step (.atom (.str s)) = some r') : Reaches (writeString s out) r' := by
  obtain ⟨tokens, hbefore, hread⟩ := h
  exact ⟨_, scanFrom_writeString hbefore s, readFrom_reverse_cons hread hnext⟩

/-- The name of a member and its colon lead to the value of the member. -/
theorem reaches_name {out : String} {r : Reader} {members : List (String × Json)} (key : String)
    {stack : List Frame} (h : Reaches out r)
    (hnext : r.step (.atom (.str key)) = some (.colon members key stack)) :
    Reaches ((writeString key out).push ':') (.expecting (.object members key :: stack)) :=
  (reaches_writeString h hnext).completes.push (t := .colon) rfl rfl

/-! ### All values -/

mutual

/-- Where a value may follow, writing one completes it. Of an array or an object only the bracket
and the first value are handled here: what follows is joined to them by commas. -/
theorem completes_write : ∀ (j : Json) {out : String} {r : Reader} {stack : List Frame},
    j.Portable KeptAsSpelled → Reaches out r → r.Awaits stack →
    Completes (write j out) (.complete j stack)
  | null, _, _, _, _, h, hawaits =>
    completes_word h hawaits ['n', 'u', 'l', 'l'] (fun _ => rfl) rfl
  | bool true, _, _, _, _, h, hawaits =>
    completes_word h hawaits ['t', 'r', 'u', 'e'] (fun _ => rfl) rfl
  | bool false, _, _, _, _, h, hawaits =>
    completes_word h hawaits ['f', 'a', 'l', 's', 'e'] (fun _ => rfl) rfl
  | int i, _, _, _, _, h, hawaits => completes_number h hawaits (atomOfNumber_repr i)
  | decimal lexeme, _, _, _, hspelled, h, hawaits => completes_number h hawaits hspelled
  | str s, _, _, _, _, h, hawaits => (reaches_writeString h (hawaits _ _ rfl)).completes
  | arr [], out, _, stack, _, h, hawaits => by
    have hopened : Reaches (out.push '[') (.arrayStart stack) :=
      h.completes.push (t := .openArray) rfl (hawaits _ _ rfl)
    have hclosed : Reaches ((out.push '[').push ']') (.complete (.arr []) stack) :=
      hopened.completes.push (t := .closeArray) rfl rfl
    rw [String.push_eq_append, String.push_eq_append, String.append_assoc] at hclosed
    exact hclosed.completes
  | arr (j :: js), out, _, stack, hspelled, h, hawaits => by
    have hopened : Reaches (out.push '[') (.arrayStart stack) :=
      h.completes.push (t := .openArray) rfl (hawaits _ _ rfl)
    have hfirst := completes_write j hspelled.1 hopened (Reader.awaits_arrayStart stack)
    exact completes_writeItems js hspelled.2 hfirst
  | obj [], out, _, stack, _, h, hawaits => by
    have hopened : Reaches (out.push '\x7b') (.objectStart stack) :=
      h.completes.push (t := .openObject) rfl (hawaits _ _ rfl)
    have hclosed : Reaches ((out.push '\x7b').push '\x7d') (.complete (.obj []) stack) :=
      hopened.completes.push (t := .closeObject) rfl rfl
    rw [String.push_eq_append, String.push_eq_append, String.append_assoc] at hclosed
    exact hclosed.completes
  | obj ((key, j) :: rest), out, _, stack, hspelled, h, hawaits => by
    have hopened : Reaches (out.push '\x7b') (.objectStart stack) :=
      h.completes.push (t := .openObject) rfl (hawaits _ _ rfl)
    have hnamed := reaches_name key hopened rfl
    have hfirst := completes_write j hspelled.1 hnamed (Reader.awaits_expecting _)
    exact completes_writeMembers rest hspelled.2 hfirst

/-- The other items of an array and its end are read after the first item. -/
theorem completes_writeItems : ∀ (js : List Json) {out : String} {v : Json} {items : List Json}
    {stack : List Frame}, PortableAll KeptAsSpelled js →
    Completes out (.complete v (.array items :: stack)) →
    Completes (writeItems js out) (.complete (.arr ((v :: items).reverse ++ js)) stack)
  | [], _, _, _, _, _, h => by
    rw [List.append_nil]
    exact (h.push (t := .closeArray) rfl rfl).completes
  | j :: js, out, v, items, stack, hspelled, h => by
    have hcomma : Reaches (out.push ',') (.expecting (.array (v :: items) :: stack)) :=
      h.push (t := .comma) rfl rfl
    have hnext := completes_write j hspelled.1 hcomma (Reader.awaits_expecting _)
    have hothers := completes_writeItems js hspelled.2 hnext
    rwa [List.reverse_cons, List.append_assoc, List.singleton_append] at hothers

/-- The other members of an object and its end are read after the first member. -/
theorem completes_writeMembers : ∀ (rest : List (String × Json)) {out : String} {v : Json}
    {members : List (String × Json)} {key : String} {stack : List Frame},
    PortableMembers KeptAsSpelled rest →
    Completes out (.complete v (.object members key :: stack)) →
    Completes (writeMembers rest out)
      (.complete (.obj (((key, v) :: members).reverse ++ rest)) stack)
  | [], _, _, _, _, _, _, h => by
    rw [List.append_nil]
    exact (h.push (t := .closeObject) rfl rfl).completes
  | (name, j) :: rest, out, v, members, key, stack, hspelled, h => by
    have hcomma : Reaches (out.push ',') (.name ((key, v) :: members) stack) :=
      h.push (t := .comma) rfl rfl
    have hnamed := reaches_name name hcomma rfl
    have hnext := completes_write j hspelled.1 hnamed (Reader.awaits_expecting _)
    have hothers := completes_writeMembers rest hspelled.2 hnext
    rwa [List.reverse_cons, List.append_assoc, List.singleton_append] at hothers

end

/-- Every value whose numbers are kept as they are spelled is read back from its text. -/
theorem parse?_compress {j : Json} (h : j.Portable KeptAsSpelled) : parse? j.compress = some j := by
  have hstart : Reaches "" (.expecting []) := ⟨[], rfl, rfl⟩
  obtain ⟨s, tokens, hscanned, hsettled, hread⟩ :=
    completes_write j h hstart (Reader.awaits_expecting [])
  rw [parse?, scan, compress, hscanned, Option.bind_some, hsettled, Option.map_some,
    Option.bind_some, hread, Option.bind_some, Reader.value?]

end ParseMarkup.Json

namespace ParseMarkup.TextFormat

open Json

/-- The compact text, where a text that nests as deep as `limit` is refused. -/
def compact (limit : Option Nat) : TextFormat where
  print := compress
  parse? text := (Json.parse? text).filter (fits limit)
  Keeps := KeptAsSpelled

/-- The compact text is a lawful format, whatever the limit. -/
theorem compact_lawful (limit : Option Nat) : (compact limit).Lawful limit where
  parse?_print {j} hportable hfits := by
    have hparse : Json.parse? j.compress = some j := parse?_compress hportable
    change (Json.parse? j.compress).filter (fits limit) = some j
    rw [hparse, Option.filter_some, if_pos hfits]
  fits_of_parse? hparse := (Option.filter_eq_some_iff.1 hparse).2

end ParseMarkup.TextFormat
