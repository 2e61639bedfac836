import ParseMarkup.Json.Basic

/-!
# Tokens of a JSON text

A JSON text is read character by character. A `Scanner` holds the tokens that are complete and
the part of a token it is in; scanning is a fold of `Scanner.step` over the text, so the state
after a text is the state after its first part, continued on the second (`scanFrom_append`).

A character outside the Basic Multilingual Plane may be spelled as two `\u` escapes; half of
such a pair is an error.
-/

namespace ParseMarkup.Json

/-- A token. A value of one token (a word, a number or a string) is kept as the value it is. -/
inductive Token where
  | openArray
  | closeArray
  | openObject
  | closeObject
  | comma
  | colon
  | atom (value : Json)

/-- What the scanner is in the middle of. Characters read so far are kept last first. -/
inductive ScanMode where
  /-- Between two tokens. -/
  | between
  /-- In a word of letters. -/
  | word (letters : List Char)
  /-- In a number. -/
  | number (lexeme : List Char)
  /-- In a string. -/
  | text (chars : List Char)
  /-- After the backslash of an escape. -/
  | escape (chars : List Char)
  /-- In a `\u` escape, after `digits` of its four digits, which make up `value`. `high` is the
  first half of a pair when this is the second. -/
  | hex (chars : List Char) (high : Option Nat) (digits : Nat) (value : Nat)
  /-- After the first half of a pair: a backslash must follow. -/
  | half (chars : List Char) (high : Nat)
  /-- After the backslash behind the first half of a pair: a `u` must follow. -/
  | halfEscape (chars : List Char) (high : Nat)

/-- A scanner in a text. -/
structure Scanner where
  /-- The tokens that are complete, last first. -/
  tokens : List Token
  /-- Where in a token the scanner stands. -/
  mode : ScanMode

/-- The characters that separate tokens and mean nothing. -/
def isBlank (c : Char) : Bool :=
  c = ' ' || c = '\t' || c = '\n' || c = '\r'

/-- The characters that may stand in a number. -/
def isNumberChar (c : Char) : Bool :=
  c.isDigit || c = '-' || c = '+' || c = '.' || c = 'e' || c = 'E'

/-- The token of a word. -/
def atomOfWord : List Char → Option Json
  | ['n', 'u', 'l', 'l'] => some .null
  | ['t', 'r', 'u', 'e'] => some (.bool true)
  | ['f', 'a', 'l', 's', 'e'] => some (.bool false)
  | _ => none

/-- Whether `cs` is nothing, or an exponent: `e` or `E`, perhaps a sign, and digits. -/
def isExponent : List Char → Bool
  | [] => true
  | e :: rest =>
    (e = 'e' || e = 'E') &&
      match rest with
      | '+' :: ds => !ds.isEmpty && ds.all Char.isDigit
      | '-' :: ds => !ds.isEmpty && ds.all Char.isDigit
      | ds => !ds.isEmpty && ds.all Char.isDigit

/-- Whether `cs` is what may follow the integer part of a number: perhaps a point and digits,
then perhaps an exponent. -/
def isFraction : List Char → Bool
  | '.' :: rest =>
    !(rest.takeWhile Char.isDigit).isEmpty && isExponent (rest.dropWhile Char.isDigit)
  | rest => isExponent rest

/-- Whether `ds` are the digits of an integer: at least one, and no needless zero in front. -/
def isInteger (ds : List Char) : Bool :=
  match ds with
  | [] => false
  | ['0'] => true
  | d :: rest => d ≠ '0' && (d :: rest).all Char.isDigit

/-- The digits of a number without its sign. -/
def unsigned : List Char → List Char
  | '-' :: ds => ds
  | ds => ds

/-- The value of a number. `-0` is no integer, since an integer zero has no sign. -/
def atomOfNumber (lexeme : List Char) : Option Json :=
  let ds := unsigned lexeme
  if isInteger ds then
    let n := Nat.ofDigitChars 10 ds 0
    -- without a sign the digits are the whole number
    if ds.length = lexeme.length then some (.int n)
    else if n = 0 then some (.decimal (String.ofList lexeme))
    else some (.int (-n))
  else if isInteger (ds.takeWhile Char.isDigit) && isFraction (ds.dropWhile Char.isDigit) then
    some (.decimal (String.ofList lexeme))
  else none

/-- The value of a hexadecimal digit. -/
def hexDigit? (c : Char) : Option Nat :=
  if c.isDigit then some (c.toNat - '0'.toNat)
  else if 'a' ≤ c ∧ c ≤ 'f' then some (c.toNat - 'a'.toNat + 10)
  else if 'A' ≤ c ∧ c ≤ 'F' then some (c.toNat - 'A'.toNat + 10)
  else none

/-- Whether a 16-bit unit is the first half of a pair. -/
def isHighUnit (n : Nat) : Bool := 0xd800 ≤ n && n < 0xdc00

/-- Whether a 16-bit unit is the second half of a pair. -/
def isLowUnit (n : Nat) : Bool := 0xdc00 ≤ n && n < 0xe000

/-- The mode after the four digits of a `\u` escape, which make up `unit`. -/
def afterUnit (chars : List Char) (high : Option Nat) (unit : Nat) : Option ScanMode :=
  match high with
  | some first =>
    if isLowUnit unit then
      some (.text (Char.ofNat (0x10000 + (first - 0xd800) * 0x400 + (unit - 0xdc00)) :: chars))
    else none
  | none =>
    if isHighUnit unit then some (.half chars unit)
    else if isLowUnit unit then none
    else some (.text (Char.ofNat unit :: chars))

/-- The mode after the character that follows a backslash. -/
def afterBackslash (chars : List Char) : Char → Option ScanMode
  | '"' => some (.text ('"' :: chars))
  | '\\' => some (.text ('\\' :: chars))
  | '/' => some (.text ('/' :: chars))
  | 'b' => some (.text ('\x08' :: chars))
  | 'f' => some (.text ('\x0c' :: chars))
  | 'n' => some (.text ('\n' :: chars))
  | 'r' => some (.text ('\r' :: chars))
  | 't' => some (.text ('\t' :: chars))
  | 'u' => some (.hex chars none 0 0)
  | _ => none

namespace Scanner

/-- A scanner before a text. -/
def start : Scanner := { tokens := [], mode := .between }

/-- Complete a token. -/
def push (s : Scanner) (t : Token) : Scanner := { tokens := t :: s.tokens, mode := .between }

/-- Go on in the middle of a token. -/
def enter (s : Scanner) (mode : ScanMode) : Scanner := { s with mode }

/-- Read one character between two tokens. -/
def stepBetween (s : Scanner) (c : Char) : Option Scanner :=
  if isBlank c then some (s.enter .between)
  else
    match c with
    | '[' => some (s.push .openArray)
    | ']' => some (s.push .closeArray)
    | '\x7b' => some (s.push .openObject)
    | '\x7d' => some (s.push .closeObject)
    | ',' => some (s.push .comma)
    | ':' => some (s.push .colon)
    | '"' => some (s.enter (.text []))
    | c =>
      if c.isDigit || c = '-' then some (s.enter (.number [c]))
      else if c.isAlpha then some (s.enter (.word [c]))
      else none

/-- Complete a word or a number that a separator ends; within a string this is an error. -/
def settle (s : Scanner) : Option Scanner :=
  match s.mode with
  | .between => some s
  | .word letters => (atomOfWord letters.reverse).map fun v => s.push (.atom v)
  | .number lexeme => (atomOfNumber lexeme.reverse).map fun v => s.push (.atom v)
  | _ => none

/-- Read one character. -/
def step (s : Scanner) (c : Char) : Option Scanner :=
  match s.mode with
  | .between => s.stepBetween c
  | .word letters =>
    if c.isAlpha then some (s.enter (.word (c :: letters)))
    else s.settle.bind (·.stepBetween c)
  | .number lexeme =>
    if isNumberChar c then some (s.enter (.number (c :: lexeme)))
    else s.settle.bind (·.stepBetween c)
  | .text chars =>
    if c = '"' then some (s.push (.atom (.str (String.ofList chars.reverse))))
    else if c = '\\' then some (s.enter (.escape chars))
    else if c.toNat < 0x20 then none
    else some (s.enter (.text (c :: chars)))
  | .escape chars => (afterBackslash chars c).map s.enter
  | .hex chars high digits value =>
    (hexDigit? c).bind fun d =>
      if digits < 3 then some (s.enter (.hex chars high (digits + 1) (value * 16 + d)))
      else (afterUnit chars high (value * 16 + d)).map s.enter
  | .half chars high => if c = '\\' then some (s.enter (.halfEscape chars high)) else none
  | .halfEscape chars high =>
    if c = 'u' then some (s.enter (.hex chars (some high) 0 0)) else none

end Scanner

/-- The scanner after the characters `cs`. -/
def scanFrom (s : Scanner) (cs : List Char) : Option Scanner := cs.foldlM Scanner.step s

/-- The tokens of a text, in order. -/
def scan (text : String) : Option (List Token) :=
  ((scanFrom .start text.toList).bind Scanner.settle).map (·.tokens.reverse)

theorem scanFrom_append (s : Scanner) (first second : List Char) :
    scanFrom s (first ++ second) = (scanFrom s first).bind (scanFrom · second) :=
  List.foldlM_append

end ParseMarkup.Json
