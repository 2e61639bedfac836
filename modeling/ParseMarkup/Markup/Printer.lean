import ParseMarkup.Display

/-!
# Printing markup into a text

A printer holds the text written so far and the log of the values displayed into it. Each
operation appends; none reads or changes what is already there. Nothing is escaped: values
appear as they are displayed.
-/

namespace ParseMarkup

/-- A text under construction. -/
structure Printer where
  /-- What has been written so far. -/
  text : String := ""
  /-- What displaying the values has logged so far. -/
  log : Array LogEntry := #[]
  deriving DecidableEq, Repr

namespace Printer

/-- A printer that has written nothing. -/
def empty : Printer := {}

/-- Append a text. -/
def word (p : Printer) (s : String) : Printer :=
  { p with text := p.text ++ s }

/-- Append one character. -/
def char (p : Printer) (c : Char) : Printer :=
  { p with text := p.text.push c }

/-- Append a blank. -/
def space (p : Printer) : Printer := p.char ' '

/-- Append a displayed value. If it broke off, the text it wrote stays and a warning is
logged. -/
def displayed (p : Printer) (d : Displayed) : Printer :=
  { text := p.text ++ d.text, log := p.log ++ d.entries }

/-- Append a value as it is displayed. -/
def value {α : Type} [Display α] (p : Printer) (a : α) : Printer := p.displayed (display a)

/-- Begin a start tag: `<name`. -/
def startTag (p : Printer) (name : String) : Printer :=
  (p.char '<').word name

/-- Add an attribute to the start tag: ` name="value"`. -/
def attr {α : Type} [Display α] (p : Printer) (name : String) (a : α) : Printer :=
  ((((p.space).word name).word "=\"").value a).char '"'

/-- End a start tag whose element has content: `>`. -/
def endStartTag (p : Printer) : Printer := p.char '>'

/-- End a start tag as that of an empty element: `/>`. -/
def selfClose (p : Printer) : Printer := p.word "/>"

/-- Write an end tag: `</name>`. -/
def endTag (p : Printer) (name : String) : Printer :=
  ((p.word "</").word name).char '>'

@[simp] theorem text_word (p : Printer) (s : String) : (p.word s).text = p.text ++ s := rfl

@[simp] theorem log_word (p : Printer) (s : String) : (p.word s).log = p.log := rfl

@[simp] theorem text_char (p : Printer) (c : Char) : (p.char c).text = p.text.push c := rfl

@[simp] theorem log_char (p : Printer) (c : Char) : (p.char c).log = p.log := rfl

@[simp] theorem text_displayed (p : Printer) (d : Displayed) :
    (p.displayed d).text = p.text ++ d.text := rfl

/-- Printing a displayed value logs what displaying it logged. -/
@[simp] theorem toList_log_displayed (p : Printer) (d : Displayed) :
    (p.displayed d).log.toList = p.log.toList ++ d.entries := by
  simp [displayed]

/-- The text that `now` has and a printer of `size` characters, from which it was continued,
had not. -/
def textSince (now : Printer) (size : Nat) : String :=
  String.ofList (now.text.toList.drop size)

/-- The entries that `now` has and a printer of `size` entries, from which it was continued, had
not. -/
def logSince (now : Printer) (size : Nat) : List LogEntry :=
  now.log.toList.drop size

end Printer

end ParseMarkup
