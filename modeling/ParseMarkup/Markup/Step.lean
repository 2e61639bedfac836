import ParseMarkup.Markup.Shape

/-!
# Steps of a printer

The operations of a printer as data, so that a whole sequence of them can be run and each step's
own output told apart.
-/

namespace ParseMarkup

/-- One operation of a printer. `α` is the type of the values it displays. -/
inductive PrintStep (α L V : Type) where
  | word (s : String)
  | char (c : Char)
  | space
  | value (a : α)
  | startTag (name : String)
  | attr (name : String) (a : α)
  | endStartTag
  | selfClose
  | endTag (name : String)
  | print (s : Shape L V)

/-- What one step appended to a printer. -/
structure Printed where
  /-- The text it appended. -/
  text : String
  /-- What it logged. -/
  log : List LogEntry
  deriving DecidableEq, Repr

namespace PrintStep

variable {α L V : Type} [Display α] [Display L] [Display V]

/-- Do one step. -/
def run : PrintStep α L V → Printer → Printer
  | word s, p => p.word s
  | char c, p => p.char c
  | space, p => p.space
  | value a, p => p.value a
  | startTag name, p => p.startTag name
  | attr name a, p => p.attr name a
  | endStartTag, p => p.endStartTag
  | selfClose, p => p.selfClose
  | endTag name, p => p.endTag name
  | print s, p => s.print p

/-- Do the steps in order; say for each what it appended. -/
def runAll : List (PrintStep α L V) → Printer → List Printed × Printer
  | [], p => ([], p)
  | step :: rest, p =>
    let textSize := p.text.length
    let logSize := p.log.size
    let p := step.run p
    let printed := { text := p.textSince textSize, log := p.logSince logSize }
    let (others, p) := runAll rest p
    (printed :: others, p)

end PrintStep

end ParseMarkup
