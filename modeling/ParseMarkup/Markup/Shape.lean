import ParseMarkup.Markup.Render

/-!
# Shapes: what can be rendered besides a tree

A shape is anything that holds trees to be rendered in order: a tree, a node of one kind on its
own, a value that may be absent, a box, a list of shapes. Rendering adds nothing around or between
the trees.
-/

namespace ParseMarkup

/-- Trees to be rendered, in the containers they are held in. -/
inductive Shape (L V : Type) where
  /-- Nothing is there. -/
  | absent
  /-- A shape is there. -/
  | present (s : Shape L V)
  /-- A shape in a box of its own. -/
  | boxed (s : Shape L V)
  /-- Several shapes in order. -/
  | forest (ss : List (Shape L V))
  /-- A token that is not wrapped as a node. -/
  | terminal (t : Terminal L V)
  /-- An error leaf that is not wrapped as a node. -/
  | error (e : ErrorNode L)
  /-- A production that is not wrapped as a node. -/
  | production (n : Production (Node L V))
  /-- A tree. -/
  | tree (t : Node L V)

namespace Shape

variable {L V : Type}

mutual

/-- The trees that a shape holds, in order. -/
def trees : Shape L V → List (Node L V)
  | absent => []
  | present s => trees s
  | boxed s => trees s
  | forest ss => treesAll ss
  | terminal t => [.terminal t]
  | error e => [.error e]
  | production n => [.nonterminal n]
  | tree t => [t]

/-- The trees of several shapes, shape after shape. -/
def treesAll : List (Shape L V) → List (Node L V)
  | [] => []
  | s :: ss => trees s ++ treesAll ss

end

variable [Display L] [Display V]

mutual

/-- Append a shape to a printer. -/
def print : Shape L V → Printer → Printer
  | absent, p => p
  | present s, p => print s p
  | boxed s, p => print s p
  | forest ss, p => printAll ss p
  | terminal t, p => t.print p
  | error e, p => e.print p
  | production n, p => n.print p
  | tree t, p => t.print p

/-- Append several shapes, one after the other. -/
def printAll : List (Shape L V) → Printer → Printer
  | [], p => p
  | s :: ss, p => printAll ss (print s p)

end

/-- The text of a shape. -/
def render (s : Shape L V) : String := (s.print .empty).text

end Shape

end ParseMarkup
