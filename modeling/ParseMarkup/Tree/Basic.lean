import ParseMarkup.Display

/-!
# Parse trees

A tree as a parser builds it: a leaf for each scanned token, a leaf where the parser recovered
from an error, and an inner node for each reduced production. Locations (`L`) are reported at
the ends of leaves; a token may carry a semantic value (`V`).

The module introduces:

* `Terminal`, `ErrorNode`, `Production`: the three kinds of node;
* `Node`: a tree, with its element name, tag, children and height;
* `Node.preorder`: all nodes, each before its children, with the depth it stands at;
* `Node.map`: the same tree with other locations and values.
-/

namespace ParseMarkup

/-- A leaf for a scanned token. It always has a span of its own. -/
structure Terminal (L V : Type) where
  /-- Where the token begins. -/
  left : L
  /-- Name of the grammar symbol. -/
  tag : String
  /-- The semantic value of the token, such as the number of a numeral. -/
  value : Option V
  /-- Where the token ends. -/
  right : L
  deriving DecidableEq, Repr

/-- A leaf where the parser recovered from a syntax error. -/
structure ErrorNode (L : Type) where
  /-- Where the skipped text begins. -/
  left : L
  /-- Where the skipped text ends. -/
  right : L
  deriving DecidableEq, Repr

/-- A reduced production over nodes of type `ν`. Its span is not stored: it follows from its
children. -/
structure Production (ν : Type) where
  /-- Name of the grammar symbol that was reduced to. -/
  tag : String
  /-- Which production of the symbol was reduced. -/
  variant : Int32
  /-- The nodes of the right-hand side, in order. -/
  children : List ν

namespace Production

variable {ν : Type}

/-- A production with an empty right-hand side. -/
def empty (tag : String) (variant : Int32) : Production ν := { tag, variant, children := [] }

/-- Whether the right-hand side is empty. -/
def isEmpty (n : Production ν) : Bool := n.children.isEmpty

end Production

/-- A parse tree, given by its root. -/
inductive Node (L V : Type) where
  | terminal (t : Terminal L V)
  | error (e : ErrorNode L)
  | nonterminal (n : Production (Node L V))

instance {L V : Type} : Coe (Terminal L V) (Node L V) := ⟨.terminal⟩

instance {L V : Type} : Coe (ErrorNode L) (Node L V) := ⟨.error⟩

instance {L V : Type} : Coe (Production (Node L V)) (Node L V) := ⟨.nonterminal⟩

namespace Node

variable {L V L' V' : Type}

/-- The name of the element that a node is printed as. -/
def elementName : Node L V → String
  | terminal _ => "terminal"
  | error _ => "error"
  | nonterminal _ => "nonterminal"

/-- Name of the grammar symbol; an error node has none. -/
def tag? : Node L V → Option String
  | terminal t => some t.tag
  | error _ => none
  | nonterminal n => some n.tag

/-- The children of an inner node; a leaf has none. -/
def children : Node L V → List (Node L V)
  | terminal _ => []
  | error _ => []
  | nonterminal n => n.children

/-- `t` at the bottom of a chain of `n` productions with the same tag and variant, each of which
is the only child of the one above it. -/
def wrap (tag : String) (variant : Int32) : Nat → Node L V → Node L V
  | 0, t => t
  | n + 1, t => wrap tag variant n (nonterminal { tag, variant, children := [t] })

mutual

/-- All nodes of a tree, each before its children, paired with the depth it stands at when the
root stands at `depth`. -/
def preorder (depth : Nat) : Node L V → List (Nat × Node L V)
  | terminal t => [(depth, terminal t)]
  | error e => [(depth, error e)]
  | nonterminal ⟨tag, variant, cs⟩ =>
      (depth, nonterminal ⟨tag, variant, cs⟩) :: preorderAll (depth + 1) cs

/-- The nodes of several trees, tree after tree. -/
def preorderAll (depth : Nat) : List (Node L V) → List (Nat × Node L V)
  | [] => []
  | c :: cs => preorder depth c ++ preorderAll depth cs

end

mutual

/-- The number of nodes on the longest way from the root down. -/
def height : Node L V → Nat
  | terminal _ => 1
  | error _ => 1
  | nonterminal ⟨_, _, cs⟩ => heightAll cs + 1

/-- The height of the highest of several trees, 0 if there is none. -/
def heightAll : List (Node L V) → Nat
  | [] => 0
  | c :: cs => max (height c) (heightAll cs)

end

mutual

/-- The same tree with each location sent through `f` and each value through `g`. -/
def map (f : L → L') (g : V → V') : Node L V → Node L' V'
  | terminal t => terminal ⟨f t.left, t.tag, t.value.map g, f t.right⟩
  | error e => error ⟨f e.left, f e.right⟩
  | nonterminal ⟨tag, variant, cs⟩ => nonterminal ⟨tag, variant, mapAll f g cs⟩

/-- `map` over several trees. -/
def mapAll (f : L → L') (g : V → V') : List (Node L V) → List (Node L' V')
  | [] => []
  | c :: cs => map f g c :: mapAll f g cs

end

@[simp] theorem mapAll_eq_map (f : L → L') (g : V → V') (cs : List (Node L V)) :
    mapAll f g cs = cs.map (map f g) := by
  induction cs with
  | nil => rfl
  | cons c cs ih => simp [mapAll, ih]

mutual

/-- Whether two trees are the same, by comparing their parts with the tests of `L` and `V`. -/
def beq [BEq L] [BEq V] : Node L V → Node L V → Bool
  | terminal a, terminal b =>
      a.left == b.left && a.tag == b.tag && a.value == b.value && a.right == b.right
  | error a, error b => a.left == b.left && a.right == b.right
  | nonterminal ⟨tag, variant, cs⟩, nonterminal ⟨tag', variant', cs'⟩ =>
      tag == tag' && variant == variant' && beqAll cs cs'
  | _, _ => false

/-- Whether two lists of trees are the same, tree by tree. -/
def beqAll [BEq L] [BEq V] : List (Node L V) → List (Node L V) → Bool
  | [], [] => true
  | c :: cs, d :: ds => beq c d && beqAll cs ds
  | _, _ => false

end

instance [BEq L] [BEq V] : BEq (Node L V) := ⟨beq⟩

end Node

end ParseMarkup
