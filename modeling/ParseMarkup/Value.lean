import ParseMarkup.Markup.Render
import ParseMarkup.Location

/-!
# Values of any form

One type for locations and payloads whose form is only known when a tree is read: a text, a
number, a truth value, a source location, a value that breaks off while it is displayed, or a
tree, which is displayed as its own rendering.

The module introduces:

* `Value`, and its display `Value.displayed`;
* `Node.displayedValues`: a tree with each value replaced by what displaying it produced;
* the equality test of values, which tells forms apart.

The main statement is `Value.displayed_node`: a tree that stands as a value shows its rendering.
-/

namespace ParseMarkup

/-- A location or payload of any form. -/
inductive Value where
  /-- A text, displayed verbatim. -/
  | text (s : String)
  /-- An integer, displayed in decimal. -/
  | int (i : Int)
  /-- A truth value, displayed as its word. -/
  | bool (b : Bool)
  /-- A source location, displayed as its text. -/
  | location (loc : SourceLocation)
  /-- A value that displays these pieces and then breaks off. -/
  | broken (pieces : List String)
  /-- A tree, displayed as it is rendered. -/
  | node (t : Node Value Value)

mutual

/-- What displaying a value produces. -/
def Value.displayed : Value → Displayed
  | .text s => display s
  | .int i => display i
  | .bool b => display b
  | .location loc => display loc
  | .broken pieces => .brokenOff (String.join pieces)
  | .node t => (displayedValues t).rendered

/-- A tree with each value replaced by what displaying it produces. -/
def displayedValues : Node Value Value → Node Displayed Displayed
  | .terminal ⟨left, tag, none, right⟩ =>
    .terminal ⟨left.displayed, tag, none, right.displayed⟩
  | .terminal ⟨left, tag, some v, right⟩ =>
    .terminal ⟨left.displayed, tag, some v.displayed, right.displayed⟩
  | .error ⟨left, right⟩ => .error ⟨left.displayed, right.displayed⟩
  | .nonterminal ⟨tag, variant, cs⟩ => .nonterminal ⟨tag, variant, displayedValuesAll cs⟩

/-- `displayedValues` over several trees. -/
def displayedValuesAll : List (Node Value Value) → List (Node Displayed Displayed)
  | [] => []
  | c :: cs => displayedValues c :: displayedValuesAll cs

end

instance : Display Value := ⟨Value.displayed⟩

mutual

/-- Whether two values have the same form and the same content. -/
def Value.beq : Value → Value → Bool
  | .text a, .text b => a == b
  | .int a, .int b => a == b
  | .bool a, .bool b => a == b
  | .location a, .location b => a == b
  | .broken a, .broken b => a == b
  | .node a, .node b => sameValues a b
  | _, _ => false

/-- Whether two trees of values are the same, part by part. -/
def sameValues : Node Value Value → Node Value Value → Bool
  | .terminal ⟨left, tag, none, right⟩, .terminal ⟨left', tag', none, right'⟩ =>
    left.beq left' && tag == tag' && right.beq right'
  | .terminal ⟨left, tag, some v, right⟩, .terminal ⟨left', tag', some v', right'⟩ =>
    left.beq left' && tag == tag' && v.beq v' && right.beq right'
  | .error ⟨left, right⟩, .error ⟨left', right'⟩ => left.beq left' && right.beq right'
  | .nonterminal ⟨tag, variant, cs⟩, .nonterminal ⟨tag', variant', cs'⟩ =>
    tag == tag' && variant == variant' && sameValuesAll cs cs'
  | _, _ => false

/-- Whether two lists of trees of values are the same, tree by tree. -/
def sameValuesAll : List (Node Value Value) → List (Node Value Value) → Bool
  | [], [] => true
  | c :: cs, d :: ds => sameValues c d && sameValuesAll cs ds
  | _, _ => false

end

instance : BEq Value := ⟨Value.beq⟩

mutual

/-- Replacing the values of a tree by their displayed forms is mapping `display` over it. -/
theorem displayedValues_eq_map : ∀ t : Node Value Value, displayedValues t = t.map display display
  | .terminal ⟨_, _, none, _⟩ => rfl
  | .terminal ⟨_, _, some _, _⟩ => rfl
  | .error ⟨_, _⟩ => rfl
  | .nonterminal ⟨tag, variant, cs⟩ => by
    rw [displayedValues, Node.map, displayedValuesAll_eq_mapAll cs]

/-- The same for several trees. -/
theorem displayedValuesAll_eq_mapAll :
    ∀ cs : List (Node Value Value), displayedValuesAll cs = Node.mapAll display display cs
  | [] => rfl
  | c :: cs => by
    rw [displayedValuesAll, Node.mapAll, displayedValues_eq_map c, displayedValuesAll_eq_mapAll cs]

end

/-- A tree that stands as a value shows its rendering, and logs what rendering it logs. -/
theorem Value.displayed_node (t : Node Value Value) : (Value.node t).displayed = t.rendered := by
  rw [Value.displayed, displayedValues_eq_map, Node.rendered_map_display]

end ParseMarkup
