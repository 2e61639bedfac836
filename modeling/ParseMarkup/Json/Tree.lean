import ParseMarkup.Json.Codec
import ParseMarkup.Tree.Basic

/-!
# The stored form of trees

A node is an object with one member, whose name tells the kind of node and whose value holds its
fields: `Terminal`, `Error` or `NonTerminal`. Trees are read by recursion on the JSON value
itself; only the member `children` of a production is descended into.
-/

namespace ParseMarkup

variable {L V : Type} [Codec L] [Codec V]

namespace Terminal

/-- The names of the fields of a token, in order. -/
def fieldNames : List String := ["left", "tag", "value", "right"]

/-- The stored form of a token. -/
def encode (t : Terminal L V) : Json :=
  .obj [("left", Codec.encode t.left), ("tag", Codec.encode t.tag),
    ("value", Codec.encodeOption t.value), ("right", Codec.encode t.right)]

/-- The token that a stored form stands for; only the value may be missing. -/
def decode (j : Json) : Option (Terminal L V) :=
  match j.fields? fieldNames with
  | some [some left, some tag, value, some right] => do
    let left ← Codec.decode left
    let tag ← Codec.decode tag
    let value ← Codec.decodeOption value
    let right ← Codec.decode right
    return { left, tag, value, right }
  | _ => none

instance : Codec (Terminal L V) := ⟨encode, decode⟩

end Terminal

namespace ErrorNode

/-- The names of the fields of an error leaf, in order. -/
def fieldNames : List String := ["left", "right"]

/-- The stored form of an error leaf. -/
def encode (e : ErrorNode L) : Json :=
  .obj [("left", Codec.encode e.left), ("right", Codec.encode e.right)]

/-- The error leaf that a stored form stands for. -/
def decode (j : Json) : Option (ErrorNode L) :=
  match j.fields? fieldNames with
  | some [some left, some right] => do
    let left ← Codec.decode left
    let right ← Codec.decode right
    return { left, right }
  | _ => none

instance : Codec (ErrorNode L) := ⟨encode, decode⟩

end ErrorNode

mutual

/-- The stored form of a node. -/
def Node.encode : Node L V → Json
  | .terminal t => .obj [("Terminal", t.encode)]
  | .error e => .obj [("Error", e.encode)]
  | .nonterminal ⟨tag, variant, cs⟩ =>
    .obj [("NonTerminal", .obj [("tag", Codec.encode tag), ("variant", Codec.encode variant),
      ("children", .arr (Node.encodeAll cs))])]

/-- The stored forms of several nodes. -/
def Node.encodeAll : List (Node L V) → List Json
  | [] => []
  | c :: cs => c.encode :: Node.encodeAll cs

end

/-- The names of the fields of a production, in order. -/
def Production.fieldNames : List String := ["tag", "variant", "children"]

/-- The stored form of a production. -/
def Production.encode (n : Production (Node L V)) : Json :=
  .obj [("tag", Codec.encode n.tag), ("variant", Codec.encode n.variant),
    ("children", .arr (Node.encodeAll n.children))]

mutual

/-- The node that a stored form stands for: exactly one member, named for the kind. -/
def Node.decode : Json → Option (Node L V)
  | .obj [(kind, body)] =>
    if kind = "Terminal" then (Terminal.decode body).map .terminal
    else if kind = "Error" then (ErrorNode.decode body).map .error
    else if kind = "NonTerminal" then (Production.decode body).map .nonterminal
    else none
  | _ => none

/-- The production that a stored form stands for; no field may be missing or stand twice. -/
def Production.decode : Json → Option (Production (Node L V))
  | .obj members =>
    if Json.distinct Production.fieldNames members then do
      let tag ← (Json.member? "tag" members).bind Codec.decode
      let variant ← (Json.member? "variant" members).bind Codec.decode
      let children ← Node.decodeChildren members
      return { tag, variant, children }
    else none
  | .arr [tag, variant, nodes] => do
    let tag ← Codec.decode tag
    let variant ← Codec.decode variant
    let children ← Node.decodeList nodes
    return { tag, variant, children }
  | _ => none

/-- The nodes in the member `children`. -/
def Node.decodeChildren : List (String × Json) → Option (List (Node L V))
  | [] => none
  | (name, value) :: rest =>
    if name = "children" then Node.decodeList value else Node.decodeChildren rest

/-- The nodes of an array. -/
def Node.decodeList : Json → Option (List (Node L V))
  | .arr items => Node.decodeAll items
  | _ => none

/-- The nodes that several stored forms stand for, if each stands for one. -/
def Node.decodeAll : List Json → Option (List (Node L V))
  | [] => some []
  | j :: js => do
    let c ← Node.decode j
    let cs ← Node.decodeAll js
    return c :: cs

end

instance : Codec (Node L V) := ⟨Node.encode, Node.decode⟩

instance : Codec (Production (Node L V)) := ⟨Production.encode, Production.decode⟩

end ParseMarkup
