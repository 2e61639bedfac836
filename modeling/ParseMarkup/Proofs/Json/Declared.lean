import ParseMarkup.Json.Codec
import ParseMarkup.Tree.Basic
import ParseMarkup.Proofs.Json.Fields

/-!
# Codecs that are derived from declarations

The stored types only declare what they are made of: the fields of each structure with their names
and their order, which of them may be absent, and the kinds of node. Their codecs are derived from
these declarations by a library, which is left open here: `Codecs` is a parameter of what follows.
What is asked of it are the rules that it documents, one for each way to declare a type, and each
about one level of a value only.

The module introduces:

* `Member`: a field of a structure, or the kind of a node, as one value has it;
* `Codec.Scalar`, `Codec.Optional`, `Codec.Sequence`, `Codec.Structure` and `Codec.Tagged`: the rule
  for each way to declare a type;
* `Codecs`, and the members that each stored type declares: `SourceLocation.members`,
  `Terminal.members`, `ErrorNode.members`, `Production.members` and `Node.kind`;
* `Codecs.Lawful`: codecs that follow the rules for these declarations.
-/

namespace ParseMarkup

open Json

/-! ## Members -/

/-- A member of the object that a value is written as: a field of a structure, or the kind of a
node, as it is in one value. -/
structure Member extends Field where
  /-- What is written for it. -/
  form : Json

namespace Codec

variable {α : Type}

/-- A member that holds `a`. -/
def member (c : Codec α) (name : String) (a : α) : Member where
  name
  Takes j := c.decode j = some a
  Omissible := False
  form := c.encode a

/-- A member that holds `a?`. It may be missing, which is taken for the absence of a value. -/
def optionalMember (c : Codec (Option α)) (name : String) (a? : Option α) : Member where
  name
  Takes j := c.decode j = some a?
  Omissible := a? = none
  form := c.encode a?

end Codec

/-! ## Rules -/

namespace Codec

variable {α : Type}

/-- Each value of the type is written in one form, and read from no other. -/
structure Scalar (c : Codec α) (form : α → Json) : Prop where
  /-- A value is written in its form. -/
  encode_eq : ∀ a, c.encode a = form a
  /-- It is what its form is read as, and nothing else is read as it. -/
  decode_iff : ∀ {j a}, c.decode j = some a ↔ j = form a

/-- A value that may be absent is `null` if it is. -/
structure Optional (c : Codec (Option α)) (item : Codec α) : Prop where
  /-- Absence is written as `null`. -/
  encode_none : c.encode none = .null
  /-- A value is written as it is. -/
  encode_some : ∀ a, c.encode (some a) = item.encode a
  /-- Absence is what `null` is read as. -/
  decode_null : c.decode .null = some none
  /-- Everything else is read as a value. -/
  decode_of_ne_null : ∀ {j}, j ≠ .null → c.decode j = (item.decode j).map some

/-- A list is written as an array of its items, and read from an array whose items are read. -/
structure Sequence (c : Codec (List α)) (item : Codec α) : Prop where
  /-- The items are written in order. -/
  encode_eq : ∀ as, c.encode as = .arr (as.map item.encode)
  /-- Each item of the list is read from the item in its place. -/
  decode_iff : ∀ {j as}, c.decode j = some as ↔
    ∃ items, j = .arr items ∧ List.Forall₂ (fun a i => item.decode i = some a) as items

/-- A structure with the fields `fields` is written as an object with one member for each field, in
order, and is the value whose fields are all found. -/
structure Structure (c : Codec α) (fields : α → List Member) : Prop where
  /-- All fields are written, also those that are absent. -/
  encode_eq : ∀ a, c.encode a = .obj ((fields a).map fun m => (m.name, m.form))
  /-- A structure is read from the values in which its fields are found. -/
  decode_iff : ∀ {j a}, c.decode j = some a ↔ FoundFrom ((fields a).map Member.toField) j

/-- A type with several kinds of value is written as an object whose only member is named for the
`kind` of the value, and read from such an object. -/
structure Tagged (c : Codec α) (kind : α → Member) : Prop where
  /-- The kind is written as the only member. -/
  encode_eq : ∀ a, c.encode a = .obj [((kind a).name, (kind a).form)]
  /-- It is read from an object with no other member. -/
  decode_iff : ∀ {j a}, c.decode j = some a ↔
    ∃ body, j = .obj [((kind a).name, body)] ∧ (kind a).Takes body

end Codec

/-! ## The declared types -/

/-- The codecs for all that is stored. Those of texts, integers, lists and optional values come with
the library; the others are derived from the declarations of the types, for any codecs of locations
and of semantic values. -/
structure Codecs where
  /-- The codec of texts. -/
  text : Codec String
  /-- The codec of integers of 32 bits without a sign. -/
  word32 : Codec UInt32
  /-- The codec of integers of 64 bits without a sign. -/
  word64 : Codec UInt64
  /-- The codec of integers of 32 bits with a sign. -/
  int32 : Codec Int32
  /-- The codec of integers of 64 bits with a sign. -/
  int64 : Codec Int64
  /-- The codec of values that may be absent. -/
  option {α : Type} : Codec α → Codec (Option α)
  /-- The codec of lists. -/
  list {α : Type} : Codec α → Codec (List α)
  /-- The derived codec of locations. -/
  location : Codec SourceLocation
  /-- The derived codec of tokens. -/
  terminal {L V : Type} : Codec L → Codec V → Codec (Terminal L V)
  /-- The derived codec of error leaves. -/
  error {L : Type} : Codec L → Codec (ErrorNode L)
  /-- The derived codec of productions. -/
  production {L V : Type} : Codec L → Codec V → Codec (Production (Node L V))
  /-- The derived codec of nodes. -/
  node {L V : Type} : Codec L → Codec V → Codec (Node L V)

/-- The fields that a location declares. -/
def SourceLocation.members (c : Codecs) (loc : SourceLocation) : List Member :=
  [(c.option c.text).optionalMember "unit" loc.unit, c.word64.member "line" loc.line,
    c.word64.member "column" loc.column, c.word64.member "offset" loc.offset]

variable {L V : Type}

/-- The fields that a token declares. -/
def Terminal.members (c : Codecs) (l : Codec L) (v : Codec V) (t : Terminal L V) : List Member :=
  [l.member "left" t.left, c.text.member "tag" t.tag,
    (c.option v).optionalMember "value" t.value, l.member "right" t.right]

/-- The fields that an error leaf declares. -/
def ErrorNode.members (l : Codec L) (e : ErrorNode L) : List Member :=
  [l.member "left" e.left, l.member "right" e.right]

/-- The fields that a production declares. -/
def Production.members (c : Codecs) (l : Codec L) (v : Codec V) (n : Production (Node L V)) :
    List Member :=
  [c.text.member "tag" n.tag, c.int32.member "variant" n.variant,
    (c.list (c.node l v)).member "children" n.children]

/-- The kinds of node that are declared, each with what it holds. -/
def Node.kind (c : Codecs) (l : Codec L) (v : Codec V) : Node L V → Member
  | terminal t => (c.terminal l v).member "Terminal" t
  | error e => (c.error l).member "Error" e
  | nonterminal n => (c.production l v).member "NonTerminal" n

/-- Codecs that follow the rules for what the stored types declare. -/
structure Codecs.Lawful (c : Codecs) : Prop where
  /-- A text is written as a string. -/
  text : c.text.Scalar .str
  /-- An integer is written as one, and read if it is in the range of its type. -/
  word32 : c.word32.Scalar fun n => .int n.toNat
  /-- An integer is written as one, and read if it is in the range of its type. -/
  word64 : c.word64.Scalar fun n => .int n.toNat
  /-- An integer is written as one, and read if it is in the range of its type. -/
  int32 : c.int32.Scalar fun n => .int n.toInt
  /-- An integer is written as one, and read if it is in the range of its type. -/
  int64 : c.int64.Scalar fun n => .int n.toInt
  /-- Absence is `null`. -/
  option : ∀ {α : Type} (item : Codec α), (c.option item).Optional item
  /-- A list is an array. -/
  list : ∀ {α : Type} (item : Codec α), (c.list item).Sequence item
  /-- A location is a structure. -/
  location : c.location.Structure (SourceLocation.members c)
  /-- A token is a structure. This is asked for locations that `null` does not stand for: others
  might be absent, and then their fields might be missing too. -/
  terminal : ∀ {L V : Type} {l : Codec L} (v : Codec V), l.decode .null = none →
    (c.terminal l v).Structure (Terminal.members c l v)
  /-- An error leaf is a structure, for such locations. -/
  error : ∀ {L : Type} {l : Codec L}, l.decode .null = none →
    (c.error l).Structure (ErrorNode.members l)
  /-- A production is a structure. -/
  production : ∀ {L V : Type} (l : Codec L) (v : Codec V),
    (c.production l v).Structure (Production.members c l v)
  /-- A node is tagged with its kind. -/
  node : ∀ {L V : Type} (l : Codec L) (v : Codec V), (c.node l v).Tagged (Node.kind c l v)

end ParseMarkup
