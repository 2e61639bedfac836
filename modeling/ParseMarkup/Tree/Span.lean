import ParseMarkup.Tree.Basic

/-!
# Spans

A leaf carries its two endpoints. The endpoints of an inner node follow from its children: both
are *left* endpoints, of the first child that has one from the front and of the first child that
has one from the back. An inner node without a leaf below it has neither.

The main statements: the search from the front is a search of the list library
(`leftmost_eq_findSome?`), and both searches go along with a change of locations
(`leftmost_mapAll`, `rightmost_mapAll`).
-/

namespace ParseMarkup

variable {L V : Type}

mutual

/-- Where a node begins, if that is known. -/
def Node.left? : Node L V → Option L
  | .terminal t => some t.left
  | .error e => some e.left
  | .nonterminal ⟨_, _, cs⟩ => leftmost cs

/-- The first left endpoint that is present, from the front. -/
def leftmost : List (Node L V) → Option L
  | [] => none
  | c :: cs =>
    match c.left? with
    | some l => some l
    | none => leftmost cs

end

/-- The first left endpoint that is present, from the back. -/
def rightmost (cs : List (Node L V)) : Option L :=
  cs.reverse.findSome? Node.left?

/-- Where a production begins: where the first child with a known left endpoint does. -/
def Production.left? (n : Production (Node L V)) : Option L := leftmost n.children

/-- The right endpoint that a production reports: where its last child with a known left
endpoint *begins*. -/
def Production.right? (n : Production (Node L V)) : Option L := rightmost n.children

/-- The right endpoint that a node reports. A leaf ends where it ends; an inner node reports a
left endpoint, see `Production.right?`. -/
def Node.right? : Node L V → Option L
  | .terminal t => some t.right
  | .error e => some e.right
  | .nonterminal n => n.right?

/-- Both endpoints, when both are known. -/
def Node.span? (t : Node L V) : Option (L × L) :=
  match t.left?, t.right? with
  | some l, some r => some (l, r)
  | _, _ => none

@[simp] theorem Node.left?_nonterminal (n : Production (Node L V)) :
    (Node.nonterminal n).left? = n.left? := by
  rw [Node.left?.eq_def]; rfl

/-- The search from the front is the one for the first child with a left endpoint. -/
theorem leftmost_eq_findSome? (cs : List (Node L V)) :
    leftmost cs = cs.findSome? Node.left? := by
  induction cs with
  | nil => rfl
  | cons c cs ih =>
    rw [leftmost, List.findSome?_cons, ih]
    cases c.left? <;> rfl

variable {L' V' : Type}

mutual

/-- Changing the locations of a tree changes its left endpoint along with them. -/
theorem Node.left?_map (f : L → L') (g : V → V') :
    ∀ t : Node L V, (t.map f g).left? = t.left?.map f
  | .terminal _ => rfl
  | .error _ => rfl
  | .nonterminal ⟨_, _, cs⟩ => by rw [Node.map, Node.left?, Node.left?, leftmost_mapAll f g cs]

/-- The same for the search from the front. -/
theorem leftmost_mapAll (f : L → L') (g : V → V') :
    ∀ cs : List (Node L V), leftmost (Node.mapAll f g cs) = (leftmost cs).map f
  | [] => rfl
  | c :: cs => by
    rw [Node.mapAll, leftmost, leftmost, Node.left?_map f g c, leftmost_mapAll f g cs]
    cases c.left? <;> rfl

end

/-- The same for the search from the back. -/
theorem rightmost_mapAll (f : L → L') (g : V → V') (cs : List (Node L V)) :
    rightmost (Node.mapAll f g cs) = (rightmost cs).map f := by
  simp only [rightmost, Node.mapAll_eq_map, ← List.map_reverse]
  induction cs.reverse with
  | nil => rfl
  | cons c cs ih =>
    simp only [List.map_cons, List.findSome?_cons, Node.left?_map, ih]
    cases c.left? <;> rfl

end ParseMarkup
