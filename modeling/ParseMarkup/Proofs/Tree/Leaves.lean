import ParseMarkup.Tree.Span

/-!
# Spans and leaves

The endpoints that a node reports, said by the leaves below it. A node begins where the first leaf
in it begins. A production ends, as it reports, where the first leaf begins of the last child that
has one, so nothing of its span is the right endpoint of a leaf.

The module introduces:

* `Node.leaves`: the endpoints of the leaves of a tree, from left to right;
* `Node.displays`: what displaying the leaves of a tree produces;
* `Node.mapEnds`: a tree with the left endpoints of its leaves replaced in one way and the right
  ones in another;
* `Node.chain`: a tree below productions each of which has one child;
* `Node.UpToLeafless`: that two trees differ in productions without leaves alone.

Both searches go along the left endpoints of the children (`leftmost_eq_head?`,
`rightmost_eq_getLast?`), and that is how they are followed through changes of a tree. The main
statement is `Node.endpoints_eq_of_leaves`.
-/

namespace ParseMarkup

variable {L V L' : Type}

/-! ## Leaves -/

namespace Node

mutual

/-- The two endpoints of each leaf of a tree, from left to right. -/
def leaves : Node L V → List (L × L)
  | terminal t => [(t.left, t.right)]
  | error e => [(e.left, e.right)]
  | nonterminal ⟨_, _, cs⟩ => leavesAll cs

/-- The endpoints of the leaves of several trees, tree after tree. -/
def leavesAll : List (Node L V) → List (L × L)
  | [] => []
  | c :: cs => leaves c ++ leavesAll cs

end

mutual

/-- A node begins where its first leaf does. -/
theorem left?_eq_head?_leaves : ∀ t : Node L V, t.left? = t.leaves.head?.map Prod.fst
  | terminal _ => rfl
  | error _ => rfl
  | nonterminal ⟨_, _, cs⟩ => by
    rw [left?, leaves]
    exact leftmost_eq_head?_leavesAll cs

/-- The same for several trees. -/
theorem leftmost_eq_head?_leavesAll :
    ∀ cs : List (Node L V), leftmost cs = (leavesAll cs).head?.map Prod.fst
  | [] => rfl
  | c :: cs => by
    rw [leftmost, leavesAll, List.head?_append, Option.map_or, ← left?_eq_head?_leaves c,
      ← leftmost_eq_head?_leavesAll cs]
    cases c.left? <;> rfl

end

/-- A node has no left endpoint exactly if it has no leaf. -/
theorem left?_eq_none_iff (t : Node L V) : t.left? = none ↔ t.leaves = [] := by
  rw [left?_eq_head?_leaves, Option.map_eq_none_iff, List.head?_eq_none_iff]

end Node

/-! ## Searching among the children -/

/-- The search from the front finds the left endpoint of the first child that has one. -/
theorem leftmost_eq_head? (cs : List (Node L V)) :
    leftmost cs = (cs.filterMap Node.left?).head? := by
  rw [leftmost_eq_findSome?, List.head?_filterMap]

/-- The search from the back finds the left endpoint, not the right one, of the last child that has
one. -/
theorem rightmost_eq_getLast? (cs : List (Node L V)) :
    rightmost cs = (cs.filterMap Node.left?).getLast? := by
  rw [rightmost, ← List.head?_filterMap, List.filterMap_reverse, List.head?_reverse]

/-- The search from the front goes on in the second list if there is nothing in the first. -/
theorem leftmost_append (first second : List (Node L V)) :
    leftmost (first ++ second) = (leftmost first).or (leftmost second) := by
  simp only [leftmost_eq_findSome?, List.findSome?_append]

/-- The search from the back begins in the second list. -/
theorem rightmost_append (first second : List (Node L V)) :
    rightmost (first ++ second) = (rightmost second).or (rightmost first) := by
  simp only [rightmost, List.reverse_append, List.findSome?_append]

theorem leftmost_singleton (c : Node L V) : leftmost [c] = c.left? := by
  rw [leftmost]
  cases c.left? <;> rfl

theorem rightmost_singleton (c : Node L V) : rightmost [c] = c.left? := by
  rw [rightmost, List.reverse_singleton, ← leftmost_eq_findSome?, leftmost_singleton]

/-- What the search from the back finds is where the last child with a leaf begins. -/
theorem rightmost_eq_some_iff {cs : List (Node L V)} {l : L} :
    rightmost cs = some l ↔ ∃ before c after, cs = before ++ c :: after ∧ c.left? = some l ∧
      ∀ d ∈ after, d.leaves = [] := by
  rw [rightmost, List.findSome?_eq_some_iff]
  constructor
  · rintro ⟨passed, c, left, hsplit, hfound, hnone⟩
    refine ⟨left.reverse, c, passed.reverse, ?_, hfound, fun d hmem => ?_⟩
    · simpa using congrArg List.reverse hsplit
    · exact d.left?_eq_none_iff.1 (hnone d (List.mem_reverse.1 hmem))
  · rintro ⟨before, c, after, rfl, hfound, hnone⟩
    refine ⟨after.reverse, c, before.reverse, by simp, hfound, fun d hmem => ?_⟩
    exact d.left?_eq_none_iff.2 (hnone d (List.mem_reverse.1 hmem))

/-- An endpoint is found from the front exactly if one is found from the back. -/
theorem isSome_leftmost (cs : List (Node L V)) : (leftmost cs).isSome = (rightmost cs).isSome := by
  rw [leftmost_eq_findSome?, rightmost, Bool.eq_iff_iff, List.findSome?_isSome_iff,
    List.findSome?_isSome_iff]
  simp only [List.mem_reverse]

namespace Node

/-- A node has both endpoints or none. -/
theorem isSome_left? (t : Node L V) : t.left?.isSome = t.right?.isSome := by
  cases t with
  | terminal t => rfl
  | error e => rfl
  | nonterminal n =>
    rw [left?_nonterminal]
    exact isSome_leftmost n.children

/-- A node has a span exactly if it has both endpoints. -/
theorem span?_eq_some_iff (t : Node L V) (l r : L) :
    t.span? = some (l, r) ↔ t.left? = some l ∧ t.right? = some r := by
  unfold span?
  cases t.left? <;> cases t.right? <;> simp

/-- A node has a span exactly if it has a left endpoint. -/
theorem isSome_span? (t : Node L V) : t.span?.isSome = t.left?.isSome := by
  have hboth := t.isSome_left?
  unfold span?
  cases h : t.left? <;> cases h' : t.right? <;> rw [h, h'] at hboth
  · rfl
  · cases hboth
  · cases hboth
  · rfl

/-! ## Displayed leaves -/

section Displays

variable [Display L] [Display V]

mutual

/-- What displaying the locations and the values of the leaves of a tree produces, leaf by leaf. -/
def displays : Node L V → List Displayed
  | terminal t => display t.left :: display t.right :: (t.value.map display).toList
  | error e => [display e.left, display e.right]
  | nonterminal ⟨_, _, cs⟩ => displaysAll cs

/-- The same for several trees, tree after tree. -/
def displaysAll : List (Node L V) → List Displayed
  | [] => []
  | c :: cs => displays c ++ displaysAll cs

end

mutual

/-- Where a node begins is displayed by a leaf. -/
theorem display_mem_of_left? :
    ∀ (t : Node L V) (l : L), t.left? = some l → display l ∈ t.displays
  | terminal t, _, rfl => List.mem_cons_self ..
  | error e, _, rfl => List.mem_cons_self ..
  | nonterminal ⟨tag, variant, cs⟩, l, h => by
    rw [left?, leftmost_eq_findSome?] at h
    obtain ⟨c, hmem, hfound⟩ := List.exists_of_findSome?_eq_some h
    exact display_mem_of_mem cs c hmem l hfound

/-- The left endpoint of each of several trees is displayed in them. -/
theorem display_mem_of_mem : ∀ cs : List (Node L V), ∀ c ∈ cs, ∀ l : L, c.left? = some l →
    display l ∈ displaysAll cs
  | [] => fun c hmem => absurd hmem List.not_mem_nil
  | c :: cs => by
    rw [displaysAll, List.forall_mem_cons]
    refine ⟨fun l hfound => ?_, fun d hmem l hfound => ?_⟩
    · exact List.mem_append_left _ (display_mem_of_left? c l hfound)
    · exact List.mem_append_right _ (display_mem_of_mem cs d hmem l hfound)

end

/-- Both endpoints of a production are displayed below it. -/
theorem display_mem_of_leftmost {cs : List (Node L V)} {l : L} (h : leftmost cs = some l) :
    display l ∈ displaysAll cs := by
  rw [leftmost_eq_findSome?] at h
  obtain ⟨c, hmem, hfound⟩ := List.exists_of_findSome?_eq_some h
  exact display_mem_of_mem cs c hmem l hfound

/-- What the search from the back finds is displayed in the trees. -/
theorem display_mem_of_rightmost {cs : List (Node L V)} {l : L} (h : rightmost cs = some l) :
    display l ∈ displaysAll cs := by
  obtain ⟨c, hmem, hfound⟩ := List.exists_of_findSome?_eq_some h
  exact display_mem_of_mem cs c (List.mem_reverse.1 hmem) l hfound

end Displays

/-! ## Right endpoints of leaves -/

mutual

/-- The same tree with the left endpoint of each leaf sent through `f` and the right one through
`g`. -/
def mapEnds (f g : L → L') : Node L V → Node L' V
  | terminal t => terminal ⟨f t.left, t.tag, t.value, g t.right⟩
  | error e => error ⟨f e.left, g e.right⟩
  | nonterminal ⟨tag, variant, cs⟩ => nonterminal ⟨tag, variant, mapEndsAll f g cs⟩

/-- `mapEnds` over several trees. -/
def mapEndsAll (f g : L → L') : List (Node L V) → List (Node L' V)
  | [] => []
  | c :: cs => mapEnds f g c :: mapEndsAll f g cs

end

theorem mapEndsAll_eq_map (f g : L → L') (cs : List (Node L V)) :
    mapEndsAll f g cs = cs.map (mapEnds f g) := by
  induction cs with
  | nil => rfl
  | cons c cs ih => rw [mapEndsAll, List.map_cons, ih]

mutual

/-- Where a node begins changes along with the left endpoints alone. -/
theorem left?_mapEnds (f g : L → L') : ∀ t : Node L V, (t.mapEnds f g).left? = t.left?.map f
  | terminal _ => rfl
  | error _ => rfl
  | nonterminal ⟨_, _, cs⟩ => by
    rw [mapEnds, left?, left?, leftmost_mapEndsAll f g cs]

/-- The same for the search from the front. -/
theorem leftmost_mapEndsAll (f g : L → L') :
    ∀ cs : List (Node L V), leftmost (mapEndsAll f g cs) = (leftmost cs).map f
  | [] => rfl
  | c :: cs => by
    rw [mapEndsAll, leftmost, leftmost, left?_mapEnds f g c, leftmost_mapEndsAll f g cs]
    cases c.left? <;> rfl

end

/-- The search from the back finds a left endpoint, so it is the function for left endpoints that
counts. -/
theorem rightmost_mapEndsAll (f g : L → L') (cs : List (Node L V)) :
    rightmost (mapEndsAll f g cs) = (rightmost cs).map f := by
  have hlefts : (cs.map (mapEnds f g)).filterMap left? = (cs.filterMap left?).map f := by
    rw [List.filterMap_map, List.map_filterMap]
    exact congrArg (cs.filterMap ·) (funext fun c => c.left?_mapEnds f g)
  rw [rightmost_eq_getLast?, rightmost_eq_getLast?, mapEndsAll_eq_map, hlefts, List.getLast?_map]

/-! ## Chains -/

/-- `t` below a chain of productions, each of which is the only child of the one before it. -/
def chain (links : List (String × Int32)) (t : Node L V) : Node L V :=
  links.foldr (fun link below => nonterminal ⟨link.1, link.2, [below]⟩) t

/-- A node at the end of a chain of only children begins where the chain begins. -/
theorem left?_chain (links : List (String × Int32)) (t : Node L V) :
    (chain links t).left? = t.left? := by
  induction links with
  | nil => rfl
  | cons link links ih =>
    change (nonterminal ⟨link.1, link.2, [chain links t]⟩).left? = _
    rw [left?, leftmost_singleton, ih]

/-! ## Productions without leaves -/

mutual

/-- That the second tree is the first with productions that have no leaf put in or taken out, any
number of them, below any node. -/
inductive UpToLeafless : Node L V → Node L V → Prop
  | terminal (t : Terminal L V) : UpToLeafless (terminal t) (terminal t)
  | error (e : ErrorNode L) : UpToLeafless (error e) (error e)
  | nonterminal {tag : String} {variant : Int32} {cs cs' : List (Node L V)}
      (hchildren : UpToLeaflessAll cs cs') :
      UpToLeafless (nonterminal ⟨tag, variant, cs⟩) (nonterminal ⟨tag, variant, cs'⟩)

/-- The same of the children of a node. -/
inductive UpToLeaflessAll : List (Node L V) → List (Node L V) → Prop
  | nil : UpToLeaflessAll [] []
  /-- A child that is in both. -/
  | keep {c c' : Node L V} {cs cs' : List (Node L V)} (hfirst : UpToLeafless c c')
      (hrest : UpToLeaflessAll cs cs') : UpToLeaflessAll (c :: cs) (c' :: cs')
  /-- A child that is put in. -/
  | insert {c : Node L V} {cs cs' : List (Node L V)} (hleafless : c.leaves = [])
      (hrest : UpToLeaflessAll cs cs') : UpToLeaflessAll cs (c :: cs')
  /-- A child that is taken out. -/
  | remove {c : Node L V} {cs cs' : List (Node L V)} (hleafless : c.leaves = [])
      (hrest : UpToLeaflessAll cs cs') : UpToLeaflessAll (c :: cs) cs'

end

mutual

/-- Productions without leaves do not change where a node begins. -/
theorem UpToLeafless.left?_eq : ∀ {t t' : Node L V}, UpToLeafless t t' → t.left? = t'.left?
  | _, _, .terminal _ => rfl
  | _, _, .error _ => rfl
  | _, _, .nonterminal hchildren => by
    rw [left?, left?, leftmost_eq_head?, leftmost_eq_head?, hchildren.lefts_eq]

/-- Leaving out children without leaves leaves out none of the endpoints that are searched. -/
theorem UpToLeaflessAll.lefts_eq : ∀ {cs cs' : List (Node L V)}, UpToLeaflessAll cs cs' →
    cs.filterMap left? = cs'.filterMap left?
  | _, _, .nil => rfl
  | _, _, .keep hfirst hrest => by
    rw [List.filterMap_cons, List.filterMap_cons, hfirst.left?_eq, hrest.lefts_eq]
  | _, _, .insert hleafless hrest => by
    rw [List.filterMap_cons_none ((left?_eq_none_iff _).2 hleafless), hrest.lefts_eq]
  | _, _, .remove hleafless hrest => by
    rw [List.filterMap_cons_none ((left?_eq_none_iff _).2 hleafless), hrest.lefts_eq]

end

/-- They do not change where a node ends. -/
theorem UpToLeafless.right?_eq {t t' : Node L V} (h : UpToLeafless t t') :
    t.right? = t'.right? := by
  cases h with
  | terminal t => rfl
  | error e => rfl
  | nonterminal hchildren =>
    change rightmost _ = rightmost _
    rw [rightmost_eq_getLast?, rightmost_eq_getLast?, hchildren.lefts_eq]

/-! ## Endpoints -/

/-- The endpoints of nodes, said by leaves. A node begins where its first leaf does, and has a left
endpoint, a right endpoint and a span exactly if it has a leaf. The right endpoint of a production
is where the first leaf begins in the last child that has one. So the span of a production changes
along with the left endpoints of leaves, wherever their right endpoints go; at the top of a chain of
single children both endpoints are the same; productions without leaves may be put in or taken out
below a node at any depth; and of two lists of children, the search from the front goes through the
first list first, that from the back through the second. -/
theorem endpoints_eq_of_leaves :
    (∀ t : Node L V,
      t.left? = t.leaves.head?.map Prod.fst ∧
      (t.left? = none ↔ t.leaves = []) ∧ (t.right? = none ↔ t.leaves = []) ∧
      (t.span? = none ↔ t.leaves = []) ∧
      ∀ l r, t.span? = some (l, r) ↔ t.left? = some l ∧ t.right? = some r) ∧
    (∀ (n : Production (Node L V)) (l : L),
      (nonterminal n).right? = some l ↔ ∃ before c after, n.children = before ++ c :: after ∧
        c.leaves.head?.map Prod.fst = some l ∧ ∀ d ∈ after, d.leaves = []) ∧
    (∀ (L' : Type) (f g : L → L') (n : Production (Node L V)),
      ((nonterminal n).mapEnds f g).span? = (nonterminal n).span?.map (Prod.map f f)) ∧
    (∀ (link : String × Int32) (links : List (String × Int32)) (t : Node L V),
      (chain (link :: links) t).left? = t.left? ∧ (chain (link :: links) t).right? = t.left?) ∧
    (∀ t t' : Node L V, UpToLeafless t t' → t.left? = t'.left? ∧ t.right? = t'.right?) ∧
    (∀ first second : List (Node L V),
      leftmost (first ++ second) = (leftmost first).or (leftmost second) ∧
      rightmost (first ++ second) = (rightmost second).or (rightmost first)) := by
  refine ⟨fun t => ?_, fun n l => ?_, fun L' f g n => ?_, fun link links t => ?_, fun t t' h => ?_,
    fun first second => ⟨leftmost_append first second, rightmost_append first second⟩⟩
  · -- both ends and the span are missing exactly if there is no leaf
    have hleft := t.left?_eq_none_iff
    refine ⟨t.left?_eq_head?_leaves, hleft, ?_, ?_, t.span?_eq_some_iff⟩
    · rw [← hleft, ← Option.not_isSome_iff_eq_none, ← t.isSome_left?, Option.not_isSome_iff_eq_none]
    · rw [← hleft, ← Option.not_isSome_iff_eq_none, t.isSome_span?, Option.not_isSome_iff_eq_none]
  · simp only [← left?_eq_head?_leaves]
    exact rightmost_eq_some_iff
  · -- the two ends of a production are both left endpoints, so `f` alone moves them
    obtain ⟨tag, variant, cs⟩ := n
    have hleft : ((nonterminal ⟨tag, variant, cs⟩).mapEnds f g).left? = (leftmost cs).map f := by
      rw [mapEnds, left?, leftmost_mapEndsAll]
    have hright : ((nonterminal ⟨tag, variant, cs⟩).mapEnds f g).right? = (rightmost cs).map f :=
      rightmost_mapEndsAll f g cs
    have hbegins : (nonterminal ⟨tag, variant, cs⟩ : Node L V).left? = leftmost cs :=
      left?_nonterminal _
    have hends : (nonterminal ⟨tag, variant, cs⟩ : Node L V).right? = rightmost cs := rfl
    rw [span?, span?, hleft, hright, hbegins, hends]
    cases leftmost cs <;> cases rightmost cs <;> rfl
  · refine ⟨left?_chain (link :: links) t, ?_⟩
    -- a production with an only child ends where the child begins
    change rightmost [chain links t] = _
    rw [rightmost_singleton, left?_chain]
  · exact ⟨h.left?_eq, h.right?_eq⟩

/-- A production without leaves is taken out at the front of the root, one is put in at its end, and
another is put in between two leaves one deeper. -/
theorem endpoints_eq_of_leaves_padded :
    let token : Node String String := .terminal ⟨"1", "a", none, "2"⟩
    let skipped : Node String String := .error ⟨"3", "4"⟩
    let empty : Node String String := .nonterminal (.empty "e" 0)
    let t : Node String String :=
      .nonterminal ⟨"r", 0, [empty, .nonterminal ⟨"s", 1, [token, skipped]⟩]⟩
    let t' : Node String String := .nonterminal
      ⟨"r", 0, [.nonterminal ⟨"s", 1, [token, chain [("e", 2)] empty, skipped]⟩, empty]⟩
    UpToLeafless t t' ∧ (t.left? = t'.left? ∧ t.right? = t'.right?) ∧
      t'.span? = some ("1", "1") := by
  intro token skipped empty t t'
  have hsame : UpToLeafless t t' :=
    .nonterminal (.remove rfl (.keep
      (.nonterminal (.keep (.terminal _) (.insert rfl (.keep (.error _) .nil))))
      (.insert rfl .nil)))
  obtain ⟨-, -, -, -, hpadded, -⟩ := endpoints_eq_of_leaves (L := String) (V := String)
  exact ⟨hsame, hpadded t t' hsame, rfl⟩

end Node

end ParseMarkup
