import ParseMarkup.Tree.Span

/-!
# Nodes and their ancestors

The nodes of a tree in pre-order, each with its path: its own number and those of its ancestors.
Nodes are numbered from 0 in pre-order, so a path tells exactly which nodes stand above a node.

The module introduces `Node.size` and `Node.paths`. The main statement is `Node.map_paths`:
forgetting the numbers leaves the nodes in pre-order with their depths.
-/

namespace ParseMarkup

variable {L V : Type}

namespace Node

mutual

/-- The number of nodes of a tree. -/
def size : Node L V → Nat
  | terminal _ => 1
  | error _ => 1
  | nonterminal ⟨_, _, cs⟩ => sizeAll cs + 1

/-- The number of nodes of several trees. -/
def sizeAll : List (Node L V) → Nat
  | [] => 0
  | c :: cs => size c + sizeAll cs

end

mutual

/-- All nodes of a tree in pre-order, each with its path: its own number, then those of its
ancestors, innermost first. The root has the number `number` and stands below the nodes `above`. -/
def paths (above : List Nat) (number : Nat) : Node L V → List (List Nat × Node L V)
  | terminal t => [(number :: above, terminal t)]
  | error e => [(number :: above, error e)]
  | nonterminal ⟨tag, variant, cs⟩ =>
    (number :: above, nonterminal ⟨tag, variant, cs⟩) ::
      pathsAll (number :: above) (number + 1) cs

/-- The nodes of several trees that stand below the same nodes, tree after tree. -/
def pathsAll (above : List Nat) (number : Nat) : List (Node L V) → List (List Nat × Node L V)
  | [] => []
  | c :: cs => paths above number c ++ pathsAll above (number + size c) cs

end

mutual

/-- A path is as long as its node is deep. -/
theorem map_paths (above : List Nat) (number : Nat) :
    ∀ t : Node L V, (t.paths above number).map (fun p => (p.1.length, p.2)) =
      t.preorder (above.length + 1)
  | terminal _ => rfl
  | error _ => rfl
  | nonterminal ⟨tag, variant, cs⟩ => by
    rw [paths, List.map_cons, map_pathsAll _ _ cs, preorder]
    rfl

/-- The same for several trees below one path. -/
theorem map_pathsAll (above : List Nat) (number : Nat) :
    ∀ cs : List (Node L V), (pathsAll above number cs).map (fun p => (p.1.length, p.2)) =
      preorderAll (above.length + 1) cs
  | [] => rfl
  | c :: cs => by
    rw [pathsAll, List.map_append, map_paths _ _ c, map_pathsAll _ _ cs, preorderAll]

end

mutual

/-- The numbers of the nodes are their places in pre-order. -/
theorem map_head?_paths (above : List Nat) (number : Nat) :
    ∀ t : Node L V, (t.paths above number).map (fun p => p.1.head?) =
      (List.range' number t.size).map some
  | terminal _ => rfl
  | error _ => rfl
  | nonterminal ⟨tag, variant, cs⟩ => by
    rw [paths, List.map_cons, map_head?_pathsAll _ _ cs, size, List.range'_succ, List.map_cons]
    rfl

/-- The same for several trees, which are numbered one after the other. -/
theorem map_head?_pathsAll (above : List Nat) (number : Nat) :
    ∀ cs : List (Node L V), (pathsAll above number cs).map (fun p => p.1.head?) =
      (List.range' number (sizeAll cs)).map some
  | [] => rfl
  | c :: cs => by
    rw [pathsAll, List.map_append, map_head?_paths _ _ c, map_head?_pathsAll _ _ cs, sizeAll,
      ← List.map_append, List.range'_append_1]

end

/-- A path has at least the number of its node. -/
theorem length_tail_of_mem_paths {t : Node L V} {p : List Nat × Node L V} (h : p ∈ t.paths [] 0) :
    p.1.tail.length + 1 = p.1.length := by
  have hnumbered : p.1.head? ∈ (List.range' 0 t.size).map some := by
    rw [← t.map_head?_paths []]
    exact List.mem_map.2 ⟨p, h, rfl⟩
  obtain ⟨number, -, heq⟩ := List.mem_map.1 hnumbered
  obtain ⟨above, heq⟩ := List.head?_eq_some_iff.1 heq.symm
  rw [heq]
  rfl

/-- A node of any kind comes right before its children. -/
theorem preorder_eq (t : Node L V) (depth : Nat) :
    t.preorder depth = (depth, t) :: preorderAll (depth + 1) t.children := by
  cases t <;> rfl

/-- The nodes in pre-order are as many as the tree has. -/
theorem length_preorder (t : Node L V) (depth : Nat) :
    (t.preorder (depth + 1)).length = t.size := by
  -- the depth is that below any path of its length
  have hnumbers := congrArg List.length (t.map_head?_paths (List.replicate depth 0) 0)
  have hdepths := congrArg List.length (t.map_paths (List.replicate depth 0) 0)
  rw [List.length_map, List.length_map, List.length_range'] at hnumbers
  rw [List.length_map, List.length_replicate] at hdepths
  exact hdepths.symm.trans hnumbers

mutual

/-- No node is deeper than the tree is high. -/
theorem lt_of_mem_preorder {depth : Nat} {p : Nat × Node L V} :
    ∀ t : Node L V, p ∈ t.preorder depth → p.1 < depth + t.height
  | terminal t, h => by
    rw [List.mem_singleton.1 h]
    exact Nat.lt_succ_self depth
  | error e, h => by
    rw [List.mem_singleton.1 h]
    exact Nat.lt_succ_self depth
  | nonterminal ⟨tag, variant, cs⟩, h => by
    rw [height]
    rcases List.mem_cons.1 h with rfl | hbelow
    · show depth < depth + (heightAll cs + 1)
      omega
    · have hbound := lt_of_mem_preorderAll cs hbelow
      omega

/-- The same for several trees that begin at one depth. -/
theorem lt_of_mem_preorderAll {depth : Nat} {p : Nat × Node L V} :
    ∀ cs : List (Node L V), p ∈ preorderAll depth cs → p.1 < depth + heightAll cs
  | c :: cs, h => by
    rw [heightAll]
    rcases List.mem_append.1 h with hfirst | hlater
    · have hbound := lt_of_mem_preorder c hfirst
      omega
    · have hbound := lt_of_mem_preorderAll cs hlater
      omega

end

end Node

end ParseMarkup
