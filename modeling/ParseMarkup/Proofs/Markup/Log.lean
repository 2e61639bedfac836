import Mathlib.Algebra.GroupWithZero.Nat
import ParseMarkup.Proofs.Tree.Leaves
import ParseMarkup.Value

/-!
# The log of a rendering

Rendering a tree notes nothing by itself: all that it logs comes from the values that it formats. A
value adds what formatting it logs, and a failure at the end if it breaks off. A tree that stands as
a value adds the log of its own rendering, which never breaks off.

The module introduces:

* `Node.formatted`: what displaying the values of a node produces, in the order in which they are
  written, and `Node.printed`, those of them that are rendered;
* `Displayed.LogsFailures`: that displaying a value logs nothing but values that broke off, and
  `Displayed.failures`, how many broke off.

The main statements: what a rendering logs (`Node.log_rendered`), and how many failures these are
(`Node.log_rendered_eq_replicate`).
-/

namespace ParseMarkup

/-! ## Failures -/

namespace Displayed

/-- That displaying a value logs nothing but values in it that broke off. -/
def LogsFailures (d : Displayed) : Prop := ∀ entry ∈ d.log, entry = .displayFailed

/-- How many values broke off while a value was displayed: those in it, and the value itself. -/
def failures (d : Displayed) : Nat := d.log.length + if d.complete then 0 else 1

/-- Displaying a value logs an entry for each failure. -/
theorem length_entries (d : Displayed) : d.entries.length = d.failures := by
  unfold entries failures
  split <;> simp

/-- Every entry of a value that logs failures only is the record of a failure. -/
theorem LogsFailures.eq_of_mem_entries {d : Displayed} (h : d.LogsFailures) {entry : LogEntry}
    (hmem : entry ∈ d.entries) : entry = .displayFailed := by
  unfold entries at hmem
  split at hmem
  · exact h entry hmem
  · rcases List.mem_append.1 hmem with hmem | hmem
    · exact h entry hmem
    · exact List.mem_singleton.1 hmem

/-- Values that log nothing but failures add one failure to a log for each that broke off. -/
theorem flatMap_entries_eq_replicate {ds : List Displayed} (h : ∀ d ∈ ds, d.LogsFailures) :
    ds.flatMap entries = List.replicate (ds.map failures).sum .displayFailed := by
  rw [List.eq_replicate_iff]
  constructor
  · rw [List.length_flatMap]
    exact congrArg (fun f => (ds.map f).sum) (funext length_entries)
  · intro entry hmem
    obtain ⟨d, hmem, hadded⟩ := List.mem_flatMap.1 hmem
    exact (h d hmem).eq_of_mem_entries hadded

end Displayed

namespace Node

variable {L V : Type} [Display L] [Display V]

/-! ## The values of a node -/

/-- What displaying the locations and the value of a node produces. The locations of a production
are the endpoints that it reports. -/
def formatted : Node L V → List Displayed
  | terminal t => display t.left :: display t.right :: (t.value.map display).toList
  | error e => [display e.left, display e.right]
  | nonterminal n => (n.left?.map display).toList ++ (n.right?.map display).toList

/-- What displaying the locations and the value of a node produces when it is rendered. A token
without a value shows no location. -/
def printed : Node L V → List Displayed
  | terminal ⟨_, _, none, _⟩ => []
  | t => t.formatted

/-- What is printed of a node is also streamed for it. -/
theorem mem_formatted_of_mem_printed {t : Node L V} {d : Displayed} (h : d ∈ t.printed) :
    d ∈ t.formatted := by
  unfold printed at h
  split at h
  · cases h
  · exact h

/-- What is streamed for a node is a displayed location or a displayed value. -/
theorem exists_of_mem_formatted (t : Node L V) {d : Displayed} (h : d ∈ t.formatted) :
    (∃ l : L, display l = d) ∨ ∃ v : V, display v = d := by
  cases t with
  | terminal t =>
    rw [formatted, List.mem_cons, List.mem_cons, Option.mem_toList] at h
    rcases h with rfl | rfl | hvalue
    · exact .inl ⟨t.left, rfl⟩
    · exact .inl ⟨t.right, rfl⟩
    · obtain ⟨v, -, heq⟩ := Option.map_eq_some_iff.1 hvalue
      exact .inr ⟨v, heq⟩
  | error e =>
    rw [formatted, List.mem_cons, List.mem_singleton] at h
    rcases h with rfl | rfl
    · exact .inl ⟨e.left, rfl⟩
    · exact .inl ⟨e.right, rfl⟩
  | nonterminal n =>
    rw [formatted, List.mem_append, Option.mem_toList, Option.mem_toList] at h
    rcases h with hendpoint | hendpoint
    all_goals
      obtain ⟨l, -, heq⟩ := Option.map_eq_some_iff.1 hendpoint
      exact .inl ⟨l, heq⟩

/-- A production displays nothing that its leaves do not. -/
theorem mem_displaysAll_of_mem_formatted {n : Production (Node L V)} {d : Displayed}
    (h : d ∈ (nonterminal n).formatted) : d ∈ displaysAll n.children := by
  rw [formatted, List.mem_append, Option.mem_toList, Option.mem_toList] at h
  rcases h with hleft | hright
  · obtain ⟨l, hfound, rfl⟩ := Option.map_eq_some_iff.1 hleft
    exact display_mem_of_leftmost hfound
  · obtain ⟨l, hfound, rfl⟩ := Option.map_eq_some_iff.1 hright
    exact display_mem_of_rightmost hfound

mutual

/-- Nor does any node of a tree. -/
theorem mem_displays_of_mem_formatted {depth : Nat} {d : Displayed} {p : Nat × Node L V} :
    ∀ t : Node L V, p ∈ t.preorder depth → d ∈ p.2.formatted → d ∈ t.displays
  | terminal t, hmem, hshown => by
    rw [List.mem_singleton.1 hmem] at hshown
    exact hshown
  | error e, hmem, hshown => by
    rw [List.mem_singleton.1 hmem] at hshown
    exact hshown
  | nonterminal ⟨tag, variant, cs⟩, hmem, hshown => by
    rcases List.mem_cons.1 hmem with rfl | hbelow
    · exact mem_displaysAll_of_mem_formatted hshown
    · exact mem_displaysAll_of_mem_preorderAll cs hbelow hshown

/-- The same for several trees. -/
theorem mem_displaysAll_of_mem_preorderAll {depth : Nat} {d : Displayed} {p : Nat × Node L V} :
    ∀ cs : List (Node L V), p ∈ preorderAll depth cs → d ∈ p.2.formatted → d ∈ displaysAll cs
  | c :: cs, hmem, hshown => by
    rcases List.mem_append.1 hmem with hfirst | hlater
    · exact List.mem_append_left _ (mem_displays_of_mem_formatted c hfirst hshown)
    · exact List.mem_append_right _ (mem_displaysAll_of_mem_preorderAll cs hlater hshown)

end

/-! ## What a rendering logs -/

omit [Display V] in

theorem toList_log_attr (p : Printer) (name : String) (a : L) :
    (p.attr name a).log.toList = p.log.toList ++ (display a).entries := by
  simp [Printer.attr, Printer.value, Printer.space]

omit [Display V] in

theorem toList_log_attr? (p : Printer) (name : String) (a : Option L) :
    (p.attr? name a).log.toList =
      p.log.toList ++ (a.map display).toList.flatMap Displayed.entries := by
  cases a with
  | none => simp [Printer.attr?]
  | some a => simp [Printer.attr?, toList_log_attr]

/-- A token logs what displaying its value and its endpoints logs, and nothing if it has no
value. -/
theorem toList_log_terminal (t : Terminal L V) (p : Printer) :
    (t.print p).log.toList =
      p.log.toList ++ (terminal t).printed.flatMap Displayed.entries := by
  obtain ⟨left, tag, value, right⟩ := t
  -- the tag is a text, which adds nothing to a log
  have htagged : (display tag).entries = [] := rfl
  cases value <;>
    simp [Terminal.print, Printer.startTag, Printer.selfClose, Printer.endStartTag, Printer.endTag,
      Printer.value, toList_log_attr, htagged, printed, formatted]

mutual

/-- Printing a tree adds to the log what its values add, node by node in pre-order. -/
theorem toList_log_print (depth : Nat) : ∀ (t : Node L V) (p : Printer),
    (t.print p).log.toList = p.log.toList ++
      ((t.preorder depth).flatMap fun q => q.2.printed).flatMap Displayed.entries
  | terminal t, p => by
    rw [print, toList_log_terminal, preorder, List.flatMap_singleton]
  | error e, p => by
    simp [print, ErrorNode.print, Printer.startTag, Printer.selfClose, toList_log_attr, preorder,
      printed, formatted]
  | nonterminal ⟨tag, variant, []⟩, p => by
    have htagged : (display tag).entries = [] := rfl
    have hvaried : (display variant).entries = [] := rfl
    have hnone : (nonterminal ⟨tag, variant, []⟩ : Node L V).printed = [] := rfl
    simp [print, Printer.startTag, Printer.selfClose, Printer.space, toList_log_attr, htagged,
      hvaried, hnone, preorder, preorderAll]
  | nonterminal ⟨tag, variant, c :: cs⟩, p => by
    have htagged : (display tag).entries = [] := rfl
    have hvaried : (display variant).entries = [] := rfl
    rw [print, preorder, List.flatMap_cons, List.flatMap_append]
    simp only [Printer.endTag, Printer.log_char, Printer.log_word,
      toList_log_printAll (depth + 1) (c :: cs)]
    simp [Printer.startTag, Printer.endStartTag, toList_log_attr, toList_log_attr?, htagged,
      hvaried, printed, formatted, Production.left?, Production.right?]

/-- The same for several trees, whose nodes all begin at one depth. -/
theorem toList_log_printAll (depth : Nat) : ∀ (cs : List (Node L V)) (p : Printer),
    (printAll cs p).log.toList = p.log.toList ++
      ((preorderAll depth cs).flatMap fun q => q.2.printed).flatMap Displayed.entries
  | [], p => by simp [printAll, preorderAll]
  | c :: cs, p => by
    rw [printAll, toList_log_printAll depth cs, toList_log_print depth c, preorderAll,
      List.flatMap_append, List.flatMap_append, List.append_assoc]

end

/-- Rendering a tree logs what its values add to the log, node by node in pre-order. -/
theorem log_rendered (t : Node L V) :
    t.rendered.log = ((t.preorder 1).flatMap fun q => q.2.printed).flatMap Displayed.entries := by
  have hprinted := t.toList_log_print 1 .empty
  rwa [Printer.empty, List.nil_append] at hprinted

/-- If the values log nothing but failures, so does the rendering, one for each value that breaks
off. -/
theorem log_rendered_eq_replicate {t : Node L V}
    (h : ∀ p ∈ t.preorder 1, ∀ d ∈ p.2.printed, d.LogsFailures) :
    t.rendered.log = List.replicate
      (((t.preorder 1).flatMap fun p => p.2.printed).map Displayed.failures).sum
      .displayFailed := by
  rw [log_rendered]
  refine Displayed.flatMap_entries_eq_replicate fun d hmem => ?_
  obtain ⟨p, hnode, hshown⟩ := List.mem_flatMap.1 hmem
  exact h p hnode d hshown

/-- A tree that stands as a value adds the log of its rendering, and no failure of its own. -/
theorem entries_display (t : Node L V) : (display t).entries = t.rendered.log := rfl

end Node

/-! ## Values of any form -/

mutual

/-- A value of any form logs nothing but values in it that broke off. -/
theorem Value.logsFailures : ∀ v : Value, v.displayed.LogsFailures
  | .text _ => fun entry hmem => absurd hmem List.not_mem_nil
  | .int _ => fun entry hmem => absurd hmem List.not_mem_nil
  | .bool _ => fun entry hmem => absurd hmem List.not_mem_nil
  | .location _ => fun entry hmem => absurd hmem List.not_mem_nil
  | .broken _ => fun entry hmem => absurd hmem List.not_mem_nil
  | .node t => by
    have hleaves := Value.logsFailures_displays t
    intro entry hmem
    rw [Value.displayed, Node.log_rendered_eq_replicate] at hmem
    · exact List.eq_of_mem_replicate hmem
    · intro p hnode d hshown
      exact hleaves d (Node.mem_displays_of_mem_formatted _ hnode
        (Node.mem_formatted_of_mem_printed hshown))

/-- The same for the values in a tree of values that is itself a value. -/
theorem Value.logsFailures_displays :
    ∀ t : Node Value Value, ∀ d ∈ (displayedValues t).displays, d.LogsFailures
  | .terminal ⟨left, tag, none, right⟩ => by
    have hatLeft := Value.logsFailures left
    have hatRight := Value.logsFailures right
    change ∀ d ∈ [left.displayed, right.displayed], d.LogsFailures
    simp [hatLeft, hatRight]
  | .terminal ⟨left, tag, some v, right⟩ => by
    have hatLeft := Value.logsFailures left
    have hatRight := Value.logsFailures right
    have hcontent := Value.logsFailures v
    change ∀ d ∈ [left.displayed, right.displayed, v.displayed], d.LogsFailures
    simp [hatLeft, hatRight, hcontent]
  | .error ⟨left, right⟩ => by
    have hatLeft := Value.logsFailures left
    have hatRight := Value.logsFailures right
    change ∀ d ∈ [left.displayed, right.displayed], d.LogsFailures
    simp [hatLeft, hatRight]
  | .nonterminal ⟨tag, variant, cs⟩ => Value.logsFailures_displaysAll cs

/-- The same for several trees of values. -/
theorem Value.logsFailures_displaysAll :
    ∀ cs : List (Node Value Value), ∀ d ∈ Node.displaysAll (displayedValuesAll cs), d.LogsFailures
  | [] => fun d hmem => absurd hmem List.not_mem_nil
  | c :: cs => by
    have hfirst := Value.logsFailures_displays c
    have hothers := Value.logsFailures_displaysAll cs
    rw [displayedValuesAll, Node.displaysAll, List.forall_mem_append]
    exact ⟨hfirst, hothers⟩

end

/-- So does everything that a node of such values formats. -/
theorem Node.logsFailures_of_mem_formatted {t : Node Value Value} {d : Displayed}
    (h : d ∈ t.formatted) : d.LogsFailures := by
  rcases t.exists_of_mem_formatted h with ⟨v, rfl⟩ | ⟨v, rfl⟩
  · exact v.logsFailures
  · exact v.logsFailures

end ParseMarkup
