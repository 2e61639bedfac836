import ParseMarkup.Markup.Step
import ParseMarkup.Proofs.Markup.Agreement
import ParseMarkup.Proofs.Markup.Log

/-!
# Printing only appends

All trees, and all that holds trees, print into one printer one after the other. None of them reads
or changes what the printer holds, so each adds the text and the entries that it adds to a new
printer, and what is printed by several is put together from what is printed by each.

The module introduces:

* `Printer.AppendOnly`: that an operation adds to every printer what it adds to a new one;
* `PrintStep.output`: what a step appends to a new printer.

Operations done one after the other only append if each does (`AppendOnly.comp`); trees, shapes and
steps follow from that. The main statement is `Shape.print_eq_trees_and_runAll_eq_outputs`.
-/

namespace ParseMarkup

/-! ## Operations that append -/

namespace Printer

/-- An operation that leaves what a printer holds and appends the same to every printer. -/
structure AppendOnly (f : Printer → Printer) : Prop where
  /-- The text that is added is the one that a new printer gets. -/
  text : ∀ p, (f p).text = p.text ++ (f .empty).text
  /-- The same for the entries that are logged. -/
  log : ∀ p, (f p).log.toList = p.log.toList ++ (f .empty).log.toList

namespace AppendOnly

/-- An operation only appends if there are a text and entries that it adds to every printer. -/
theorem of_adds {f : Printer → Printer} (text : String) (log : List LogEntry)
    (h : ∀ p, (f p).text = p.text ++ text ∧ (f p).log.toList = p.log.toList ++ log) :
    AppendOnly f := by
  -- a new printer holds nothing, so it gets just this text and these entries
  obtain ⟨hnewText, hnewLog⟩ := h .empty
  constructor
  · intro p
    rw [(h p).1, hnewText]
    exact congrArg (p.text ++ ·) String.empty_append.symm
  · intro p
    rw [(h p).2, hnewLog]
    rfl

/-- Two operations, one after the other, append what the first does and then what the second
does. -/
theorem comp {f g : Printer → Printer} (hg : AppendOnly g) (hf : AppendOnly f) :
    AppendOnly (g ∘ f) := by
  apply of_adds ((f .empty).text ++ (g .empty).text)
    ((f .empty).log.toList ++ (g .empty).log.toList)
  intro p
  constructor
  · rw [Function.comp_apply, hg.text, hf.text, String.append_assoc]
  · rw [Function.comp_apply, hg.log, hf.log, List.append_assoc]

end AppendOnly

/-! ## Operations of a printer -/

theorem appendOnly_word (s : String) : AppendOnly fun p => p.word s :=
  .of_adds s [] fun _ => ⟨rfl, (List.append_nil _).symm⟩

theorem appendOnly_char (c : Char) : AppendOnly fun p => p.char c :=
  .of_adds c.toString [] fun _ =>
    ⟨String.push_eq_append .., (List.append_nil _).symm⟩

/-- A value is appended, and what displaying it logs is appended to the log. -/
theorem appendOnly_value {α : Type} [Display α] (a : α) : AppendOnly fun p => p.value a :=
  .of_adds (displayText a) (display a).entries fun p =>
    ⟨rfl, p.toList_log_displayed (display a)⟩

theorem appendOnly_startTag (name : String) : AppendOnly fun p => p.startTag name :=
  (appendOnly_word name).comp (appendOnly_char '<')

/-- An attribute is a word, a value and a word. -/
theorem appendOnly_attr {α : Type} [Display α] (name : String) (a : α) :
    AppendOnly fun p => p.attr name a :=
  .of_adds _ _ fun p => ⟨p.text_attr name a, Node.toList_log_attr p name a⟩

theorem appendOnly_endTag (name : String) : AppendOnly fun p => p.endTag name :=
  (appendOnly_char '>').comp ((appendOnly_word name).comp (appendOnly_word "</"))

/-! ## Telling what was appended -/

/-- The text since some length is what was appended to a text of this length. -/
theorem textSince_of_text_eq {now : Printer} {old new : String} (h : now.text = old ++ new) :
    now.textSince old.length = new := by
  rw [textSince, h, String.toList_append, ← String.length_toList, List.drop_left,
    String.ofList_toList]

/-- The log since some length is what was appended to a log of this length. -/
theorem logSince_of_log_eq {old now : Printer} {new : List LogEntry}
    (h : now.log.toList = old.log.toList ++ new) : now.logSince old.log.size = new := by
  rw [logSince, h, ← Array.length_toList, List.drop_left]

end Printer

section Append

variable {L V α : Type} [Display L] [Display V] [Display α]

/-! ## Trees and shapes -/

/-- A tree appends its rendering, and logs what the rendering logs. -/
theorem Node.print_eq_rendered (t : Node L V) (p : Printer) :
    (t.print p).text = p.text ++ t.render ∧
      (t.print p).log.toList = p.log.toList ++ t.rendered.log := by
  constructor
  · rw [t.text_print, t.render_eq_plain]
  · rw [t.toList_log_print 1, t.log_rendered]

namespace Shape

/-- A tree printed alone is a run of one tree; in this form it joins with the others. -/
theorem print_eq_singleton (t : Node L V) (p : Printer) :
    (t.print p).text = p.text ++ String.join ([t].map Node.render) ∧
      (t.print p).log.toList = p.log.toList ++ [t].flatMap fun t => t.rendered.log := by
  rw [List.map_singleton, List.flatMap_singleton, String.join_cons]
  simpa using t.print_eq_rendered p

mutual

/-- A shape appends the renderings of the trees that it holds, in order. -/
theorem print_eq_trees : ∀ (s : Shape L V) (p : Printer),
    (s.print p).text = p.text ++ String.join (s.trees.map Node.render) ∧
      (s.print p).log.toList = p.log.toList ++ s.trees.flatMap fun t => t.rendered.log
  | absent, _ => ⟨String.append_empty.symm, (List.append_nil _).symm⟩
  | present s, p => print_eq_trees s p
  | boxed s, p => print_eq_trees s p
  | forest ss, p => printAll_eq_trees ss p
  | terminal t, p => print_eq_singleton (.terminal t) p
  | error e, p => print_eq_singleton (.error e) p
  | production n, p => print_eq_singleton (.nonterminal n) p
  | tree t, p => print_eq_singleton t p

/-- The same for several shapes. -/
theorem printAll_eq_trees : ∀ (ss : List (Shape L V)) (p : Printer),
    (printAll ss p).text = p.text ++ String.join ((treesAll ss).map Node.render) ∧
      (printAll ss p).log.toList =
        p.log.toList ++ (treesAll ss).flatMap fun t => t.rendered.log
  | [], _ => ⟨String.append_empty.symm, (List.append_nil _).symm⟩
  | s :: ss, p => by
    obtain ⟨hfirstText, hfirstLog⟩ := print_eq_trees s p
    obtain ⟨htext, hlog⟩ := printAll_eq_trees ss (s.print p)
    rw [printAll, treesAll, List.map_append, String.join_append, List.flatMap_append]
    constructor
    · rw [htext, hfirstText, String.append_assoc]
    · rw [hlog, hfirstLog, List.append_assoc]

end

/-- A shape alone renders as its trees do, one after the other. -/
theorem render_eq_join (s : Shape L V) : s.render = String.join (s.trees.map Node.render) := by
  rw [render, (s.print_eq_trees .empty).1]
  exact String.empty_append

end Shape

/-! ## Steps -/

namespace PrintStep

/-- What a step appends to a new printer. -/
def output (step : PrintStep α L V) : Printed :=
  { text := (step.run .empty).text, log := (step.run .empty).log.toList }

/-- Every step only appends. -/
theorem appendOnly_run (step : PrintStep α L V) : Printer.AppendOnly step.run := by
  cases step with
  | word s => exact Printer.appendOnly_word s
  | char c => exact Printer.appendOnly_char c
  | space => exact Printer.appendOnly_char ' '
  | value a => exact Printer.appendOnly_value a
  | startTag name => exact Printer.appendOnly_startTag name
  | attr name a => exact Printer.appendOnly_attr name a
  | endStartTag => exact Printer.appendOnly_char '>'
  | selfClose => exact Printer.appendOnly_word "/>"
  | endTag name => exact Printer.appendOnly_endTag name
  | print s => exact .of_adds _ _ s.print_eq_trees

/-- Each step appends its own output, whatever was done before it. -/
theorem runAll_eq_outputs (steps : List (PrintStep α L V)) (p : Printer) :
    (runAll steps p).1 = steps.map output ∧
      (runAll steps p).2.text = p.text ++ String.join (steps.map fun s => s.output.text) ∧
      (runAll steps p).2.log.toList = p.log.toList ++ steps.flatMap fun s => s.output.log := by
  induction steps generalizing p with
  | nil => exact ⟨rfl, String.append_empty.symm, (List.append_nil _).symm⟩
  | cons step rest ih =>
    have htext : (step.run p).text = p.text ++ step.output.text := step.appendOnly_run.text p
    have hlog : (step.run p).log.toList = p.log.toList ++ step.output.log :=
      step.appendOnly_run.log p
    -- the other steps find a printer that holds more, which changes nothing for them
    obtain ⟨houtputs, hrestText, hrestLog⟩ := ih (step.run p)
    rw [runAll]
    refine ⟨?_, ?_, ?_⟩
    · change (⟨_, _⟩ : Printed) :: (runAll rest (step.run p)).1 = _
      rw [houtputs, Printer.textSince_of_text_eq htext, Printer.logSince_of_log_eq hlog]
      rfl
    · change (runAll rest (step.run p)).2.text = _
      rw [hrestText, htext, List.map_cons, String.join_cons, String.append_assoc]
    · change (runAll rest (step.run p)).2.log.toList = _
      rw [hrestLog, hlog, List.flatMap_cons, List.append_assoc]

end PrintStep

/-! ## Both together -/

/-- Printing is append-only and compositional. Whatever a printer holds, a shape leaves it there and
appends the renderings of the trees in the shape, in order and with nothing between them, and their
logs; that text is also the rendering of the shape alone. A leaf or a production by itself is
printed as the node that is made from it. So each of several steps appends what it appends to a new
printer, and what is printed by all of them is what is printed by each, one after the other. -/
theorem Shape.print_eq_trees_and_runAll_eq_outputs :
    (∀ (s : Shape L V) (p : Printer),
      (s.print p).text = p.text ++ String.join (s.trees.map Node.render) ∧
      (s.print p).log.toList = p.log.toList ++ s.trees.flatMap fun t => t.rendered.log) ∧
    (∀ s : Shape L V, s.render = String.join (s.trees.map Node.render)) ∧
    (∀ (t : Terminal L V) (p : Printer),
      (Shape.terminal t).print p = (Node.terminal t).print p) ∧
    (∀ (e : ErrorNode L) (p : Printer),
      (Shape.error e : Shape L V).print p = (Node.error e : Node L V).print p) ∧
    (∀ (n : Production (Node L V)) (p : Printer),
      (Shape.production n).print p = (Node.nonterminal n).print p) ∧
    ∀ (steps : List (PrintStep α L V)) (p : Printer),
      (PrintStep.runAll steps p).1 = steps.map PrintStep.output ∧
      (PrintStep.runAll steps p).2.text =
        p.text ++ String.join ((PrintStep.runAll steps p).1.map Printed.text) ∧
      (PrintStep.runAll steps p).2.log.toList =
        p.log.toList ++ (PrintStep.runAll steps p).1.flatMap Printed.log := by
  refine ⟨print_eq_trees, render_eq_join, fun _ _ => rfl, fun _ _ => rfl, fun _ _ => rfl, ?_⟩
  intro steps p
  obtain ⟨houtputs, htext, hlog⟩ := PrintStep.runAll_eq_outputs steps p
  rw [houtputs, List.map_map, List.flatMap_map]
  exact ⟨rfl, htext, hlog⟩

end Append

end ParseMarkup
