import ParseMarkup.Dump.Stream

/-!
# Streaming through one text buffer

A tree can be streamed with a single text buffer for all its values: to pass on a value, the buffer
is cleared, the value is displayed into it, and what the buffer then holds is the text. All levels
of the recursion share the buffer, and a call that is refused leaves it as it is.

The module introduces:

* `BufferM`: streaming work that also has a buffer;
* `Node.streamBuffered`: the calls for a tree, with all values passed on through the buffer;
* `Forgets`: buffered work does what other work does, whatever the buffer holds at the start.

The main statement is `Node.forgets_streamBuffered`: nothing of one value is left in the buffer when
the next is passed on.
-/

namespace ParseMarkup

/-- Streaming work on a sink of type `σ` that has a text buffer. -/
abbrev BufferM (σ α : Type) : Type := StateT String (DumpM σ) α

section Buffered

variable {σ L V α β : Type}

namespace BufferM

/-- Work that leaves the buffer alone. -/
def lift (work : DumpM σ α) : BufferM σ α := StateT.lift work

/-- The text of a value, by way of the buffer. -/
def format [Display α] (a : α) : BufferM σ String := do
  set ""
  let shown ← lift (DumpM.format a)
  modify fun buffer => buffer ++ shown
  get

variable [Sink σ]

/-- Pass on an attribute with the text of a value. -/
def attr [Display α] (name : String) (a : α) : BufferM σ Unit := do
  let text ← format a
  lift (DumpM.call (.attr name text))

/-- Pass on an attribute if there is a value for it. -/
def attr? [Display α] (name : String) : Option α → BufferM σ Unit
  | none => pure ()
  | some a => attr name a

/-- Pass on the text of a value as content if there is one. -/
def characters? [Display α] : Option α → BufferM σ Unit
  | none => pure ()
  | some a => do
    let text ← format a
    lift (DumpM.call (.characters text))

end BufferM

section Stream

open BufferM

variable [Sink σ] [Display L] [Display V]

/-- The calls for a token, through the buffer. -/
def Terminal.streamBuffered (t : Terminal L V) : BufferM σ Unit := do
  lift (DumpM.call (.startElement "terminal"))
  lift (DumpM.call (.attr "id" t.tag))
  attr "left" t.left
  attr "right" t.right
  characters? t.value
  lift (DumpM.call .endElement)

/-- The calls for an error leaf, through the buffer. -/
def ErrorNode.streamBuffered (e : ErrorNode L) : BufferM σ Unit := do
  lift (DumpM.call (.startElement "error"))
  attr "left" e.left
  attr "right" e.right
  lift (DumpM.call .endElement)

mutual

/-- The calls for a tree, through the buffer. -/
def Node.streamBuffered (limit : UInt64) : Node L V → BufferM σ Unit
  | .terminal t => do
    lift (DumpM.enterNode limit "terminal" (some t.tag))
    t.streamBuffered
    lift DumpM.leaveNode
  | .error e => do
    lift (DumpM.enterNode limit "error" none)
    e.streamBuffered
    lift DumpM.leaveNode
  | .nonterminal ⟨tag, variant, cs⟩ => do
    lift (DumpM.enterNode limit "nonterminal" (some tag))
    lift (DumpM.call (.startElement "nonterminal"))
    lift (DumpM.call (.attr "id" tag))
    attr "variant" variant
    attr? "left" (leftmost cs)
    attr? "right" (rightmost cs)
    Node.streamAllBuffered limit cs
    lift (DumpM.call .endElement)
    lift DumpM.leaveNode

/-- The calls for several trees, through the buffer. -/
def Node.streamAllBuffered (limit : UInt64) : List (Node L V) → BufferM σ Unit
  | [] => pure ()
  | c :: cs => do
    Node.streamBuffered limit c
    Node.streamAllBuffered limit cs

end

end Stream

/-! ## What the buffer holds does not matter -/

/-- The buffered work does what `direct` does, whatever the buffer holds at its start. -/
def Forgets (buffered : BufferM σ α) (direct : DumpM σ α) : Prop :=
  ∀ buffer, buffered.run' buffer = direct

namespace Forgets

theorem pure (a : α) : Forgets (σ := σ) (Pure.pure a) (Pure.pure a) := fun _ => rfl

/-- Work that does not touch the buffer is done as it is. -/
theorem lift (work : DumpM σ α) : Forgets (BufferM.lift work) work := by
  intro buffer
  funext p
  change EStateM.map Prod.fst (EStateM.bind work _) p = work p
  rw [EStateM.map, EStateM.bind]
  cases work p <;> rfl

/-- The first part leaves the buffer as it likes, and the second does not care. -/
theorem bind {first : BufferM σ α} {first' : DumpM σ α} {next : α → BufferM σ β}
    {next' : α → DumpM σ β} (hone : Forgets first first') (htwo : ∀ a, Forgets (next a) (next' a)) :
    Forgets (first >>= next) (first' >>= next') := by
  intro buffer
  funext p
  -- run without the buffer, the first part ends as `first'` does; what it leaves in the buffer is
  -- what the second part begins with
  have hdone := congrFun (hone buffer) p
  change EStateM.map Prod.fst (EStateM.bind (first buffer) fun x => next x.1 x.2) p =
    EStateM.bind first' next' p
  change EStateM.map Prod.fst (first buffer) p = first' p at hdone
  rw [EStateM.bind, ← hdone, EStateM.map, EStateM.map, EStateM.bind]
  cases first buffer p with
  | ok x p' => exact congrFun (htwo x.1 x.2) p'
  | error err p' => rfl

/-- The text of a value is all that the buffer holds when it is passed on. -/
theorem format [Display α] (a : α) : Forgets (σ := σ) (BufferM.format a) (DumpM.format a) := by
  intro buffer
  funext p
  obtain ⟨sink, depth, log⟩ := p
  -- the text is appended to a buffer that has just been cleared
  change EStateM.Result.ok ("" ++ (display a).text) _ = .ok (display a).text _
  rw [String.empty_append]

variable [Sink σ]

theorem attr [Display α] (name : String) (a : α) :
    Forgets (σ := σ) (BufferM.attr name a) (DumpM.attr name a) :=
  bind (format a) fun _ => lift _

theorem attr? [Display α] (name : String) (a : Option α) :
    Forgets (σ := σ) (BufferM.attr? name a) (DumpM.attr? name a) := by
  cases a with
  | none => exact pure ()
  | some a => exact attr name a

theorem characters? [Display α] (a : Option α) :
    Forgets (σ := σ) (BufferM.characters? a) (DumpM.characters? a) := by
  cases a with
  | none => exact pure ()
  | some a => exact bind (format a) fun _ => lift _

end Forgets

section Stream

variable [Sink σ] [Display L] [Display V]

/-- A token shares the buffer among its tag, its value and its endpoints. -/
theorem Terminal.forgets_streamBuffered (t : Terminal L V) :
    Forgets (σ := σ) t.streamBuffered t.stream := by
  refine .bind (.lift _) fun _ => .bind (.lift _) fun _ => ?_
  refine .bind (.attr "left" _) fun _ => .bind (.attr "right" _) fun _ => ?_
  exact .bind (.characters? _) fun _ => .lift _

/-- An error node shares the buffer between its two endpoints. -/
theorem ErrorNode.forgets_streamBuffered (e : ErrorNode L) :
    Forgets (σ := σ) e.streamBuffered e.stream := by
  refine .bind (.lift _) fun _ => ?_
  refine .bind (.attr "left" _) fun _ => .bind (.attr "right" _) fun _ => ?_
  exact .lift _

mutual

/-- Streaming a tree through a buffer makes the calls that streaming it makes, with the same result,
whatever the buffer holds at the start. -/
theorem Node.forgets_streamBuffered (limit : UInt64) :
    ∀ t : Node L V, Forgets (σ := σ) (t.streamBuffered limit) (t.stream limit)
  | .terminal t => by
    rw [streamBuffered, stream]
    refine .bind (.lift _) fun _ => .bind t.forgets_streamBuffered fun _ => ?_
    exact .lift _
  | .error e => by
    rw [streamBuffered, stream]
    refine .bind (.lift _) fun _ => .bind e.forgets_streamBuffered fun _ => ?_
    exact .lift _
  | .nonterminal ⟨tag, variant, cs⟩ => by
    rw [streamBuffered, stream]
    refine .bind (.lift _) fun _ => .bind (.lift _) fun _ => .bind (.lift _) fun _ => ?_
    refine .bind (.attr "variant" _) fun _ => ?_
    refine .bind (.attr? "left" _) fun _ => .bind (.attr? "right" _) fun _ => ?_
    -- the children find in the buffer what was last passed on before them
    refine .bind (Node.forgets_streamAllBuffered limit cs) fun _ => ?_
    exact .bind (.lift _) fun _ => .lift _

/-- The same for several trees, which pass the buffer on from one to the next. -/
theorem Node.forgets_streamAllBuffered (limit : UInt64) :
    ∀ cs : List (Node L V),
      Forgets (σ := σ) (Node.streamAllBuffered limit cs) (Node.streamAll limit cs)
  | [] => .pure ()
  | c :: cs => by
    rw [streamAllBuffered, streamAll]
    exact .bind (Node.forgets_streamBuffered limit c) fun _ =>
      Node.forgets_streamAllBuffered limit cs

end

end Stream

end Buffered

end ParseMarkup
