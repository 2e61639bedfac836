import ParseMarkup.Proofs.Dump.Replay
import ParseMarkup.Xml.Writer

/-!
# Writing in step with memory

An XML writer does the same over any transport until the transport fails. What it would have put
up to then is known from the same calls over memory, where nothing fails.

The module introduces:

* `Lockstep`: what is known of a transport from the text that was put on it, as long as it takes
  everything, and after it has failed;
* `XmlWriter.onto`: a writer in the same state over another transport;
* `XmlWriter.Follows`: that some work over a transport keeps in step with the work over memory.

The main statement is `XmlWriter.follows_replay`: making calls keeps in step, whatever is known of
the transport. It goes from the work of a single piece of text up to any list of calls.
-/

namespace ParseMarkup

/-- What is known of a transport from the text that would have been put if nothing had failed. -/
structure Lockstep (ω : Type) [Transport ω] where
  /-- The transport has taken all of the text. -/
  InStep : String → ω → Prop
  /-- The transport has failed with an error somewhere in the text. -/
  Stopped : String → StreamError → ω → Prop
  /-- Putting a piece of text takes all of it or fails in it. -/
  put_inStep {text : String} {t : ω} (h : InStep text t) (piece : String) :
    (∃ t', Transport.put piece t = .ok () t' ∧ InStep (text ++ piece) t') ∨
      ∃ err t', Transport.put piece t = .error err t' ∧ Stopped (text ++ piece) err t'
  /-- It does not matter what would have been put after a failure. -/
  stopped_append {text : String} {err : StreamError} {t : ω} (h : Stopped text err t)
    (piece : String) : Stopped (text ++ piece) err t

/-! ## Work that keeps in step -/

/-- Whether a call is to put text, and not only to pass on what was put. -/
def Event.writes : Event → Bool
  | .flush => false
  | .close => false
  | _ => true

theorem Event.writes_of_isContent {e : Event} (h : e.isContent = true) : e.writes = true := by
  cases e <;> first | rfl | cases h

namespace XmlWriter

variable {ω : Type} [Transport ω] (known : Lockstep ω) {α β : Type}

/-- A writer in the same state over another transport. -/
def onto (w : XmlWriter TextBuffer) (t : ω) : XmlWriter ω :=
  ⟨t, w.openElements, w.startTagOpen, w.closed⟩

/-- Work that succeeds over memory keeps in step over a transport. -/
structure Follows (work : StreamM (XmlWriter TextBuffer) α) (work' : StreamM (XmlWriter ω) α) :
    Prop where
  /-- Over memory, the work adds to the text and does not close the writer. -/
  grows : ∀ {w : XmlWriter TextBuffer} {a : α} {w' : XmlWriter TextBuffer}, work w = .ok a w' →
    (∃ piece, w'.transport.text = w.transport.text ++ piece) ∧ w'.closed = w.closed
  /-- Over the transport, the work does the same, or it fails in the text that was added. -/
  keeps : ∀ {w : XmlWriter TextBuffer} {a : α} {w' : XmlWriter TextBuffer} {t : ω},
    work w = .ok a w' → known.InStep w.transport.text t →
    (∃ t', work' (w.onto t) = .ok a (w'.onto t') ∧ known.InStep w'.transport.text t') ∨
      ∃ err x, work' (w.onto t) = .error err x ∧ x.closed = w.closed ∧
        known.Stopped w'.transport.text err x.transport

/-- Work on the state of the writer alone is the same over any transport. -/
theorem follows_of_state {work : StreamM (XmlWriter TextBuffer) α} {work' : StreamM (XmlWriter ω) α}
    (hsame : ∀ w a w', work w = .ok a w' → w'.transport = w.transport ∧ w'.closed = w.closed ∧
      ∀ t, work' (w.onto t) = .ok a (w'.onto t)) : Follows known work work' where
  grows := by
    intro w a w' hdone
    obtain ⟨htransport, hclosed, -⟩ := hsame w a w' hdone
    exact ⟨⟨"", by rw [htransport, String.append_empty]⟩, hclosed⟩
  keeps := by
    intro w a w' t hdone hinStep
    obtain ⟨htransport, -, hdone'⟩ := hsame w a w' hdone
    exact Or.inl ⟨t, hdone' t, by rwa [htransport]⟩

theorem follows_pure (a : α) : Follows known (pure a) (pure a) := by
  refine follows_of_state known fun w a' w' hdone => ?_
  cases hdone
  exact ⟨rfl, rfl, fun t => rfl⟩

/-- There is nothing to keep in step with if the work fails over memory. -/
theorem follows_throw (err : StreamError) (work' : StreamM (XmlWriter ω) α) :
    Follows known (throw err) work' := by
  refine follows_of_state known fun w a' w' hdone => ?_
  cases hdone

variable {known}

/-- Work that keeps in step may be done one after the other. -/
theorem Follows.bind {first : StreamM (XmlWriter TextBuffer) α} {first' : StreamM (XmlWriter ω) α}
    {next : α → StreamM (XmlWriter TextBuffer) β} {next' : α → StreamM (XmlWriter ω) β}
    (hbegins : Follows known first first') (hgoesOn : ∀ a, Follows known (next a) (next' a)) :
    Follows known (first >>= next) (first' >>= next') where
  grows := by
    intro w b w'' hdone
    obtain ⟨a, w', hfirstDone, hnextDone⟩ := bind_eq_ok hdone
    obtain ⟨⟨piece, htext⟩, hclosed⟩ := hbegins.grows hfirstDone
    obtain ⟨⟨piece', htext'⟩, hclosed'⟩ := (hgoesOn a).grows hnextDone
    exact ⟨⟨piece ++ piece', by rw [htext', htext, String.append_assoc]⟩, hclosed'.trans hclosed⟩
  keeps := by
    intro w b w'' t hdone hinStep
    -- over memory both parts succeed; over the transport either may be the one that fails
    obtain ⟨a, w', hfirstDone, hnextDone⟩ := bind_eq_ok hdone
    obtain ⟨-, hclosed⟩ := hbegins.grows hfirstDone
    obtain ⟨⟨piece, htext⟩, -⟩ := (hgoesOn a).grows hnextDone
    simp only [Bind.bind, EStateM.bind]
    rcases hbegins.keeps hfirstDone hinStep with
      ⟨t', hfollowed, hinStep'⟩ | ⟨err, x, hfailed, hstopped⟩
    · rw [hfollowed, ← hclosed]
      exact (hgoesOn a).keeps hnextDone hinStep'
    · -- the rest is not done, and what it puts over memory does not matter any more
      obtain ⟨hxClosed, hxStopped⟩ := hstopped
      rw [hfailed, htext]
      exact Or.inr ⟨err, x, rfl, hxClosed, known.stopped_append hxStopped piece⟩

variable (known)

/-- Work may depend on a part of the state that does not belong to the transport. -/
theorem follows_get {γ : Type} (look : XmlWriter TextBuffer → γ) (look' : XmlWriter ω → γ)
    (hsame : ∀ w t, look' (w.onto t) = look w) (next : γ → StreamM (XmlWriter TextBuffer) β)
    (next' : γ → StreamM (XmlWriter ω) β) (hgoesOn : ∀ c, Follows known (next c) (next' c)) :
    Follows known (get >>= fun w => next (look w)) (get >>= fun w => next' (look' w)) where
  grows := by
    intro w b w' hdone
    exact (hgoesOn (look w)).grows hdone
  keeps := by
    intro w b w' t hdone hinStep
    change (∃ t', next' (look' (w.onto t)) (w.onto t) = _ ∧ _) ∨
      ∃ err x, next' (look' (w.onto t)) (w.onto t) = _ ∧ _
    rw [hsame]
    exact (hgoesOn (look w)).keeps hdone hinStep

/-- Work may depend on whether a start tag is open. -/
theorem follows_ite_startTagOpen {isOpen isEnded : StreamM (XmlWriter TextBuffer) β}
    {isOpen' isEnded' : StreamM (XmlWriter ω) β} (h : Follows known isOpen isOpen')
    (h' : Follows known isEnded isEnded') :
    Follows known (do if (← get).startTagOpen then isOpen else isEnded)
      (do if (← get).startTagOpen then isOpen' else isEnded') := by
  refine follows_get known startTagOpen startTagOpen (fun w t => rfl)
    (fun c => if c = true then isOpen else isEnded)
    (fun c => if c = true then isOpen' else isEnded') fun c => ?_
  cases c
  · exact h'
  · exact h

/-! ## The operations of a writer -/

/-- A piece of text is taken or fails. -/
theorem follows_raw (piece : String) : Follows known (raw piece) (raw piece) where
  grows := by
    intro w a w' hdone
    cases hdone
    exact ⟨⟨piece, rfl⟩, rfl⟩
  keeps := by
    intro w a w' t hdone hinStep
    cases hdone
    have htaken := known.put_inStep hinStep piece
    simp only [raw, onTransport, onto]
    rcases htaken with ⟨t', hput, hinStep'⟩ | ⟨err, t', hput, hstopped⟩
    · rw [hput]
      exact Or.inl ⟨t', rfl, hinStep'⟩
    · rw [hput]
      exact Or.inr ⟨err, _, rfl, rfl, hstopped⟩

/-- Whether the writer is open does not depend on the transport. -/
theorem follows_ensureOpen : Follows known ensureOpen ensureOpen := by
  refine follows_of_state known fun w a w' hdone => ?_
  unfold ensureOpen at hdone
  split at hdone
  · cases hdone
  · rename_i hopen
    cases hdone
    exact ⟨rfl, rfl, fun t => by simp [ensureOpen, onto, hopen]⟩

/-- The mark for a pending start tag is not part of the transport. -/
theorem follows_setStartTagOpen (isOpen : Bool) :
    Follows known (setStartTagOpen isOpen) (setStartTagOpen isOpen) := by
  refine follows_of_state known fun w a w' hdone => ?_
  cases hdone
  exact ⟨rfl, rfl, fun t => rfl⟩

theorem follows_pushElement (name : String) :
    Follows known (pushElement name) (pushElement name) := by
  refine follows_of_state known fun w a w' hdone => ?_
  cases hdone
  exact ⟨rfl, rfl, fun t => rfl⟩

/-- Whether there is an element to end does not depend on the transport, nor does its name. -/
theorem follows_popElement : Follows known popElement popElement := by
  refine follows_of_state known fun w a w' hdone => ?_
  unfold popElement at hdone
  split at hdone
  · cases hdone
  · rename_i name rest hnonempty
    cases hdone
    exact ⟨rfl, rfl, fun t => by simp [popElement, onto, hnonempty]⟩

/-- Completing a start tag keeps in step, whether one is pending or not. -/
theorem follows_finishStartTag : Follows known finishStartTag finishStartTag := by
  refine follows_ite_startTagOpen known ?_ ?_
  · exact (follows_setStartTagOpen known false).bind fun _ => follows_raw known ">"
  · exact follows_pure known ()

theorem follows_startDocument : Follows known startDocument startDocument :=
  (follows_ensureOpen known).bind fun _ => follows_raw known _

theorem follows_instruction (target data : String) :
    Follows known (instruction target data) (instruction target data) := by
  refine (follows_ensureOpen known).bind fun _ => (follows_finishStartTag known).bind fun _ =>
    (follows_raw known "<?").bind fun _ => (follows_raw known target).bind fun _ => ?_
  cases data.isEmpty
  · exact (follows_raw known " ").bind fun _ => (follows_raw known data).bind fun _ =>
      follows_raw known "?>"
  · exact follows_raw known "?>"

theorem follows_startElement (name : String) :
    Follows known (startElement name) (startElement name) :=
  (follows_ensureOpen known).bind fun _ => (follows_finishStartTag known).bind fun _ =>
    (follows_raw known "<").bind fun _ => (follows_raw known name).bind fun _ =>
      (follows_pushElement known name).bind fun _ => follows_setStartTagOpen known true

theorem follows_attr (name value : String) :
    Follows known (attr name value) (attr name value) := by
  have hwritten := (follows_raw known " ").bind fun _ => (follows_raw known name).bind fun _ =>
    (follows_raw known "=\"").bind fun _ => (follows_raw known (Xml.escape value)).bind fun _ =>
      follows_raw known "\""
  -- an attribute is only refused if it is refused over memory as well
  have hrefused := (follows_throw known (.strayAttribute name) (throw (.strayAttribute name))).bind
    fun _ : Unit => hwritten
  exact (follows_ensureOpen known).bind fun _ => follows_ite_startTagOpen known hwritten hrefused

theorem follows_characters (s : String) : Follows known (characters s) (characters s) :=
  (follows_ensureOpen known).bind fun _ => (follows_finishStartTag known).bind fun _ =>
    follows_raw known _

theorem follows_endElement : Follows known endElement endElement := by
  -- the name that is taken off is the same over any transport
  refine (follows_ensureOpen known).bind fun _ => (follows_popElement known).bind fun name => ?_
  refine follows_ite_startTagOpen known ?_ ?_
  · exact (follows_setStartTagOpen known false).bind fun _ => follows_raw known "/>"
  · exact (follows_raw known "</").bind fun _ => (follows_raw known name).bind fun _ =>
      follows_raw known ">"

/-- Ending several elements keeps in step, one after the other. -/
theorem follows_endElements (count : Nat) :
    Follows known (endElements count) (endElements count) := by
  induction count with
  | zero => exact follows_pure known ()
  | succ count ih => exact (follows_endElement known).bind fun _ => ih

theorem follows_endDocument : Follows known endDocument endDocument :=
  (follows_ensureOpen known).bind fun _ =>
    follows_get known depth depth (fun _ _ => rfl) _ _ (follows_endElements known)

/-- Every call keeps in step that puts text. -/
theorem follows_call {e : Event} (h : e.writes = true) : Follows known (call e) (call e) := by
  cases e with
  | startDocument => exact follows_startDocument known
  | instruction target data => exact follows_instruction known target data
  | startElement name => exact follows_startElement known name
  | attr name value => exact follows_attr known name value
  | characters s => exact follows_characters known s
  | endElement => exact follows_endElement known
  | endDocument => exact follows_endDocument known
  | flush => cases h
  | close => cases h

/-- Calls that put text keep in step, one after the other. -/
theorem follows_replay {events : List Event} (h : ∀ e ∈ events, e.writes = true) :
    Follows known (replay events) (replay events) := by
  induction events with
  | nil => exact follows_pure known ()
  | cons e es ih =>
    obtain ⟨hfirst, hothers⟩ := List.forall_mem_cons.1 h
    exact (follows_call known hfirst).bind fun _ => ih hothers

end XmlWriter

end ParseMarkup
