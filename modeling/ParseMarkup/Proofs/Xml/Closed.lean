import ParseMarkup.Proofs.Dump.Replay
import ParseMarkup.Proofs.Xml.History

/-!
# Closed writers

Closing an XML writer is for good. A writer that was not closed is open whatever else was done with
it, and whatever failed; and with one that was closed nothing happens any more: every call is
refused before it looks at anything, so neither the writer nor its transport changes.

The module introduces `SessionStep.closes`, whether a step of a session closes its sink, and
`SessionStep.refusal?`, what a closed writer answers to a step. The main statements: a step of a
session leaves a writer closed exactly if it was closed before or the step closes it
(`XmlWriter.closed_run`), a closed writer is left as it was (`XmlWriter.run_of_closed`), and what
follows of whole sessions (`XmlWriter.runSession_closed`).
-/

namespace ParseMarkup

variable {L V : Type}

/-- Whether a step of a session closes its sink: the call to close does, and every dump. -/
def SessionStep.closes : SessionStep L V → Bool
  | .call e => e = .close
  | .write _ => false
  | .dump .. => true

/-- What a closed XML writer answers to a step. -/
def SessionStep.refusal? : SessionStep L V → Option SessionError
  | .call .close => none
  | .call _ => some (.call .sinkClosed)
  | .write _ => some (.dump (.sink .sinkClosed))
  | .dump .. => some (.dump (.sink .sinkClosed))

namespace XmlWriter

variable {ω : Type} [Transport ω]

/-! ## Which calls close a writer -/

/-- A call leaves a closed writer as it is, whether it is refused or closes the writer again. -/
theorem afterCall_of_closed {w : XmlWriter ω} (hclosed : w.closed = true) (e : Event) :
    afterCall e w = w := by
  obtain ⟨t, openElements, isPending, closed⟩ := w
  obtain rfl : closed = true := hclosed
  rw [afterCall, call_closed]
  by_cases hcloses : e = .close
  · rw [if_pos hcloses]
  · rw [if_neg hcloses]

/-- A call leaves a writer closed exactly if it was closed before or the call is to close it. The
transport may fail in it as it likes. -/
theorem closed_afterCall (e : Event) (w : XmlWriter ω) :
    (afterCall e w).closed = (w.closed || decide (e = .close)) := by
  cases hclosed : w.closed with
  | true =>
    rw [afterCall_of_closed hclosed, hclosed, Bool.true_or]
  | false =>
    rw [Bool.false_or]
    by_cases hcloses : e = .close
    · -- the writer is closed whether the flush that follows succeeds or not
      obtain ⟨t, openElements, isPending, _⟩ := w
      obtain rfl := hclosed
      rw [hcloses, afterCall, call_close_eq]
      simp only [onTransport]
      cases Transport.flush t <;> rfl
    · rw [decide_eq_false hcloses]
      by_cases hends : e = .endDocument
      · -- ending a document may fail on the way, but it does not close the writer
        rw [hends, afterCall]
        rcases call_endDocument_cases hclosed with
          ⟨w', hended, hopen, -⟩ | ⟨err, w', hended, hopen, -⟩
        · rw [hended]
          exact hopen
        · rw [hended]
          exact hopen
      · exact (changes_afterCall hclosed hends hcloses).isOpen

/-- Calls leave a writer closed exactly if it was closed before or one of them was to close it. -/
theorem closed_callAll (es : List Event) (w : XmlWriter ω) :
    (callAll es w).2.closed = (w.closed || decide (.close ∈ es)) := by
  induction es generalizing w with
  | nil => exact (Bool.or_false _).symm
  | cons e es ih =>
    rw [callAll_cons_snd, ih, closed_afterCall, Bool.or_assoc, ← Bool.decide_or]
    simp only [List.mem_cons, eq_comm]

/-- Calls none of which is to close leave a writer as open or closed as it was, up to the first that
fails. -/
theorem closed_play {calls : List Event} (hnoClose : .close ∉ calls) (stop? : Option DumpError)
    (w : XmlWriter ω) : (Script.play ⟨calls, stop?⟩ w).2.closed = w.closed := by
  induction calls generalizing w with
  | nil => rfl
  | cons e es ih =>
    rw [List.mem_cons, not_or] at hnoClose
    have hfirst := closed_afterCall e w
    rw [decide_eq_false (Ne.symm hnoClose.1), Bool.or_false, afterCall] at hfirst
    have hplayed := Script.play_cons e ⟨es, stop?⟩ w
    rw [Script.cons] at hplayed
    rw [hplayed]
    -- the other calls are made only if the first is taken
    cases hcalled : Sink.call e w with
    | ok _ w' =>
      rw [hcalled] at hfirst
      exact (ih hnoClose.2 w').trans hfirst
    | error err w' =>
      rw [hcalled] at hfirst
      exact hfirst

variable [Display L] [Display V]

/-- A step of a session leaves a writer closed exactly if it was closed before or the step closes
it. -/
theorem closed_run (step : SessionStep L V) (w : XmlWriter ω) :
    (step.run w).after.closed = (w.closed || step.closes) := by
  cases step with
  | call e =>
    have hleft : ((SessionStep.call e : SessionStep L V).run w).after = afterCall e w := by
      rw [SessionStep.run, afterCall]
      cases Sink.call e w <;> rfl
    rw [hleft]
    exact closed_afterCall e w
  | write t =>
    -- none of the calls for a tree is to close
    have hnoClose : .close ∉ t.item.events := fun hmem =>
      absurd (Item.isContent_of_mem_events t.item hmem) (by decide)
    have hwritten := congrArg Prod.snd (t.ending_write w)
    rw [t.script_unlimited] at hwritten
    change (t.write w).sink.closed = (w.closed || false)
    rw [Bool.or_false]
    exact (congrArg XmlWriter.closed hwritten).trans (closed_play hnoClose none w)
  | dump config t =>
    have hdumped := congrArg Prod.snd (t.ending_dumpWith config w)
    have hcloses : ∀ w' : XmlWriter ω, (afterCall .close w').closed = true := fun w' => by
      rw [closed_afterCall]
      exact Bool.or_true _
    change (t.dumpWith config w).sink.closed = (w.closed || true)
    rw [Bool.or_true]
    refine (congrArg XmlWriter.closed hdumped).trans ?_
    -- the sink is closed after the calls of the document, however they ended
    rw [Script.playAndClose]
    have hlast := hcloses ((t.documentScript config).play w).2
    rw [afterCall] at hlast
    simp only
    cases hclosing : Sink.call .close ((t.documentScript config).play w).2 with
    | ok _ w' =>
      rw [hclosing] at hlast
      exact hlast
    | error err w' =>
      rw [hclosing] at hlast
      exact hlast

/-- After a session, a writer is closed exactly if it was closed before or a step has closed it. -/
theorem closed_runSession (steps : List (SessionStep L V)) (w : XmlWriter ω) :
    (runSession steps w).2.closed = (w.closed || steps.any SessionStep.closes) := by
  induction steps generalizing w with
  | nil => exact (Bool.or_false _).symm
  | cons step rest ih =>
    rw [runSession, List.any_cons, ← Bool.or_assoc, ← closed_run]
    exact ih _

/-! ## Nothing happens to a closed writer -/

/-- Calls leave a closed writer as it is. -/
theorem callAll_snd_of_closed {w : XmlWriter ω} (hclosed : w.closed = true) (es : List Event) :
    (callAll es w).2 = w := by
  induction es with
  | nil => rfl
  | cons e es ih => rw [callAll_cons_snd, afterCall_of_closed hclosed, ih]

/-- A closed writer refuses the first call of a script, and is left as it was. -/
theorem play_of_closed {w : XmlWriter ω} (hclosed : w.closed = true) {e : Event}
    (hnotClose : e ≠ .close) (s : Script) :
    (s.cons e).play w = (some (.sink .sinkClosed), w) := by
  obtain ⟨t, openElements, isPending, closed⟩ := w
  obtain rfl : closed = true := hclosed
  rw [Script.play_cons, call_closed, if_neg hnotClose]

/-- Closing it after that does not change it either, and succeeds, so the refusal is the error. -/
theorem playAndClose_of_closed {w : XmlWriter ω} (hclosed : w.closed = true) {e : Event}
    (hnotClose : e ≠ .close) (s : Script) :
    (s.cons e).playAndClose w = (some (.sink .sinkClosed), w) := by
  rw [Script.playAndClose, play_of_closed hclosed hnotClose]
  obtain ⟨t, openElements, isPending, closed⟩ := w
  obtain rfl : closed = true := hclosed
  rfl

/-- The first call for a tree is the start of its element. -/
theorem exists_events_item (t : Node L V) :
    ∃ es, t.item.events = .startElement t.elementName :: es := by
  cases t with
  | terminal t => exact ⟨_, rfl⟩
  | error e => exact ⟨_, rfl⟩
  | nonterminal n => exact ⟨_, rfl⟩

/-- A step of a session is refused by a closed writer, unless it is the call to close, and leaves it
as it was. -/
theorem run_of_closed {w : XmlWriter ω} (hclosed : w.closed = true) (step : SessionStep L V) :
    (step.run w).error? = step.refusal? ∧ (step.run w).before = w ∧ (step.run w).after = w := by
  cases step with
  | call e =>
    obtain ⟨t, openElements, isPending, closed⟩ := w
    obtain rfl : closed = true := hclosed
    rw [SessionStep.run, call_closed]
    by_cases hcloses : e = .close
    · rw [if_pos hcloses, hcloses]
      exact ⟨rfl, rfl, rfl⟩
    · rw [if_neg hcloses]
      refine ⟨?_, rfl, rfl⟩
      cases e with
      | close => exact absurd rfl hcloses
      | _ => rfl
  | write t =>
    -- a tree begins with the start of an element, and that call is refused
    obtain ⟨es, hevents⟩ := exists_events_item t
    have hwritten := t.ending_write w
    rw [t.script_unlimited, hevents] at hwritten
    obtain ⟨herror, hsink⟩ := Prod.mk.inj
      (hwritten.trans (play_of_closed hclosed Event.noConfusion ⟨es, none⟩))
    exact ⟨congrArg (Option.map SessionError.dump) herror, rfl, hsink⟩
  | dump config t =>
    have hdumped := t.ending_dumpWith config w
    -- a dump begins with the prologue, which is refused, and closes a writer that is closed
    -- already
    rw [t.documentScript_eq] at hdumped
    obtain ⟨herror, hsink⟩ :=
      Prod.mk.inj (hdumped.trans (playAndClose_of_closed hclosed (by decide) _))
    exact ⟨congrArg (Option.map SessionError.dump) herror, rfl, hsink⟩

/-- After a session that began with a new writer, the writer is closed exactly if it was closed by a
call or a dump on the way, whatever the transport did. If so, any further steps, however many, leave
the writer and its transport as they are: the call to close succeeds, every other call is refused,
and every tree that is written or dumped fails with that refusal. -/
theorem runSession_closed (transport : ω) (steps more : List (SessionStep L V)) :
    let w := (runSession steps (new transport)).2
    (w.closed = true ↔ ∃ step ∈ steps, step.closes = true) ∧
    ((∃ step ∈ steps, step.closes = true) →
      (runSession more w).2 = w ∧
      (runSession more w).1.map (fun r => (r.error?, r.before, r.after)) =
        more.map fun step => (step.refusal?, w, w)) := by
  intro w
  have hiff : w.closed = true ↔ ∃ step ∈ steps, step.closes = true := by
    rw [closed_runSession, ← List.any_eq_true]
    change (false || _) = true ↔ _
    rw [Bool.false_or]
  refine ⟨hiff, fun hcloses => ?_⟩
  have hclosed := hiff.2 hcloses
  -- each step finds the writer as the session left it
  induction more with
  | nil => exact ⟨rfl, rfl⟩
  | cons step rest ih =>
    obtain ⟨herror, hbefore, hafter⟩ := run_of_closed hclosed step
    rw [runSession, List.map_cons, List.map_cons, herror, hbefore, hafter]
    exact ⟨ih.1, congrArg _ ih.2⟩

/-- A dump that breaks off in the name of an element closes its writer even though the flush on
closing fails; the writer is then closed for good, with the tag left as it is. -/
theorem runSession_closed_failing_flush :
    let gone : StreamError := ⟨.brokenPipe, "gone"⟩
    let transport : FaultyTransport :=
      { faults := [⟨75, .fail gone⟩], flushResults := [some gone] }
    let leaf : Node String String := .error ⟨"1", "2"⟩
    let steps : List (SessionStep String String) := [.dump .default leaf]
    let w := (runSession steps (new transport)).2
    (w.closed = true ∧ w.transport.flushes = 1 ∧ w.transport.received.size = 75) ∧
      (∃ step ∈ steps, step.closes = true) ∧
      (runSession [.call .flush, .call .close, .write leaf, .dump .default leaf] w).1.map
          (fun r => (r.error?, r.before, r.after)) =
        [(some (.call .sinkClosed), w, w), (none, w, w), (some (.dump (.sink .sinkClosed)), w, w),
          (some (.dump (.sink .sinkClosed)), w, w)] := by
  intro gone transport leaf steps w
  have hcloses : ∃ step ∈ steps, step.closes = true := ⟨_, List.mem_singleton_self _, rfl⟩
  obtain ⟨hclosed, hinert⟩ := runSession_closed transport steps
    [.call .flush, .call .close, .write leaf, .dump .default leaf]
  refine ⟨⟨hclosed.2 hcloses, ?_, ?_⟩, hcloses, (hinert hcloses).2⟩
  · decide +kernel
  · decide +kernel

end XmlWriter

end ParseMarkup
